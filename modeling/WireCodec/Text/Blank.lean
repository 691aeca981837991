import WireCodec.Text.CodePoint

/-!
# Blanks

The three kinds of white space that formats here tell apart: the four blanks of JSON, the six blanks of ASCII,
and the 29 code points that Unicode text treats as white space.
-/

namespace WireCodec

namespace CodePoint

/-- Space, tab, line feed and carriage return. -/
def isJsonBlank (c : CodePoint) : Bool := c.val == 0x20 || c.val == 0x09 || c.val == 0x0A || c.val == 0x0D

/-- The blanks of JSON, vertical tab and form feed. -/
def isAsciiBlank (c : CodePoint) : Bool := c.val == 0x20 || (0x09 ≤ c.val && c.val ≤ 0x0D)

/-- The code points that separate words or lines: those of bidirectional type WS, B or S and the space
separators. -/
def isBlank (c : CodePoint) : Bool :=
  c.isAsciiBlank || (0x1C ≤ c.val && c.val ≤ 0x1F) || c.val == 0x85 || c.val == 0xA0 || c.val == 0x1680 ||
    (0x2000 ≤ c.val && c.val ≤ 0x200A) || c.val == 0x2028 || c.val == 0x2029 || c.val == 0x202F ||
    c.val == 0x205F || c.val == 0x3000

/-- Line feed and carriage return. -/
def isLineEnd (c : CodePoint) : Bool := c.val == 0x0A || c.val == 0x0D

/-- A blank that does not end a line. -/
def isInlineBlank (c : CodePoint) : Bool := c.isBlank && !c.isLineEnd

end CodePoint

namespace Text

/-- The text from its first code point on that is no JSON blank. -/
def skipJsonBlanks (t : Text) : Text := t.dropWhile CodePoint.isJsonBlank

/-- The text without the blanks at its end. -/
def trimEnd (t : Text) : Text := (t.reverse.dropWhile CodePoint.isBlank).reverse

end Text

end WireCodec
