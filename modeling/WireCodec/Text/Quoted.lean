import WireCodec.Text.Digits
import WireCodec.Text.Printable

/-!
# Quoted texts

A text between quotes, for people to read.  The quotes are single, unless the text holds a single quote and no
double one.  The quote in use and the backslash are escaped, tab, line feed and carriage return have escapes
of their own, and any other code point that is not printable is written by its number in the shortest of the
forms `\xNN`, `\uNNNN` and `\UNNNNNNNN`.
-/

namespace WireCodec.Text

/-- The quote that a text is put between. -/
def quoteFor (t : Text) : CodePoint :=
  if t.any (·.val == 0x27) && !t.any (·.val == 0x22) then .ofChar '"' else .ofChar '\x27'

/-- A code point inside quotes. -/
def escapeFor (quote c : CodePoint) : Text :=
  if c = quote ∨ c.val = 0x5C then [.ofChar '\\', c]
  else if c.val = 0x09 then ofString "\\t"
  else if c.val = 0x0A then ofString "\\n"
  else if c.val = 0x0D then ofString "\\r"
  else if c.isPrintable then [c]
  else if c.val < 0x100 then ofString "\\x" ++ hex 2 c.val
  else if c.val < 0x10000 then ofString "\\u" ++ hex 4 c.val
  else ofString "\\U" ++ hex 8 c.val

/-- A text between quotes. -/
def quoted (t : Text) : Text := quoteFor t :: t.flatMap (escapeFor (quoteFor t)) ++ [quoteFor t]

end WireCodec.Text
