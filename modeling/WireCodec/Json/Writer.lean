import WireCodec.Binary64.Notation
import WireCodec.Json.Basic

/-!
# Writing JSON

A value is written as one line of printable ASCII.  Inside strings the quote, the backslash and the common
control characters have escapes of one letter, and every other code point outside `U+0020 … U+007E` is written
by its number, above `U+FFFF` as a pair of surrogates.  `Spacing` says whether blanks follow commas and
colons.
-/

namespace WireCodec.Json

/-- What stands between items and between a name and its value. -/
structure Spacing where
  comma : Text
  colon : Text

/-- No blanks. -/
def Spacing.compact : Spacing := ⟨Text.ofString ",", Text.ofString ":"⟩

/-- A blank after every comma and colon. -/
def Spacing.wide : Spacing := ⟨Text.ofString ", ", Text.ofString ": "⟩

/-- An escape of a code point by its number; the number must have at most four hexadecimal digits. -/
def codeEscape (c : CodePoint) : Text := Text.ofString "\\u" ++ Text.hex 4 c.val

/-- A code point inside a string. -/
def escape (c : CodePoint) : Text :=
  if c.val = 0x22 then Text.ofString "\\\""
  else if c.val = 0x5C then Text.ofString "\\\\"
  else if c.val = 0x0A then Text.ofString "\\n"
  else if c.val = 0x0D then Text.ofString "\\r"
  else if c.val = 0x09 then Text.ofString "\\t"
  else if c.val = 0x0C then Text.ofString "\\f"
  else if c.val = 0x08 then Text.ofString "\\b"
  else if 0x20 ≤ c.val ∧ c.val ≤ 0x7E then [c]
  else if c.val < 0x10000 then codeEscape c
  else codeEscape c.highHalf ++ codeEscape c.lowHalf

/-- A string with its quotes. -/
def writeString (t : Text) : Text := Text.ofString "\"" ++ t.flatMap escape ++ Text.ofString "\""

/-- A floating-point number; those that are not finite are words. -/
def writeFloat : Binary64 → Text
  | .nan => Text.ofString "NaN"
  | .infinite negative => Text.ofString (if negative then "-Infinity" else "Infinity")
  | .finite negative mantissa exponent h => (Binary64.finite negative mantissa exponent h).toText

mutual

/-- The text of a value. -/
def write (s : Spacing) : Json → Text
  | .null => Text.ofString "null"
  | .bool b => Text.ofString (if b then "true" else "false")
  | .int n => Text.ofInt n
  | .float x => writeFloat x
  | .str t => writeString t
  | .arr [] => Text.ofString "[]"
  | .arr (item :: rest) => Text.ofString "[" ++ write s item ++ writeItems s rest ++ Text.ofString "]"
  | .obj [] => Text.ofString "\x7b\x7d"
  | .obj ((name, item) :: rest) =>
    Text.ofString "\x7b" ++ writeString name ++ s.colon ++ write s item ++ writeMembers s rest ++
      Text.ofString "\x7d"

/-- The items after the first one, each with the comma before it. -/
def writeItems (s : Spacing) : List Json → Text
  | [] => []
  | item :: rest => s.comma ++ write s item ++ writeItems s rest

/-- The members after the first one, each with the comma before it. -/
def writeMembers (s : Spacing) : List (Text × Json) → Text
  | [] => []
  | (name, item) :: rest => s.comma ++ writeString name ++ s.colon ++ write s item ++ writeMembers s rest

end

end WireCodec.Json
