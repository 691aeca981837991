import WireCodec.Binary64.Notation
import WireCodec.Json.Basic
import WireCodec.Text.Quoted

/-!
# Showing JSON values in messages

Messages for people show a value with quoted texts in which printable code points stand for themselves, with a
blank after commas and colons, and with the words `None`, `True` and `False`.
-/

namespace WireCodec.Json

mutual

/-- A value as messages show it. -/
def display : Json → Text
  | .null => Text.ofString "None"
  | .bool b => Text.ofString (if b then "True" else "False")
  | .int n => Text.ofInt n
  | .float x => x.toText
  | .str t => Text.quoted t
  | .arr [] => Text.ofString "[]"
  | .arr (item :: rest) => Text.ofString "[" ++ display item ++ displayItems rest ++ Text.ofString "]"
  | .obj [] => Text.ofString "\x7b\x7d"
  | .obj ((name, item) :: rest) =>
    Text.ofString "\x7b" ++ Text.quoted name ++ Text.ofString ": " ++ display item ++ displayMembers rest ++
      Text.ofString "\x7d"

/-- The items after the first one, each with the comma before it. -/
def displayItems : List Json → Text
  | [] => []
  | item :: rest => Text.ofString ", " ++ display item ++ displayItems rest

/-- The members after the first one, each with the comma before it. -/
def displayMembers : List (Text × Json) → Text
  | [] => []
  | (name, item) :: rest =>
    Text.ofString ", " ++ Text.quoted name ++ Text.ofString ": " ++ display item ++ displayMembers rest

end

/-- The name of the kind of a value, as messages give it. -/
def kindName : Json → String
  | .null => "NoneType"
  | .bool _ => "bool"
  | .int _ => "int"
  | .float _ => "float"
  | .str _ => "str"
  | .arr _ => "list"
  | .obj _ => "dict"

end WireCodec.Json
