import WireCodec.Json.Basic

/-!
# Equality of JSON values

Two values are the same if they mean the same: numbers are compared by what they are worth, whether they are
integers, floating-point numbers or truth values (`true` is worth one), and objects without regard to the
order of their members.  Not-a-number is not the same as itself.
-/

namespace WireCodec.Json

/-- The integer that an exact number is worth. -/
def worth? : Json → Option Int
  | .bool b => some (if b then 1 else 0)
  | .int n => some n
  | _ => none

/-- Equality of values that are no containers. -/
def sameScalar : Json → Json → Bool
  | .null, .null => true
  | .str s, .str t => s == t
  | .float x, .float y => x.same y
  | .float x, j => (worth? j).any x.sameInt
  | i, .float y => (worth? i).any y.sameInt
  | i, j =>
    match worth? i, worth? j with
    | some m, some n => m == n
    | _, _ => false

mutual

/-- Whether two values mean the same. -/
def same : Json → Json → Bool
  | .arr a, .arr b => sameItems a b
  | .obj a, .obj b => a.length == b.length && sameMembers a b
  | i, j => sameScalar i j

/-- Whether two lists of items mean the same, item by item. -/
def sameItems : List Json → List Json → Bool
  | [], [] => true
  | i :: a, j :: b => same i j && sameItems a b
  | _, _ => false

/-- Whether every member of the first object has one of the same name and meaning in the second. -/
def sameMembers : List (Text × Json) → Members → Bool
  | [], _ => true
  | (name, i) :: rest, b =>
    (match Members.get? name b with
      | some j => same i j
      | none => false) && sameMembers rest b

end

end WireCodec.Json
