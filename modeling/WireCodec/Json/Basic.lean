import WireCodec.Binary64.Basic

/-!
# JSON values

Values as JSON documents hold them.  Integers are exact and apart from floating-point numbers, and the members
of an object keep their order.  An object has at most one member of a name: `Members.ofPairs` lets the last
value of a repeated name win, at the place of the first, and `Json.HasUniqueNames` says it of all objects in a
value.
-/

namespace WireCodec

/-- A JSON value. -/
inductive Json
  | null
  | bool (value : Bool)
  | int (value : Int)
  | float (value : Binary64)
  | str (value : Text)
  | arr (items : List Json)
  | obj (members : List (Text × Json))

namespace Json

/-- The truth value that a value is. -/
def toBool? : Json → Option Bool
  | .bool b => some b
  | _ => none

/-- The text that a value is. -/
def toText? : Json → Option Text
  | .str t => some t
  | _ => none

/-- The members of the object that a value is. -/
def toMembers? : Json → Option (List (Text × Json))
  | .obj m => some m
  | _ => none

end Json

/-- The members of an object in their order. -/
abbrev Members := List (Text × Json)

namespace Members

/-- The value of the member with a name. -/
def get? (name : Text) : Members → Option Json
  | [] => none
  | (n, value) :: rest => if n = name then some value else get? name rest

/-- Replaces the value of the member with a name, or adds a member at the end. -/
def insert (name : Text) (value : Json) : Members → Members
  | [] => [(name, value)]
  | (n, v) :: rest => if n = name then (name, value) :: rest else (n, v) :: insert name value rest

/-- The members that pairs of names and values leave when they are inserted one after another. -/
def ofPairs (pairs : List (Text × Json)) : Members := pairs.foldl (fun m p => insert p.1 p.2 m) []

/-- The value of an optional member, as the given reading takes it.  A member that is absent or null has no
value, and one of another kind is refused. -/
def optional? {α : Type} (take : Json → Option α) (name : Text) (m : Members) : Option (Option α) :=
  match get? name m with
  | none | some .null => some none
  | some value => (take value).map some

theorem get?_insert_self (name : Text) (value : Json) (m : Members) :
    get? name (insert name value m) = some value := by
  induction m with
  | nil => simp [insert, get?]
  | cons p m ih =>
    unfold insert
    split
    · simp [get?]
    · simp [get?, *]

theorem get?_insert_of_ne {name other : Text} (h : other ≠ name) (value : Json) (m : Members) :
    get? other (insert name value m) = get? other m := by
  induction m with
  | nil => simp [insert, get?, Ne.symm h]
  | cons p m ih =>
    unfold insert
    split
    · rename_i hp
      simp [get?, Ne.symm h, hp]
    · simp only [get?, ih]

end Members

/-! ### Unique names -/

mutual

/-- No object in the value has two members of one name. -/
def Json.HasUniqueNames : Json → Prop
  | .null | .bool _ | .int _ | .float _ | .str _ => True
  | .arr items => Json.ItemsHaveUniqueNames items
  | .obj members => (members.map Prod.fst).Nodup ∧ Json.MembersHaveUniqueNames members

/-- Unique names in every item of an array. -/
def Json.ItemsHaveUniqueNames : List Json → Prop
  | [] => True
  | item :: rest => item.HasUniqueNames ∧ Json.ItemsHaveUniqueNames rest

/-- Unique names in the value of every member of an object. -/
def Json.MembersHaveUniqueNames : List (Text × Json) → Prop
  | [] => True
  | (_, value) :: rest => value.HasUniqueNames ∧ Json.MembersHaveUniqueNames rest

end

end WireCodec
