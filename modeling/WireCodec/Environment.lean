import WireCodec.Text.Utf8

/-!
# Environments

The variables of a process.  The system keeps their names and values as bytes, and a program sees them as texts, in
which a byte that is no UTF-8 is carried by a surrogate.  A file may assign variables besides; it adds those that are
missing and never changes one that is there, even an empty one.
-/

namespace WireCodec

/-- Names with their values, as the system keeps them; of a repeated name the first value counts. -/
abbrev Environment := List (Bytes × Bytes)

/-- An environment holds no empty name, no equals sign in a name, no zero code point and no surrogate that carries no
byte. -/
def Environment.CanHold (name value : Text) : Prop :=
  name ≠ [] ∧ (∀ c ∈ name, c.val ≠ 0x3D) ∧ ∀ c ∈ name ++ value, c.val ≠ 0 ∧ Utf8.IsPlain c

instance (name value : Text) : Decidable (Environment.CanHold name value) :=
  inferInstanceAs (Decidable (_ ∧ _ ∧ _))

/-- A variable that an environment can hold. -/
structure Variable where
  name : Text
  value : Text
  holds : Environment.CanHold name value

/-- The name and the value of a variable as the system keeps them. -/
def Variable.entry (v : Variable) : Bytes × Bytes := (Utf8.toWire v.name, Utf8.toWire v.value)

/-- What a file of variables assigns. -/
structure Assignments where
  /-- The variables one after another, up to the place at which the file cannot be taken. -/
  assigned : List Variable
  /-- What is wrong at this place, unless all of the file is taken. -/
  fault : Option Text

/-- What is assigned where there is no file. -/
def Assignments.none : Assignments := ⟨[], .none⟩

namespace Environment

/-- The value of a variable as a program sees it. -/
def get? (name : Text) (env : Environment) : Option Text :=
  (env.lookup (Utf8.toWire name)).map Utf8.decodeLossless

/-- The environment with a variable, unless it has one of this name. -/
def add (env : Environment) (v : Variable) : Environment :=
  if (env.get? v.name).isSome then env else env ++ [v.entry]

/-- The environment with variables that are added one after another. -/
def extend (env : Environment) (assigned : List Variable) : Environment := assigned.foldl add env

end Environment

end WireCodec
