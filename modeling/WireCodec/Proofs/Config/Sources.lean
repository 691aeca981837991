import Mathlib.Tactic.SplitIfs
import WireCodec.Config

/-!
# Where settings come from

A variable has the value that the environment gives it, and else the one that the file of variables assigns to it, if
the file does (`get?_extend`).  Settings are loaded exactly if the file is taken to its end and the two variables have
values that can be settings (`load_eq_ok_iff`).
-/

namespace WireCodec

/-! ### Adding variables -/

namespace Environment

theorem get?_append (name : Text) (env more : Environment) :
    get? name (env ++ more) = (env.get? name).or (more.get? name) := by
  rw [get?, List.lookup_append, Option.map_or]
  rfl

theorem get?_singleton_of_ne {name : Text} {entry : Bytes × Bytes} (h : Utf8.toWire name ≠ entry.1) :
    get? name [entry] = none := by
  have hlookup : [entry].lookup (Utf8.toWire name) = none := by
    simpa [List.lookup_eq_none_iff] using h
  rw [get?, hlookup, Option.map_none]

/-- A variable that is added has its value unless it had one, and no other variable changes. -/
theorem get?_add (env : Environment) (v : Variable) (name : Text) :
    (env.add v).get? name = (env.get? name).or (get? name [v.entry]) := by
  unfold add
  split
  · next hset =>
    by_cases hname : Utf8.toWire name = Utf8.toWire v.name
    · -- two names of the same bytes are one variable
      have hsame : env.get? name = env.get? v.name := by rw [get?, get?, hname]
      obtain ⟨value, hvalue⟩ := Option.isSome_iff_exists.1 hset
      rw [hsame, hvalue, Option.some_or]
    · rw [get?_singleton_of_ne hname, Option.or_none]
  · exact get?_append name env [v.entry]

/-- What was there stays, and every other variable has the first value that is added for it. -/
theorem get?_extend (env : Environment) (assigned : List Variable) (name : Text) :
    (env.extend assigned).get? name = (env.get? name).or (get? name (assigned.map Variable.entry)) := by
  induction assigned generalizing env with
  | nil => exact Option.or_none.symm
  | cons v assigned ih =>
    have hsplit := get?_append name [v.entry] (assigned.map Variable.entry)
    rw [List.singleton_append] at hsplit
    show ((env.add v).extend assigned).get? name = _
    rw [ih, get?_add, Option.or_assoc, List.map_cons, hsplit]

end Environment

namespace Config

/-! ### Sources -/

/-- The value of a variable: the environment comes first, then the file, whose values are seen as the environment would
hold them. -/
def effective? (env : Environment) (assigned : List Variable) (name : Text) : Option Text :=
  (env.get? name).or (Environment.get? name (assigned.map Variable.entry))

/-- The settings that sources give: the file is taken to its end, both variables have the values of the settings, the
level is one that has a name, and the number of parameters is positive. -/
structure IsAccepted (env : Environment) (file : Assignments) (c : Config) : Prop where
  readable : file.fault = none
  logLevel : c.logLevel = (effective? env file.assigned levelVariable).getD (Text.ofString "INFO")
  level : ∃ level, (Text.capital c.logLevel, level) ∈ Log.Level.names
  parameters :
    Text.toInt? ((effective? env file.assigned parametersVariable).getD (Text.ofString "1024")) = some c.maxParameters
  positive : 1 ≤ c.maxParameters

variable {env : Environment} {file : Assignments} {c c' : Config}

/-! ### Loading -/

theorem level?_ne_none_iff : c.level? ≠ none ↔ ∃ level, (Text.capital c.logLevel, level) ∈ Log.Level.names := by
  rw [← Option.isSome_iff_ne_none, level?, Log.Level.ofName?, List.lookup_isSome_iff]
  constructor
  · rintro ⟨p, hp, hname⟩
    obtain ⟨name, level⟩ := p
    obtain rfl : Text.capital c.logLevel = name := by simpa using hname
    exact ⟨level, hp⟩
  · rintro ⟨level, h⟩
    exact ⟨_, h, by simp⟩

private theorem validate_eq_ok_iff : validate c = .ok c' ↔ c = c' ∧ c.level? ≠ none ∧ 1 ≤ c.maxParameters := by
  unfold validate
  split_ifs with hlevel hpositive
  · simp [hlevel]
  · simp only [false_iff]
    rintro ⟨-, -, h⟩
    omega
  · have hle : 1 ≤ c.maxParameters := by omega
    simp [hlevel, hle]

/-- The default of the number of parameters counts as its text. -/
private theorem ofEnvironment_eq (env : Environment) : ofEnvironment env =
    match Text.toInt? ((env.get? parametersVariable).getD (Text.ofString "1024")) with
    | some n => validate ⟨(env.get? levelVariable).getD (Text.ofString "INFO"), n⟩
    | none => .error (.notInteger ((env.get? parametersVariable).getD (Text.ofString "1024"))) := by
  have hdefault : Text.toInt? (Text.ofString "1024") = some 1024 := by decide
  unfold ofEnvironment
  cases env.get? parametersVariable with
  | none =>
    rw [Option.getD_none, hdefault]
    rfl
  | some t => rfl

private theorem ofEnvironment_eq_ok_iff : ofEnvironment env = .ok c ↔
    c.logLevel = (env.get? levelVariable).getD (Text.ofString "INFO") ∧ c.level? ≠ none ∧
    Text.toInt? ((env.get? parametersVariable).getD (Text.ofString "1024")) = some c.maxParameters ∧
    1 ≤ c.maxParameters := by
  rw [ofEnvironment_eq]
  cases Text.toInt? ((env.get? parametersVariable).getD (Text.ofString "1024")) with
  | none => simp
  | some n =>
    rw [validate_eq_ok_iff]
    constructor
    · rintro ⟨rfl, hlevel, hpositive⟩
      exact ⟨rfl, hlevel, rfl, hpositive⟩
    · rintro ⟨hlogLevel, hlevel, hmax, hpositive⟩
      obtain ⟨logLevel, maxParameters⟩ := c
      obtain rfl := Option.some.inj hmax
      obtain rfl := hlogLevel
      exact ⟨rfl, hlevel, hpositive⟩

/-- Settings are loaded exactly if the sources give them. -/
theorem load_eq_ok_iff : (load env file).1 = .ok c ↔ IsAccepted env file c := by
  have heffective : ∀ name, (env.extend file.assigned).get? name = effective? env file.assigned name :=
    Environment.get?_extend env file.assigned
  cases hfault : file.fault with
  | some message =>
    have hload : (load env file).1 = .error (.unreadable message) := by simp only [load, hfault]
    rw [hload]
    refine iff_of_false nofun fun h => ?_
    rw [h.readable] at hfault
    cases hfault
  | none =>
    have hload : (load env file).1 = ofEnvironment (env.extend file.assigned) := by simp only [load, hfault]
    rw [hload, ofEnvironment_eq_ok_iff, heffective, heffective, level?_ne_none_iff]
    constructor
    · rintro ⟨hlogLevel, hlevel, hparameters, hpositive⟩
      exact ⟨hfault, hlogLevel, hlevel, hparameters, hpositive⟩
    · rintro ⟨-, hlogLevel, hlevel, hparameters, hpositive⟩
      exact ⟨hlogLevel, hlevel, hparameters, hpositive⟩

end Config

end WireCodec
