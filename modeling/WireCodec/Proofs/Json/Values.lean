import Mathlib.Data.List.Chain
import WireCodec.Text.Digits
import WireCodec.Json.Basic

/-!
# Properties of values

A property of all values inside a value (`Json.Forall`), the nesting of arrays and objects (`Json.depth`), and the
induction that goes with them: a value has a property if every array has it that has it in its items, and every
object that has it in its members (`Json.induct`).
-/

namespace WireCodec

/-- No high surrogate is directly followed by a low one. -/
def Text.IsUnpaired (t : Text) : Prop := t.IsChain fun c d => ¬(c.IsHigh ∧ d.IsLow)

instance (t : Text) : Decidable t.IsUnpaired := inferInstanceAs (Decidable (t.IsChain _))

/-- A text without high surrogates. -/
def Text.HasNoHigh (t : Text) : Prop := ∀ c ∈ t, ¬c.IsHigh

theorem Text.HasNoHigh.isUnpaired {t : Text} (h : t.HasNoHigh) : t.IsUnpaired := by
  induction t with
  | nil => exact .nil
  | cons c t ih =>
    have hc : ∀ d ∈ t.head?, ¬(c.IsHigh ∧ d.IsLow) := fun d _ hpair => h c List.mem_cons_self hpair.1
    exact List.isChain_cons.2 ⟨hc, ih fun d hd => h d (List.mem_cons_of_mem c hd)⟩

namespace Json

/-- Induction over a value, through the items of arrays and the members of objects. -/
@[elab_as_elim]
theorem induct {motive : Json → Prop} (null : motive .null) (bool : ∀ b, motive (.bool b))
    (int : ∀ n, motive (.int n)) (float : ∀ x, motive (.float x)) (str : ∀ t, motive (.str t))
    (arr : ∀ items, (∀ v ∈ items, motive v) → motive (.arr items))
    (obj : ∀ members, (∀ p ∈ members, motive p.2) → motive (.obj members)) (v : Json) : motive v := by
  refine @Json.rec motive (fun items => ∀ v ∈ items, motive v) (fun members => ∀ p ∈ members, motive p.2)
    (fun p => motive p.2) null bool int float str arr obj ?_ ?_ ?_ ?_ (fun _ _ h => h) v
  · exact fun v hv => absurd hv List.not_mem_nil
  · exact fun item rest hitem hrest v hv => (List.mem_cons.1 hv).elim (fun h => h ▸ hitem) (hrest v)
  · exact fun p hp => absurd hp List.not_mem_nil
  · exact fun member rest hmember hrest p hp => (List.mem_cons.1 hp).elim (fun h => h ▸ hmember) (hrest p)

/-! ### All values inside a value -/

mutual

/-- The value and every value inside it have a property. -/
def Forall (p : Json → Prop) : Json → Prop
  | .arr items => p (.arr items) ∧ ItemsForall p items
  | .obj members => p (.obj members) ∧ MembersForall p members
  | v => p v

/-- A property of every item of an array and of the values inside it. -/
def ItemsForall (p : Json → Prop) : List Json → Prop
  | [] => True
  | item :: rest => item.Forall p ∧ ItemsForall p rest

/-- A property of the value of every member of an object and of the values inside it. -/
def MembersForall (p : Json → Prop) : List (Text × Json) → Prop
  | [] => True
  | (_, value) :: rest => value.Forall p ∧ MembersForall p rest

end

theorem forall_arr {p : Json → Prop} {items : List Json} :
    (Json.arr items).Forall p ↔ p (.arr items) ∧ ∀ v ∈ items, v.Forall p := by
  have h : ItemsForall p items ↔ ∀ v ∈ items, v.Forall p := by
    induction items with
    | nil => simp [ItemsForall]
    | cons v items ih => simp [ItemsForall, ih]
  rw [Forall, h]

theorem forall_obj {p : Json → Prop} {members : Members} :
    (Json.obj members).Forall p ↔ p (.obj members) ∧ ∀ m ∈ members, m.2.Forall p := by
  have h : MembersForall p members ↔ ∀ m ∈ members, m.2.Forall p := by
    induction members with
    | nil => simp [MembersForall]
    | cons m members ih =>
      obtain ⟨name, v⟩ := m
      rw [MembersForall, ih, List.forall_mem_cons]
  rw [Forall, h]

theorem Forall.self {p : Json → Prop} {v : Json} (h : v.Forall p) : p v := by
  cases v with
  | arr items => exact (forall_arr.1 h).1
  | obj members => exact (forall_obj.1 h).1
  | null | bool | int | float | str => exact h

theorem hasUniqueNames_arr {items : List Json} :
    (Json.arr items).HasUniqueNames ↔ ∀ v ∈ items, v.HasUniqueNames := by
  rw [HasUniqueNames]
  induction items with
  | nil => simp [ItemsHaveUniqueNames]
  | cons v items ih => simp [ItemsHaveUniqueNames, ih]

theorem hasUniqueNames_obj {members : Members} : (Json.obj members).HasUniqueNames ↔
    (members.map Prod.fst).Nodup ∧ ∀ m ∈ members, m.2.HasUniqueNames := by
  have h : MembersHaveUniqueNames members ↔ ∀ m ∈ members, m.2.HasUniqueNames := by
    induction members with
    | nil => simp [MembersHaveUniqueNames]
    | cons m members ih =>
      obtain ⟨name, v⟩ := m
      rw [MembersHaveUniqueNames, ih, List.forall_mem_cons]
  rw [HasUniqueNames, h]

/-! ### Nesting -/

mutual

/-- The number of arrays and objects that are open at once in the writing of a value. -/
def depth : Json → Nat
  | .arr items => itemsDepth items + 1
  | .obj members => membersDepth members + 1
  | _ => 0

/-- The greatest depth of the items of an array. -/
def itemsDepth : List Json → Nat
  | [] => 0
  | item :: rest => max item.depth (itemsDepth rest)

/-- The greatest depth of the members of an object. -/
def membersDepth : List (Text × Json) → Nat
  | [] => 0
  | (_, value) :: rest => max value.depth (membersDepth rest)

end

theorem depth_lt_of_mem_arr {v : Json} {items : List Json} (h : v ∈ items) : v.depth < (Json.arr items).depth := by
  rw [depth, Nat.lt_succ_iff]
  induction items with
  | nil => exact absurd h List.not_mem_nil
  | cons item rest ih =>
    rw [itemsDepth]
    rcases List.mem_cons.1 h with rfl | h
    · exact Nat.le_max_left _ _
    · exact Nat.le_trans (ih h) (Nat.le_max_right _ _)

theorem depth_lt_of_mem_obj {m : Text × Json} {members : Members} (h : m ∈ members) :
    m.2.depth < (Json.obj members).depth := by
  rw [depth, Nat.lt_succ_iff]
  induction members with
  | nil => exact absurd h List.not_mem_nil
  | cons p rest ih =>
    obtain ⟨name, v⟩ := p
    rw [membersDepth]
    rcases List.mem_cons.1 h with rfl | h
    · exact Nat.le_max_left _ _
    · exact Nat.le_trans (ih h) (Nat.le_max_right _ _)

theorem depth_arr_le {items : List Json} {d : Nat} (h : ∀ v ∈ items, v.depth ≤ d) :
    (Json.arr items).depth ≤ d + 1 := by
  rw [depth]
  apply Nat.succ_le_succ
  induction items with
  | nil => exact Nat.zero_le d
  | cons v items ih =>
    rw [itemsDepth, Nat.max_le]
    exact ⟨h v List.mem_cons_self, ih fun w hw => h w (List.mem_cons_of_mem _ hw)⟩

theorem depth_obj_le {members : Members} {d : Nat} (h : ∀ m ∈ members, m.2.depth ≤ d) :
    (Json.obj members).depth ≤ d + 1 := by
  rw [depth]
  apply Nat.succ_le_succ
  induction members with
  | nil => exact Nat.zero_le d
  | cons m members ih =>
    obtain ⟨name, v⟩ := m
    rw [membersDepth, Nat.max_le]
    exact ⟨h _ List.mem_cons_self, ih fun p hp => h p (List.mem_cons_of_mem _ hp)⟩

/-! ### What a value holds -/

/-- An integer, if the value is one, has at most so many digits. -/
def IsShortInt (digits : Nat) : Json → Prop
  | .int n => (Text.ofNat n.natAbs).length ≤ digits
  | _ => True

/-- A floating-point number, if the value is one, is finite. -/
def IsFiniteFloat : Json → Prop
  | .float x => x.IsFinite
  | _ => True

/-- The text that a value is, or the names in it, hold no high surrogate directly before a low one. -/
def HasUnpairedText : Json → Prop
  | .str t => t.IsUnpaired
  | .obj members => ∀ m ∈ members, m.1.IsUnpaired
  | _ => True

end Json

end WireCodec
