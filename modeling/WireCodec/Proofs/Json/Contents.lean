import WireCodec.Proofs.Json.Objects
import WireCodec.Proofs.Json.Values

/-!
# What a value that was read holds

The values inside a value stand in its text, and so a value has a property throughout if the scalars that stand in its
text have it (`IsValue.forall_of_scalar`).  In particular a value that was read has unique names, integers of no more
digits and containers nested no deeper than are read (`names_of_read`, `integers_of_read`, `depth_of_read`).
-/

namespace WireCodec.Json

/-! ### Containers -/

section Containers

variable {V : Text → Json → Prop} {t : Text}

private theorem IsItems.exists_of_mem {vs : List Json} (h : IsItems V t vs) {v : Json} (hv : v ∈ vs) :
    ∃ s, s <:+: t ∧ V s v := by
  induction h with
  | @last s b w hw =>
    obtain rfl := List.mem_singleton.1 hv
    exact ⟨s, ⟨[], b ++ [.ofChar ']'], by simp⟩, hw⟩
  | @cons s b b' t w _ hw _ _ _ ih =>
    rcases List.mem_cons.1 hv with rfl | hv
    · exact ⟨s, ⟨[], b ++ .ofChar ',' :: (b' ++ t), by simp⟩, hw⟩
    · obtain ⟨u, hu, hV⟩ := ih hv
      exact ⟨u, hu.trans ⟨s ++ b ++ .ofChar ',' :: b', [], by simp⟩, hV⟩

/-- A container is an array or an object whose values stand in its text. -/
private theorem IsContainer.exists_inside {v : Json} (h : IsContainer V t v) :
    (∃ items, v = .arr items ∧ ∀ w ∈ items, ∃ s, s <:+: t ∧ V s w) ∨
    ∃ pairs, v = .obj (Members.ofPairs pairs) ∧ ∀ m ∈ Members.ofPairs pairs, ∃ s, s <:+: t ∧ V s m.2 := by
  cases h with
  | emptyArray => exact .inl ⟨[], rfl, nofun⟩
  | @array b u items _ hitems =>
    refine .inl ⟨items, rfl, fun w hw => ?_⟩
    obtain ⟨s, hs, hV⟩ := hitems.exists_of_mem hw
    exact ⟨s, hs.trans ⟨.ofChar '[' :: b, [], by simp⟩, hV⟩
  | emptyObject => exact .inr ⟨[], rfl, nofun⟩
  | @object b u pairs _ hmembers =>
    refine .inr ⟨pairs, rfl, fun m hm => ?_⟩
    obtain ⟨s, hs, hV⟩ := hmembers.exists_of_mem (Members.mem_of_mem_ofPairs hm)
    exact ⟨s, hs.trans ⟨.ofChar '\x7b' :: b, [], by simp⟩, hV⟩

end Containers

/-! ### Values -/

variable {limits : Limits} {depth : Nat} {t : Text} {v : Json}

/-- Induction over a value of the grammar, of which every part stands in the whole text. -/
@[elab_as_elim]
theorem IsValue.inside_induct {whole : Text} {motive : Nat → Json → Prop}
    (scalar : ∀ d s v, s <:+: whole → IsScalar limits s v → motive d v)
    (arr : ∀ d items, (∀ v ∈ items, motive d v) → motive (d + 1) (.arr items))
    (obj : ∀ d pairs, (∀ m ∈ Members.ofPairs pairs, motive d m.2) → motive (d + 1) (.obj (Members.ofPairs pairs)))
    (h : IsValue limits depth t v) (ht : t <:+: whole) : motive depth v := by
  induction depth generalizing t v with
  | zero => exact scalar 0 t v ht h
  | succ depth ih =>
    -- what stands in a part of the text stands in the whole
    rcases h with hs | hc
    · exact scalar (depth + 1) t v ht hs
    · rcases hc.exists_inside with ⟨items, rfl, hinside⟩ | ⟨pairs, rfl, hinside⟩
      · refine arr depth items fun w hw => ?_
        obtain ⟨s, hs, hV⟩ := hinside w hw
        exact ih hV (hs.trans ht)
      · refine obj depth pairs fun m hm => ?_
        obtain ⟨s, hs, hV⟩ := hinside m hm
        exact ih hV (hs.trans ht)

private theorem not_isScalar_arr {items : List Json} : ¬IsScalar limits t (.arr items) := by
  intro h
  cases h with
  | word h => simp [words] at h
  | nonFinite _ h => simp [nonFiniteWords] at h

/-- There is nothing inside a scalar. -/
private theorem IsScalar.flat (h : IsScalar limits t v) :
    (∀ {p : Json → Prop}, p v → v.Forall p) ∧ v.depth = 0 ∧ v.HasUniqueNames := by
  cases v with
  | arr items => exact absurd h not_isScalar_arr
  | obj members => exact absurd h not_isScalar_obj
  | null | bool | int | float | str => exact ⟨id, rfl, trivial⟩

/-- A value has a property throughout if the scalars in its text have it, and all arrays and objects. -/
theorem IsValue.forall_of_scalar {p : Json → Prop} {whole : Text}
    (hscalar : ∀ {s w}, s <:+: whole → IsScalar limits s w → p w) (harr : ∀ items, p (.arr items))
    (hobj : ∀ pairs, p (.obj (Members.ofPairs pairs))) (ht : t <:+: whole) (h : IsValue limits depth t v) :
    v.Forall p := by
  refine h.inside_induct (fun d s w hs hw => ?_) (fun d items hitems => ?_) (fun d pairs hpairs => ?_) ht
  · exact hw.flat.1 (hscalar hs hw)
  · exact forall_arr.2 ⟨harr items, hitems⟩
  · exact forall_obj.2 ⟨hobj pairs, hpairs⟩

private theorem IsScalar.isShortInt (h : IsScalar limits t v) : v.IsShortInt limits.digits := by
  cases h with
  | word h =>
    simp only [words, List.mem_cons, Prod.mk.injEq, List.not_mem_nil, or_false] at h
    rcases h with ⟨-, rfl⟩ | ⟨-, rfl⟩ | ⟨-, rfl⟩ <;> exact trivial
  | nonFinite _ h =>
    simp only [nonFiniteWords, List.mem_cons, Prod.mk.injEq, List.not_mem_nil, or_false] at h
    rcases h with ⟨-, rfl⟩ | ⟨-, rfl⟩ | ⟨-, rfl⟩ <;> exact trivial
  | @integer n _ hspells _ hlength =>
    have hpos : 0 < n.whole.length := List.length_pos_iff.2 hspells.whole_ne_nil
    have hle : (Nat.toDigits 10 n.toInt.natAbs).length ≤ n.whole.length :=
      (Nat.length_toDigits_le_iff (by decide) hpos).2 hspells.natAbs_toInt_lt
    show (Text.ofNat n.toInt.natAbs).length ≤ limits.digits
    rw [Text.ofNat, List.length_map]
    omega
  | float => exact trivial
  | string => exact trivial

theorem IsValue.integers (h : IsValue limits depth t v) : v.Forall (IsShortInt limits.digits) :=
  h.forall_of_scalar (fun _ hs => hs.isShortInt) (fun _ => trivial) (fun _ => trivial) List.infix_rfl

theorem IsValue.depth_le (h : IsValue limits depth t v) : v.depth ≤ depth := by
  refine h.inside_induct (motive := fun d v => v.depth ≤ d) (fun d s w _ hw => ?_) (fun d items hitems => ?_)
    (fun d pairs hpairs => ?_) List.infix_rfl
  · rw [hw.flat.2.1]
    exact Nat.zero_le d
  · exact depth_arr_le hitems
  · exact depth_obj_le hpairs

theorem IsValue.names (h : IsValue limits depth t v) : v.HasUniqueNames := by
  refine h.inside_induct (fun d s w _ hw => ?_) (fun d items hitems => ?_) (fun d pairs hpairs => ?_) List.infix_rfl
  · exact hw.flat.2.2
  · exact hasUniqueNames_arr.2 hitems
  · exact hasUniqueNames_obj.2 ⟨Members.nodup_ofPairs pairs, hpairs⟩

/-! ### Texts that were read -/

theorem isDocument_of_read (h : read limits t = .ok v) : IsDocument limits t v := by
  by_cases hmark : startsWithMark t = true
  · rw [read, if_pos hmark] at h
    cases h
  · rw [read_of_no_mark hmark] at h
    cases hdocument : document limits t with
    | error f =>
      rw [hdocument] at h
      cases h
    | ok w =>
      rw [hdocument] at h
      obtain rfl := Except.ok.inj h
      exact isDocument_of_document hdocument

/-- A document is the text of its value and blanks. -/
theorem IsDocument.exists_isValue (h : IsDocument limits t v) : ∃ s, s <:+: t ∧ IsValue limits limits.depth s v := by
  obtain @⟨b, s, b', v, -, hs, -⟩ := h
  exact ⟨s, ⟨b, b', by simp⟩, hs⟩

theorem exists_isValue_of_read (h : read limits t = .ok v) : ∃ s, s <:+: t ∧ IsValue limits limits.depth s v :=
  (isDocument_of_read h).exists_isValue

theorem IsDocument.integers (h : IsDocument limits t v) : v.Forall (IsShortInt limits.digits) := by
  obtain ⟨s, -, hs⟩ := h.exists_isValue
  exact hs.integers

theorem integers_of_read (h : read limits t = .ok v) : v.Forall (IsShortInt limits.digits) :=
  (isDocument_of_read h).integers

theorem names_of_read (h : read limits t = .ok v) : v.HasUniqueNames := by
  obtain ⟨s, -, hs⟩ := exists_isValue_of_read h
  exact hs.names

theorem IsDocument.depth_le (h : IsDocument limits t v) : v.depth ≤ limits.depth := by
  obtain ⟨s, -, hs⟩ := h.exists_isValue
  exact hs.depth_le

theorem depth_of_read (h : read limits t = .ok v) : v.depth ≤ limits.depth := (isDocument_of_read h).depth_le

end WireCodec.Json
