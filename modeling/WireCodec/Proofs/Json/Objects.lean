import WireCodec.Proofs.Json.DepthLimit
import WireCodec.Proofs.Json.Members

/-!
# Documents that are objects

A document that is an object is looked at here by its pairs of names and values, repeated names included.  The
grammar is not bounded in depth; only the number of digits of an integer is a parameter, so that integers of any size
are had by taking it large enough, and whether there are words for numbers that are not finite (`IsObjectText`).
`IsObjectDocument` is the strict grammar without these words.

* Reading gives an object exactly for such a document (`read_eq_obj_iff`).
* The pairs are determined by the text (`IsObjectText.unique`), whatever the bounds on integers.
-/

namespace WireCodec.Json

/-! ### The grammar -/

/-- An object over a relation for the values in it. -/
inductive IsObject (V : Text → Json → Prop) : Text → List (Text × Json) → Prop
  | empty {b : Text} : IsBlanks b → IsObject V (.ofChar '\x7b' :: (b ++ [.ofChar '\x7d'])) []
  | members {b t : Text} {pairs : List (Text × Json)} : IsBlanks b → IsMembers V t pairs →
      IsObject V (.ofChar '\x7b' :: (b ++ t)) pairs

/-- One object between blanks, in the grammar with the words for numbers that are not finite or without them, and with
integers of at most the given number of digits. -/
inductive IsObjectText (words : Bool) (digits : Nat) : Text → List (Text × Json) → Prop
  | intro {depth : Nat} {b s b' : Text} {pairs : List (Text × Json)} : IsBlanks b →
      IsObject (IsValue ⟨words, depth + 1, digits⟩ depth) s pairs → IsBlanks b' →
      IsObjectText words digits (b ++ (s ++ b')) pairs

/-- One object between blanks, in the strict grammar. -/
abbrev IsObjectDocument (digits : Nat) (t : Text) (pairs : List (Text × Json)) : Prop :=
  IsObjectText false digits t pairs

section Grammar

variable {V W : Text → Json → Prop} {read : Reader Json} {t : Text} {pairs : List (Text × Json)}

theorem isContainer_obj_iff {m : Members} :
    IsContainer V t (.obj m) ↔ ∃ pairs, IsObject V t pairs ∧ m = Members.ofPairs pairs := by
  constructor
  · intro h
    cases h with
    | emptyObject hb => exact ⟨[], .empty hb, rfl⟩
    | object hb hmembers => exact ⟨_, .members hb hmembers, rfl⟩
  · rintro ⟨pairs, h, rfl⟩
    cases h with
    | empty hb => exact .emptyObject hb
    | members hb hmembers => exact .object hb hmembers

/-- What stands in an object after its brace. -/
private theorem IsObject.exists_inside (h : IsObject V t pairs) (rest : Text) :
    ∃ after, t ++ rest = .ofChar '\x7b' :: after ∧
      ((pairs = [] ∧ Text.skipJsonBlanks after = .ofChar '\x7d' :: rest) ∨
        ∃ u, IsMembers V u pairs ∧ Text.skipJsonBlanks after = u ++ rest) := by
  cases h with
  | @empty b hb => exact ⟨(b ++ [.ofChar '\x7d']) ++ rest, rfl, .inl ⟨rfl, skipJsonBlanks_close hb (by decide) rest⟩⟩
  | @members b u _ hb hmembers =>
    refine ⟨(b ++ u) ++ rest, rfl, .inr ⟨u, hmembers, ?_⟩⟩
    rw [List.append_assoc, skipJsonBlanks_append hb, (hmembers.starts.append rest).skipJsonBlanks]

private theorem not_starts_brace {t rest : Text} (h : Starts t) : t ≠ .ofChar '\x7d' :: rest := by
  rintro rfl
  obtain ⟨c, s, hcs, -, -, hc⟩ := h
  obtain ⟨rfl, -⟩ := List.cons.inj hcs
  exact hc rfl

/-- An object at the start of a text has only one list of pairs. -/
private theorem IsObject.unique (hV : Accepts V read) {t' rest rest' : Text} {pairs' : List (Text × Json)}
    (h : IsObject V t pairs) (h' : IsObject V t' pairs') (heq : t ++ rest = t' ++ rest') : pairs = pairs' := by
  obtain ⟨after, hafter, hpairs⟩ := h.exists_inside rest
  obtain ⟨after', hafter', hpairs'⟩ := h'.exists_inside rest'
  obtain rfl : after = after' := by
    rw [hafter, hafter'] at heq
    exact (List.cons.inj heq).2
  rcases hpairs with ⟨rfl, hskip⟩ | ⟨u, hu, hskip⟩
  · rcases hpairs' with ⟨rfl, -⟩ | ⟨u', hu', hskip'⟩
    · rfl
    · exact absurd (hskip'.symm.trans hskip) (not_starts_brace (hu'.starts.append rest'))
  · rcases hpairs' with ⟨rfl, hskip'⟩ | ⟨u', hu', hskip'⟩
    · exact absurd (hskip.symm.trans hskip') (not_starts_brace (hu.starts.append rest))
    · -- reading the members decides
      have hread := members_append hV hu (Nat.le_max_left pairs.length pairs'.length) rest
      have hread' := members_append hV hu' (Nat.le_max_right pairs.length pairs'.length) rest'
      rw [← hskip] at hread
      rw [← hskip', hread] at hread'
      exact (Prod.mk.inj (Except.ok.inj hread')).1

/-! ### Wider bounds -/

private theorem IsItems.mono (h : ∀ {t v}, V t v → W t v) {vs : List Json} (hitems : IsItems V t vs) :
    IsItems W t vs := by
  induction hitems with
  | last hv hb => exact .last (h hv) hb
  | cons hv hb hb' _ ih => exact .cons (h hv) hb hb' ih

private theorem IsMembers.mono (h : ∀ {t v}, V t v → W t v) (hmembers : IsMembers V t pairs) :
    IsMembers W t pairs := by
  induction hmembers with
  | last hn hv hb => exact .last hn (h hv) hb
  | cons hn hv hb hb' _ ih => exact .cons hn (h hv) hb hb' ih

private theorem IsContainer.mono (h : ∀ {t v}, V t v → W t v) {v : Json} (hv : IsContainer V t v) :
    IsContainer W t v := by
  cases hv with
  | emptyArray hb => exact .emptyArray hb
  | array hb hitems => exact .array hb (hitems.mono h)
  | emptyObject hb => exact .emptyObject hb
  | object hb hmembers => exact .object hb (hmembers.mono h)

private theorem IsObject.mono (h : ∀ {t v}, V t v → W t v) (hobject : IsObject V t pairs) : IsObject W t pairs := by
  cases hobject with
  | empty hb => exact .empty hb
  | members hb hmembers => exact .members hb (hmembers.mono h)

end Grammar

private theorem IsScalar.mono {words : Bool} {n n' digits digits' : Nat} (hdigits : digits ≤ digits') {t : Text}
    {v : Json} (h : IsScalar ⟨words, n, digits⟩ t v) : IsScalar ⟨words, n', digits'⟩ t v := by
  cases h with
  | word h => exact .word h
  | nonFinite hlimits h => exact .nonFinite hlimits h
  | integer h hint hlength => exact .integer h hint (Nat.le_trans hlength hdigits)
  | float h hint => exact .float h hint
  | string h => exact .string h

/-- Wider bounds on digits and depth leave a text its value. -/
theorem IsValue.mono {words : Bool} {n n' digits digits' depth depth' : Nat} (hdigits : digits ≤ digits')
    (hdepth : depth ≤ depth') {t : Text} {v : Json} (h : IsValue ⟨words, n, digits⟩ depth t v) :
    IsValue ⟨words, n', digits'⟩ depth' t v := by
  induction depth generalizing depth' t v with
  | zero =>
    have hscalar : IsScalar ⟨words, n, digits⟩ t v := h
    exact (hscalar.mono hdigits).isValue depth'
  | succ depth ih =>
    obtain ⟨depth', rfl⟩ : ∃ d, depth' = d + 1 := ⟨depth' - 1, by omega⟩
    rcases h with h | h
    · exact (h.mono hdigits).isValue _
    · exact .inr (h.mono fun hv => ih (Nat.le_of_succ_le_succ hdepth) hv)

/-! ### Documents -/

section Documents

variable {words : Bool} {digits : Nat} {t : Text} {pairs : List (Text × Json)}

theorem IsObjectText.exists_isDocument (h : IsObjectText words digits t pairs) :
    ∃ depth, IsDocument ⟨words, depth, digits⟩ t (.obj (Members.ofPairs pairs)) := by
  obtain @⟨depth, b, s, b', pairs, hb, hs, hb'⟩ := h
  exact ⟨depth + 1, .intro hb (.inr (isContainer_obj_iff.2 ⟨pairs, hs, rfl⟩)) hb'⟩

theorem not_isScalar_obj {limits : Limits} {m : Members} : ¬IsScalar limits t (.obj m) := by
  intro h
  cases h with
  | word h => simp [words] at h
  | nonFinite _ h => simp [nonFiniteWords] at h

theorem IsDocument.exists_isObjectText {depth : Nat} {m : Members}
    (h : IsDocument ⟨words, depth, digits⟩ t (.obj m)) :
    ∃ pairs, IsObjectText words digits t pairs ∧ m = Members.ofPairs pairs := by
  obtain @⟨b, s, b', v, hb, hs, hb'⟩ := h
  cases depth with
  | zero => exact absurd hs not_isScalar_obj
  | succ depth =>
    rcases hs with hs | hs
    · exact absurd hs not_isScalar_obj
    · obtain ⟨pairs, hobject, rfl⟩ := isContainer_obj_iff.1 hs
      exact ⟨pairs, .intro hb hobject hb', rfl⟩

private theorem IsObjectText.skipJsonBlanks (h : IsObjectText words digits t pairs) :
    ∃ depth s b, IsObject (IsValue ⟨words, depth + 1, digits⟩ depth) s pairs ∧ Text.skipJsonBlanks t = s ++ b := by
  obtain @⟨depth, b, s, b', pairs, hb, hs, hb'⟩ := h
  refine ⟨depth, s, b', hs, ?_⟩
  have hstarts : Starts s := by
    cases hs <;> exact ⟨_, _, rfl, by decide, by decide, by decide⟩
  rw [skipJsonBlanks_append hb, (hstarts.append b').skipJsonBlanks]

/-- A text is an object in one way only, also if the bounds on integers differ. -/
theorem IsObjectText.unique {digits' : Nat} {pairs' : List (Text × Json)} (h : IsObjectText words digits t pairs)
    (h' : IsObjectText words digits' t pairs') : pairs = pairs' := by
  obtain ⟨depth, s, b, hs, hskip⟩ := h.skipJsonBlanks
  obtain ⟨depth', s', b', hs', hskip'⟩ := h'.skipJsonBlanks
  -- both are read under bounds that are wide enough for either
  have hmono : ∀ {t v}, IsValue ⟨words, depth + 1, digits⟩ depth t v →
      IsValue ⟨words, 0, max digits digits'⟩ (max depth depth') t v :=
    IsValue.mono (Nat.le_max_left _ _) (Nat.le_max_left _ _)
  have hmono' : ∀ {t v}, IsValue ⟨words, depth' + 1, digits'⟩ depth' t v →
      IsValue ⟨words, 0, max digits digits'⟩ (max depth depth') t v :=
    IsValue.mono (Nat.le_max_right _ _) (Nat.le_max_right _ _)
  exact IsObject.unique (accepts_value _ _) (hs.mono hmono) (hs'.mono hmono') (hskip.symm.trans hskip')

theorem IsObjectText.not_startsWithMark (h : IsObjectText words digits t pairs) :
    ¬startsWithMark t = true := by
  obtain @⟨depth, b, s, b', pairs, hb, hs, hb'⟩ := h
  cases b with
  | nil => cases hs <;> simp [startsWithMark, CodePoint.ofChar]
  | cons c b =>
    have hc := hb c List.mem_cons_self
    simp only [CodePoint.isJsonBlank, Bool.or_eq_true, beq_iff_eq] at hc
    simp only [List.cons_append, startsWithMark, beq_iff_eq]
    omega

/-- Within the limit of the depth, reading gives an object exactly for a text that is one, with the last value of each
name. -/
theorem read_eq_obj_iff {limits : Limits} (h : nesting (readablePart limits t) ≤ limits.depth) {m : Members} :
    read limits t = .ok (.obj m) ↔
      ∃ pairs, IsObjectText limits.nonFinite limits.digits t pairs ∧ m = Members.ofPairs pairs := by
  obtain ⟨nonFinite, depth, digits⟩ := limits
  constructor
  · intro hread
    by_cases hmark : startsWithMark t = true
    · rw [read, if_pos hmark] at hread
      cases hread
    · rw [read_of_no_mark hmark] at hread
      cases hdocument : document ⟨nonFinite, depth, digits⟩ t with
      | error f =>
        rw [hdocument] at hread
        cases hread
      | ok v =>
        rw [hdocument] at hread
        obtain rfl : v = .obj m := Except.ok.inj hread
        exact (isDocument_of_document hdocument).exists_isObjectText
  · -- the grammar gives some depth, and the limit may be put in its place
    rintro ⟨pairs, hpairs, rfl⟩
    obtain ⟨depth', hdocument⟩ := hpairs.exists_isDocument
    have hread : read ⟨nonFinite, depth', digits⟩ t = .ok (.obj (Members.ofPairs pairs)) := by
      rw [read_of_no_mark hpairs.not_startsWithMark, document_of_isDocument hdocument]
      rfl
    exact read_of_read_withDepth h hread

/-! ### What an object holds -/

/-- The value of a member stands in the text of the members. -/
theorem IsMembers.exists_of_mem {V : Text → Json → Prop} (h : IsMembers V t pairs) {p : Text × Json}
    (hp : p ∈ pairs) : ∃ s, s <:+: t ∧ V s p.2 := by
  induction h with
  | @last n _ s b v _ hv =>
    obtain rfl := List.mem_singleton.1 hp
    exact ⟨s, ⟨n, b ++ [.ofChar '\x7d'], by simp⟩, hv⟩
  | @cons n _ s b b' t v _ _ hv _ _ _ ih =>
    rcases List.mem_cons.1 hp with rfl | hp
    · exact ⟨s, ⟨n, b ++ .ofChar ',' :: (b' ++ t), by simp⟩, hv⟩
    · obtain ⟨u, hu, hV⟩ := ih hp
      exact ⟨u, hu.trans ⟨n ++ s ++ b ++ .ofChar ',' :: b', [], by simp⟩, hV⟩

private theorem natAbs_lt_of_isScalar {limits : Limits} {n : Int} (h : IsScalar limits t (.int n)) :
    n.natAbs < 10 ^ limits.digits := by
  generalize hv : Json.int n = v at h
  cases h with
  | word h => simp [words, ← hv] at h
  | nonFinite _ h => simp [nonFiniteWords, ← hv] at h
  | @integer x _ hspells _ hlength =>
    obtain rfl := Json.int.inj hv
    exact Nat.lt_of_lt_of_le hspells.natAbs_toInt_lt (Nat.pow_le_pow_right (by decide) hlength)
  | float => cases hv
  | string => cases hv

private theorem not_isContainer_int {V : Text → Json → Prop} {n : Int} : ¬IsContainer V t (.int n) := nofun

/-- An integer among the values of an object has no more digits than are allowed. -/
theorem IsObjectText.natAbs_lt (h : IsObjectText words digits t pairs) {name : Text} {n : Int}
    (hn : (name, .int n) ∈ pairs) : n.natAbs < 10 ^ digits := by
  obtain ⟨depth, s, b, hs, -⟩ := h.skipJsonBlanks
  cases hs with
  | empty => exact absurd hn List.not_mem_nil
  | members _ hmembers =>
    obtain ⟨u, -, hu⟩ := hmembers.exists_of_mem hn
    cases depth with
    | zero => exact natAbs_lt_of_isScalar hu
    | succ depth =>
      rcases hu with hu | hu
      · exact natAbs_lt_of_isScalar hu
      · exact absurd hu not_isContainer_int

private theorem IsMembers.exists_append_brace {V : Text → Json → Prop} (h : IsMembers V t pairs) :
    ∃ u, t = u ++ [.ofChar '\x7d'] := by
  induction h with
  | @last n _ s b => exact ⟨n ++ (s ++ b), by simp⟩
  | @cons n _ s b b' _ _ _ _ _ _ _ _ ih =>
    obtain ⟨u, rfl⟩ := ih
    exact ⟨n ++ (s ++ (b ++ .ofChar ',' :: (b' ++ u))), by simp⟩

private theorem IsObject.exists_append_brace {V : Text → Json → Prop} (h : IsObject V t pairs) :
    ∃ u, t = u ++ [.ofChar '\x7d'] := by
  cases h with
  | @empty b => exact ⟨.ofChar '\x7b' :: b, rfl⟩
  | @members b _ _ _ hmembers =>
    obtain ⟨u, rfl⟩ := hmembers.exists_append_brace
    exact ⟨.ofChar '\x7b' :: (b ++ u), by simp⟩

/-- An object ends with its brace or with a blank. -/
theorem IsObjectText.exists_last (h : IsObjectText words digits t pairs) :
    ∃ u c, t = u ++ [c] ∧ (c.isJsonBlank = true ∨ c.val = 0x7D) := by
  obtain @⟨depth, b, s, b', pairs, hb, hs, hb'⟩ := h
  -- what is last depends on whether blanks follow
  rcases List.eq_nil_or_concat b' with rfl | ⟨b', c, rfl⟩
  · obtain ⟨u, rfl⟩ := hs.exists_append_brace
    exact ⟨b ++ u, .ofChar '\x7d', by simp, .inr rfl⟩
  · exact ⟨b ++ (s ++ b'), c, by simp, .inl (hb' c (by simp))⟩

end Documents

end WireCodec.Json
