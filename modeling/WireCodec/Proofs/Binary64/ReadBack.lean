import WireCodec.Proofs.Binary64.Rounding
import WireCodec.Proofs.Numeral.Spelling

/-!
# Written numbers are read back

The text of a finite number spells a numeral that writes no integer and is read as the number
(`exists_spells_toText`).  A numeral that was chosen for a number is read as it by the choice; the exact value in
full, which would stand in for one, is read as it because it is exact.
-/

namespace WireCodec.Binary64

/-! ### Setting digits -/

/-- The digits of a number without the zeros at its end. -/
def significant (n : Nat) : Text := (Text.ofNat n).take ((Text.ofNat n).length - trailingZeros (Text.ofNat n))

private theorem val_of_mem_zeros {n : Nat} {c : CodePoint} (h : c ∈ zeros n) : c.val = 0x30 := by
  rw [List.eq_of_mem_replicate h]
  rfl

private theorem trailingZeros_cons_le {c : CodePoint} (hc : c.val ≠ 0x30) (t : Text) :
    trailingZeros (c :: t) ≤ t.length := by
  have hstop : (c.val == 0x30) = false := by simpa using hc
  rw [trailingZeros, List.reverse_cons, List.takeWhile_append]
  split
  · simp [hstop]
  · rw [← @List.length_reverse _ t]
    exact (List.takeWhile_sublist _).length_le

/-- The significant digits of a positive number begin with its first digit, which is no zero. -/
private theorem significant_eq_cons {n : Nat} (h : n ≠ 0) : ∃ c t, significant n = c :: t ∧ c.val ≠ 0x30 := by
  obtain ⟨c, t, hct, hc⟩ := Text.head_ofNat h
  have hle := trailingZeros_cons_le hc t
  obtain ⟨k, hk⟩ : ∃ k, (c :: t).length - trailingZeros (c :: t) = k + 1 :=
    ⟨t.length - trailingZeros (c :: t), by rw [List.length_cons]; omega⟩
  refine ⟨c, t.take k, ?_, hc⟩
  rw [significant, hct, hk, List.take_succ_cons]

private theorem isDigit_of_mem_significant {n : Nat} {c : CodePoint} (h : c ∈ significant n) :
    c.isDigit = true :=
  Text.isDigit_of_mem_ofNat (List.mem_of_mem_take h)

/-- A numeral has the significant digits of its number, and zeros. -/
private theorem Layout.mem_numeral (l : Layout) {d : Decimal} {c : CodePoint}
    (h : c ∈ (l.numeral d).whole ∨ c ∈ (l.numeral d).fraction) : c ∈ significant d.digits ∨ c.val = 0x30 := by
  unfold Layout.numeral at h
  dsimp only at h
  rw [← significant] at h
  split at h
  · split at h
    · rcases h with h | h
      · exact .inr (val_of_mem_zeros h)
      · exact (List.mem_append.1 h).symm.imp id val_of_mem_zeros
    · rcases h with h | h
      · exact (List.mem_append.1 h).imp List.mem_of_mem_take val_of_mem_zeros
      · dsimp only at h
        split at h
        · exact .inr (val_of_mem_zeros h)
        · exact .inl (List.mem_of_mem_drop h)
  · exact .inl (h.elim List.mem_of_mem_take List.mem_of_mem_drop)

private theorem Layout.isDigit_of_mem_numeral (l : Layout) {d : Decimal} {c : CodePoint}
    (h : c ∈ (l.numeral d).whole ∨ c ∈ (l.numeral d).fraction) : c.isDigit = true := by
  rcases l.mem_numeral h with h | h
  · exact isDigit_of_mem_significant h
  · exact CodePoint.isDigit_iff.2 (by omega)

private theorem Layout.isWhole_numeral (l : Layout) {d : Decimal} (h : d.digits ≠ 0) :
    Numeral.IsWhole (l.numeral d).whole := by
  have hall : ∀ c ∈ (l.numeral d).whole, c.isDigit = true := fun c hc => l.isDigit_of_mem_numeral (.inl hc)
  have hshape : (∃ c, c.val = 0x30 ∧ (l.numeral d).whole = [c]) ∨
      ∃ c t, (l.numeral d).whole = c :: t ∧ c.val ≠ 0x30 := by
    obtain ⟨c, t, hct, hc⟩ := significant_eq_cons h
    unfold Layout.numeral
    dsimp only
    rw [← significant, hct]
    split
    · split
      · exact .inl ⟨_, rfl, rfl⟩
      · exact .inr ⟨c, _, rfl, hc⟩
    · exact .inr ⟨c, [], rfl, hc⟩
  rcases hshape with ⟨c, hc, hwhole⟩ | ⟨c, t, hwhole, hc⟩
  · exact .inl ⟨c, hwhole, hc⟩
  · exact .inr ⟨c, t, hwhole, hc, hwhole ▸ hall⟩

private theorem Layout.exponent_numeral (l : Layout) (d : Decimal) :
    ∀ x ∈ (l.numeral d).exponent, x.2 ≠ [] ∧ ∀ c ∈ x.2, c.isDigit = true := by
  intro x hx
  unfold Layout.numeral at hx
  dsimp only at hx
  split at hx
  · split at hx <;> cases hx
  · obtain rfl := Option.some.inj hx
    refine ⟨List.append_ne_nil_of_right_ne_nil _ (Text.ofNat_ne_nil _), fun c hc => ?_⟩
    rcases List.mem_append.1 hc with hc | hc
    · exact CodePoint.isDigit_iff.2 (by rw [val_of_mem_zeros hc]; decide)
    · exact Text.isDigit_of_mem_ofNat hc

/-- The numeral of a positive decimal number is spelled by its text. -/
theorem Layout.spells_numeral (l : Layout) {d : Decimal} (h : d.digits ≠ 0) :
    Numeral.Spells (l.numeral d) (l.numeral d).toText :=
  Numeral.spells_toText (l.isWhole_numeral h) (fun _ hc => l.isDigit_of_mem_numeral (.inr hc))
    (l.exponent_numeral d)

/-- The numeral of a positive decimal number writes no integer. -/
theorem Layout.isInteger_numeral (l : Layout) {d : Decimal} (h : d.digits ≠ 0) :
    (l.numeral d).isInteger = false := by
  obtain ⟨c, t, hct, -⟩ := significant_eq_cons h
  unfold Layout.numeral
  dsimp only
  rw [← significant, hct]
  split
  · split
    · simp [Numeral.isInteger]
    · refine Numeral.isInteger_of_fraction_ne_nil ?_
      dsimp only
      split
      · exact List.cons_ne_nil _ _
      · rw [Ne, List.drop_eq_nil_iff]
        omega
  · simp [Numeral.isInteger]

/-! ### Reading -/

private theorem decimalValue_eq_zero {t : Text} (h : ∀ c ∈ t, c.val = 0x30) : Text.decimalValue t = 0 := by
  unfold Text.decimalValue
  induction t with
  | nil => rfl
  | cons c t ih =>
    rw [List.foldl_cons, h c List.mem_cons_self]
    exact ih fun d hd => h d (List.mem_cons_of_mem _ hd)

/-- A numeral without significant digits is read as zero. -/
private theorem Layout.ofNumeral_numeral_of_eq_zero (l : Layout) {d : Decimal} (h : d.digits = 0) :
    ofNumeral (l.numeral d) = zero (l.numeral d).negative := by
  have hdigits : (l.numeral d).toDecimal.digits = 0 := by
    apply decimalValue_eq_zero
    intro c hc
    rcases l.mem_numeral (List.mem_append.1 hc) with hc | hc
    · rw [h] at hc
      exact absurd hc List.not_mem_nil
    · exact hc
  rw [ofNumeral, ofDecimal, if_pos hdigits]
  rfl

/-- All digits of a decimal number and its power of ten name the number. -/
private theorem toDecimal_inFull (d : Decimal) : (inFull d).toDecimal = d := by
  obtain ⟨negative, digits, exponent⟩ := d
  simp only [inFull, Numeral.toDecimal, List.append_nil, Text.decimalValue_ofNat, List.length_nil, Nat.cast_zero,
    Int.sub_zero, Decimal.mk.injEq, true_and, decide_eq_true_eq]
  split <;> omega

private theorem spells_inFull (d : Decimal) : Numeral.Spells (inFull d) (inFull d).toText := by
  refine Numeral.spells_toText (Numeral.isWhole_ofNat _) (fun c hc => absurd hc List.not_mem_nil) ?_
  intro x hx
  obtain rfl := Option.some.inj hx
  exact ⟨Text.ofNat_ne_nil _, fun c hc => Text.isDigit_of_mem_ofNat hc⟩

/-- The writing that is chosen for a number other than zero is spelled by its text, writes no integer and is read
as the number. -/
theorem spells_shortest {m : Nat} {e : Int} (h : IsCanonical m e) (hm : m ≠ 0) (negative : Bool) :
    let n := shortest (.finite negative m e h) negative m e
    Numeral.Spells n n.toText ∧ n.isInteger = false ∧ ofNumeral n = .finite negative m e h := by
  intro n
  cases hfind : ((candidates negative m e).map layout.numeral).find? fun n =>
      ofNumeral n = .finite negative m e h with
  | none =>
    -- no candidate is read as the number, and its exact value stands in
    have hn : n = inFull (exactly negative m e) := by
      show Option.getD _ _ = _
      rw [hfind, Option.getD_none]
    rw [hn]
    exact ⟨spells_inFull _, rfl, by rw [ofNumeral, toDecimal_inFull, ofDecimal_exactly h hm]⟩
  | some x =>
    have hn : n = x := by
      show Option.getD _ _ = _
      rw [hfind, Option.getD_some]
    have hread : ofNumeral x = .finite negative m e h := by simpa using List.find?_some hfind
    obtain ⟨d, -, rfl⟩ := List.mem_map.1 (List.mem_of_find?_eq_some hfind)
    -- a candidate without digits would be read as zero
    have hd : d.digits ≠ 0 := by
      intro hd
      rw [layout.ofNumeral_numeral_of_eq_zero hd] at hread
      injection hread with _ hm0
      exact hm hm0.symm
    rw [hn]
    exact ⟨layout.spells_numeral hd, layout.isInteger_numeral hd, hread⟩

private theorem spells_zero (negative : Bool) :
    ∃ n : Numeral, n.Spells (zero negative).toText ∧ n.isInteger = false ∧ ofNumeral n = zero negative := by
  refine ⟨⟨negative, zeros 1, zeros 1, none⟩, ?_, rfl, ?_⟩
  · refine ⟨[], ?_, .inl ⟨_, rfl, rfl⟩, fun c hc => ?_, .absent⟩
    · cases negative <;> rfl
    · rw [List.eq_of_mem_replicate hc]
      rfl
  · cases negative <;> rfl

/-- The text of a finite number spells a numeral that writes no integer and is read as the number. -/
theorem exists_spells_toText {x : Binary64} (h : x.IsFinite) :
    ∃ n : Numeral, n.Spells x.toText ∧ n.isInteger = false ∧ ofNumeral n = x := by
  cases x with
  | finite negative m e hc =>
    by_cases hm : m = 0
    · subst hm
      obtain rfl : e = -1074 := hc.2.2.2.resolve_left (by decide)
      exact spells_zero negative
    · refine ⟨_, ?_, (spells_shortest hc hm negative).2⟩
      rw [toText, if_neg hm]
      exact (spells_shortest hc hm negative).1
  | infinite negative => exact absurd h id
  | nan => exact absurd h id

end WireCodec.Binary64
