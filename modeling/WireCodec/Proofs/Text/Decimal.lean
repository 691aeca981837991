import Mathlib.Algebra.Group.Nat.Defs
import Mathlib.Data.List.Induction
import WireCodec.Text.Digits

/-!
# Decimal texts

The decimal text of a natural number consists of digits, has no leading zero, and names the number
(`decimalValue_ofNat`).  So many digits name a number below this power of ten (`decimalValue_lt`).
-/

namespace WireCodec

namespace CodePoint

theorem isDigit_iff {c : CodePoint} : c.isDigit = true ↔ 0x30 ≤ c.val ∧ c.val ≤ 0x39 := by
  simp [isDigit]

end CodePoint

namespace Text

/-! ### The digits of a number -/

theorem ofNat_ne_nil (n : Nat) : ofNat n ≠ [] := by
  simp [ofNat]

theorem isDigit_of_mem_ofNat {n : Nat} {c : CodePoint} (h : c ∈ ofNat n) : c.isDigit = true := by
  obtain ⟨d, hd, rfl⟩ := List.mem_map.1 h
  have hdigit := Nat.isDigit_of_mem_toDigits (by decide) (by decide) hd
  simp only [Char.isDigit, Bool.and_eq_true, decide_eq_true_eq] at hdigit
  exact CodePoint.isDigit_iff.2 hdigit

private theorem head?_toDigits {n : Nat} (h : n ≠ 0) : ∃ d ∈ (Nat.toDigits 10 n).head?, d ≠ '0' := by
  induction n using Nat.strongRecOn with
  | ind n ih =>
    by_cases hlt : n < 10
    · rw [Nat.toDigits_of_lt_base hlt]
      refine ⟨n.digitChar, rfl, ?_⟩
      have hn : n = 1 ∨ n = 2 ∨ n = 3 ∨ n = 4 ∨ n = 5 ∨ n = 6 ∨ n = 7 ∨ n = 8 ∨ n = 9 := by omega
      rcases hn with rfl | rfl | rfl | rfl | rfl | rfl | rfl | rfl | rfl <;> decide
    · rw [Nat.toDigits_of_base_le (by decide) (by omega)]
      obtain ⟨d, hd, hne⟩ := ih (n / 10) (by omega) (by omega)
      exact ⟨d, by rw [List.head?_append, Option.mem_def.1 hd]; rfl, hne⟩

/-- The text of a positive number does not begin with a zero. -/
theorem head_ofNat {n : Nat} (h : n ≠ 0) : ∃ c t, ofNat n = c :: t ∧ c.val ≠ 0x30 := by
  obtain ⟨d, hd, hne⟩ := head?_toDigits h
  obtain ⟨t, ht⟩ := List.head?_eq_some_iff.1 hd
  refine ⟨CodePoint.ofChar d, t.map CodePoint.ofChar, by rw [ofNat, ht]; rfl, fun hval => hne ?_⟩
  exact Char.toNat_inj.1 hval

/-- The text of a number names it. -/
theorem decimalValue_ofNat (n : Nat) : decimalValue (ofNat n) = n := by
  have h := Nat.ofDigitChars_ten_toDigits (n := n)
  rw [Nat.ofDigitChars_eq_foldl] at h
  rw [decimalValue, ofNat, List.foldl_map]
  exact h

/-! ### The size of a number -/

theorem decimalValue_append_singleton (t : Text) (c : CodePoint) :
    decimalValue (t ++ [c]) = 10 * decimalValue t + (c.val - 0x30) := by
  simp [decimalValue]

/-- So many digits name a number below this power of ten. -/
theorem decimalValue_lt {t : Text} (h : ∀ c ∈ t, c.isDigit = true) : decimalValue t < 10 ^ t.length := by
  induction t using List.reverseRecOn with
  | nil => decide
  | append_singleton t c ih =>
    have hc := CodePoint.isDigit_iff.1 (h c (by simp))
    have ht := ih fun d hd => h d (List.mem_append_left _ hd)
    rw [decimalValue_append_singleton, List.length_append, List.length_singleton, Nat.pow_succ]
    omega

/-- A smaller number has no more digits. -/
theorem length_ofNat_le {m n digits : Nat} (h : m ≤ n) (hn : (ofNat n).length ≤ digits) :
    (ofNat m).length ≤ digits := by
  have hpos : 0 < digits := Nat.lt_of_lt_of_le (List.length_pos_iff.2 (ofNat_ne_nil n)) hn
  rw [ofNat, List.length_map, Nat.length_toDigits_le_iff (by decide) hpos] at hn ⊢
  exact Nat.lt_of_le_of_lt h hn

end Text

end WireCodec
