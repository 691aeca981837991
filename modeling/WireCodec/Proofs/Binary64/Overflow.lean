import Mathlib.Tactic.Ring
import WireCodec.Proofs.Binary64.Rounding

/-!
# Overflow

A decimal number is rounded to a finite number exactly if it is less than halfway from the greatest finite number to the
next power of two (`isFinite_ofDecimal_iff`).  Every greater one becomes an infinity, and none becomes
not-a-number.
-/

namespace WireCodec

/-- The absolute value of a decimal number. -/
def Decimal.magnitude (d : Decimal) : ℚ := d.digits * 10 ^ d.exponent

namespace Binary64

/-- The least positive number that is not rounded to a finite one: halfway from `(2 ^ 53 - 1) * 2 ^ 971` to
`2 ^ 1024`. -/
def overflow : ℚ := (2 ^ 54 - 1) * 2 ^ 970

/-! ### Rounding to a natural number -/

private theorem two_mul_div {n d : Nat} (hd : 0 < d) :
    2 * n / d = if 2 * (n % d) < d then 2 * (n / d) else 2 * (n / d) + 1 := by
  have hmod : n % d < d := Nat.mod_lt n hd
  have hsplit : 2 * n = 2 * (n % d) + d * (2 * (n / d)) := by
    calc 2 * n = 2 * (n % d + d * (n / d)) := by rw [Nat.mod_add_div]
      _ = 2 * (n % d) + d * (2 * (n / d)) := by rw [Nat.mul_add, Nat.mul_left_comm]
  rw [hsplit, Nat.add_mul_div_left _ _ hd]
  split
  · next h => rw [Nat.div_eq_of_lt h, Nat.zero_add]
  · next h =>
    have hone : 2 * (n % d) / d = 1 := Nat.div_eq_of_lt_le (by omega) (by omega)
    omega

/-- A quotient is rounded below an even number if it is less than this number by more than a half. -/
theorem roundHalfEven_lt_iff {n d m : Nat} (hd : 0 < d) (hm : m % 2 = 0) :
    roundHalfEven n d < m ↔ 2 * n < (2 * m - 1) * d := by
  rw [← Nat.div_lt_iff_lt_mul hd, two_mul_div hd]
  unfold roundHalfEven
  split_ifs <;> omega

theorem div_le_roundHalfEven (n d : Nat) : n / d ≤ roundHalfEven n d ∧ roundHalfEven n d ≤ n / d + 1 := by
  unfold roundHalfEven
  split_ifs <;> omega

/-! ### Quotients -/

/-- The number that is put together is finite if its exponent is small enough, also after a carry. -/
private theorem isFinite_assemble {m : Nat} {e : Int} (hm : m ≤ 0x20000000000000) (he : -1074 ≤ e)
    (hnormal : 0x10000000000000 ≤ m ∨ e = -1074) (negative : Bool) :
    (assemble negative m e).IsFinite ↔ e ≤ 970 ∨ (e = 971 ∧ m < 0x20000000000000) := by
  unfold assemble
  split_ifs with hcarry hcanonical hcanonical <;> unfold IsCanonical at hcanonical
  · exact iff_of_true trivial (by omega)
  · exact iff_of_false id (by omega)
  · exact iff_of_true trivial (by omega)
  · exact iff_of_false id (by omega)

private theorem overflow_eq : overflow = (2 ^ 54 - 1) * 2 ^ (970 : Int) := by
  rw [overflow, show (970 : Int) = ((970 : Nat) : Int) from rfl, zpow_natCast]

private theorem overflow_bounds : (2 : ℚ) ^ (1023 : Int) < overflow ∧ overflow < 2 ^ (1024 : Int) := by
  have hpow : (0 : ℚ) < 2 ^ (970 : Int) := by positivity
  have hlower : (2 : ℚ) ^ (1023 : Int) = 2 ^ (53 : Int) * 2 ^ (970 : Int) := (zpow_add₀ two_ne_zero 53 970)
  have hupper : (2 : ℚ) ^ (1024 : Int) = 2 ^ (54 : Int) * 2 ^ (970 : Int) := (zpow_add₀ two_ne_zero 54 970)
  rw [overflow_eq, hlower, hupper]
  constructor
  · exact mul_lt_mul_of_pos_right (by norm_num) hpow
  · exact mul_lt_mul_of_pos_right (by norm_num) hpow

section Scaled

variable {n d : Nat} {q : ℚ} {l e : Int}

/-- The quotient that is rounded has 53 bits, or fewer at the least exponent. -/
private theorem mantissa_bounds (hd : 0 < d) (hq : (n : ℚ) / d = q / 2 ^ e) (hl : (2 : ℚ) ^ l ≤ q)
    (hu : q < 2 ^ (l + 1)) (he : e = max (-1074) (l - 52)) :
    roundHalfEven n d ≤ 0x20000000000000 ∧ (0x10000000000000 ≤ roundHalfEven n d ∨ e = -1074) := by
  have hpow : (0 : ℚ) < 2 ^ e := by positivity
  have hd' : (0 : ℚ) < d := by exact_mod_cast hd
  obtain ⟨hdiv, hdiv'⟩ := div_le_roundHalfEven n d
  constructor
  · have hlt : (n : ℚ) / d < 2 ^ (53 : Int) := by
      rw [hq, div_lt_iff₀ hpow, ← zpow_add₀ two_ne_zero]
      exact lt_of_lt_of_le hu (zpow_le_zpow_right₀ one_le_two (by omega))
    have hn : n < 2 ^ 53 * d := by
      rw [div_lt_iff₀ hd'] at hlt
      exact_mod_cast hlt
    have hfloor := (Nat.div_lt_iff_lt_mul hd).2 hn
    omega
  · by_cases hleast : e = -1074
    · exact .inr hleast
    · have hle : (2 : ℚ) ^ (52 : Int) ≤ (n : ℚ) / d := by
        rw [hq, le_div_iff₀ hpow, ← zpow_add₀ two_ne_zero, show 52 + e = l by omega]
        exact hl
      have hn : 2 ^ 52 * d ≤ n := by
        rw [le_div_iff₀ hd'] at hle
        exact_mod_cast hle
      have hfloor := (Nat.le_div_iff_mul_le hd).2 hn
      exact .inl (by omega)

/-- Only at the greatest exponent does the rounding decide. -/
private theorem lt_overflow_iff (hd : 0 < d) (hq : (n : ℚ) / d = q / 2 ^ e) (hl : (2 : ℚ) ^ l ≤ q)
    (hu : q < 2 ^ (l + 1)) (he : e = max (-1074) (l - 52)) :
    q < overflow ↔ e ≤ 970 ∨ (e = 971 ∧ roundHalfEven n d < 0x20000000000000) := by
  rcases Int.lt_trichotomy e 971 with hlt | rfl | hgt
  · refine iff_of_true ?_ (.inl (by omega))
    calc q < 2 ^ (l + 1) := hu
      _ ≤ 2 ^ (1023 : Int) := zpow_le_zpow_right₀ one_le_two (by omega)
      _ < overflow := overflow_bounds.1
  · have hd' : (0 : ℚ) < d := by exact_mod_cast hd
    have hround : roundHalfEven n d < 0x20000000000000 ↔ q < overflow := by
      have hhalf : overflow = (2 ^ 54 - 1) / 2 * 2 ^ (971 : Int) := by
        rw [overflow_eq, show (971 : Int) = 1 + 970 from rfl, zpow_add₀ two_ne_zero, zpow_one]
        ring
      have hcast : 2 * n < (2 * 0x20000000000000 - 1) * d ↔ (n : ℚ) / d < (2 ^ 54 - 1) / 2 := by
        rw [div_lt_div_iff₀ hd' two_pos, ← @Nat.cast_lt ℚ]
        push_cast
        norm_num [mul_comm]
      rw [roundHalfEven_lt_iff hd (by decide), hcast, hq, hhalf, div_lt_iff₀ (by positivity)]
    rw [hround]
    simp
  · refine iff_of_false (not_lt.2 ?_) (by omega)
    calc overflow ≤ 2 ^ (1024 : Int) := overflow_bounds.2.le
      _ ≤ 2 ^ l := zpow_le_zpow_right₀ one_le_two (by omega)
      _ ≤ q := hl

end Scaled

theorem isFinite_ofRatio_iff {num den : Nat} (hd : 0 < den) (negative : Bool) :
    (ofRatio negative num den).IsFinite ↔ (num : ℚ) / den < overflow := by
  by_cases hn : num = 0
  · rw [ofRatio, if_pos hn, hn, Nat.cast_zero, zero_div]
    exact iff_of_true trivial (lt_trans (by positivity) overflow_bounds.1)
  · obtain ⟨hl, hu⟩ := floorLog2_bounds (Nat.pos_of_ne_zero hn) hd
    have hscale := scale_div (show 0 < 2 by decide) num den (max (-1074) (floorLog2 num den - 52))
    have hsnd := scale_snd_pos (show 0 < 2 by decide) hd num (max (-1074) (floorLog2 num den - 52))
    rw [Nat.cast_ofNat] at hscale
    obtain ⟨hmax, hnormal⟩ := mantissa_bounds hsnd hscale hl hu rfl
    rw [lt_overflow_iff hsnd hscale hl hu rfl, ofRatio, if_neg hn]
    exact isFinite_assemble hmax (by omega) hnormal negative

/-! ### Decimal numbers -/

/-- A power of ten above the four hundredth is too large, whatever the digits. -/
private theorem overflow_le_magnitude {d : Decimal} (hdigits : d.digits ≠ 0) (h : 400 < d.exponent) :
    overflow ≤ d.magnitude := by
  have hone : (1 : ℚ) ≤ d.digits := by exact_mod_cast Nat.one_le_iff_ne_zero.2 hdigits
  calc overflow ≤ 2 ^ (1024 : Int) := overflow_bounds.2.le
    _ ≤ 2 ^ ((3 : Int) * 400) := zpow_le_zpow_right₀ one_le_two (by decide)
    _ = 8 ^ (400 : Int) := by rw [zpow_mul]; norm_num
    _ ≤ 10 ^ (400 : Int) := zpow_le_zpow_left₀ (by decide) (by norm_num) (by norm_num)
    _ ≤ 10 ^ d.exponent := zpow_le_zpow_right₀ (by norm_num) (by omega)
    _ ≤ d.digits * 10 ^ d.exponent := le_mul_of_one_le_left (by positivity) hone

/-- A number that is too small for the least exponent is far from overflow. -/
private theorem magnitude_lt_overflow {d : Decimal} (h : (Nat.log2 d.digits : Int) + 1 + 3 * d.exponent < -1075) :
    d.magnitude < overflow := by
  have hdigits : (d.digits : ℚ) < 2 ^ ((d.digits.log2 : Int) + 1) := by
    have hlt : d.digits < 2 ^ (d.digits.log2 + 1) := Nat.lt_log2_self
    rw [show ((d.digits.log2 : Int) + 1) = ((d.digits.log2 + 1 : Nat) : Int) by simp, zpow_natCast]
    exact_mod_cast hlt
  -- the exponent is negative, and a power of a tenth is at most that of an eighth
  have hpower : (10 : ℚ) ^ d.exponent ≤ 2 ^ (3 * d.exponent) := by
    obtain ⟨k, hk⟩ := Int.exists_eq_neg_ofNat (show d.exponent ≤ 0 by omega)
    rw [hk, zpow_mul, zpow_neg, zpow_neg, zpow_natCast, zpow_natCast]
    exact inv_anti₀ (by positivity) (pow_le_pow_left₀ (by positivity) (by norm_num) k)
  calc (d.digits : ℚ) * 10 ^ d.exponent ≤ d.digits * 2 ^ (3 * d.exponent) :=
        mul_le_mul_of_nonneg_left hpower (by positivity)
    _ < 2 ^ ((d.digits.log2 : Int) + 1) * 2 ^ (3 * d.exponent) := mul_lt_mul_of_pos_right hdigits (by positivity)
    _ = 2 ^ ((d.digits.log2 : Int) + 1 + 3 * d.exponent) := (zpow_add₀ two_ne_zero _ _).symm
    _ ≤ 2 ^ (1023 : Int) := zpow_le_zpow_right₀ one_le_two (by omega)
    _ < overflow := overflow_bounds.1

/-- A decimal number is rounded to a finite number exactly if it is below the least number that is not. -/
theorem isFinite_ofDecimal_iff (d : Decimal) : (ofDecimal d).IsFinite ↔ d.magnitude < overflow := by
  have hpos : 0 < overflow := lt_trans (by positivity) overflow_bounds.1
  unfold ofDecimal
  split_ifs with hdigits hlarge hsmall
  · rw [Decimal.magnitude, hdigits, Nat.cast_zero, zero_mul]
    exact iff_of_true trivial hpos
  · exact iff_of_false id (not_lt.2 (overflow_le_magnitude hdigits hlarge))
  · exact iff_of_true trivial (magnitude_lt_overflow hsmall)
  · have hscale := scale_div (show 0 < 10 by decide) d.digits 1 (-d.exponent)
    have hsnd := scale_snd_pos (show 0 < 10 by decide) (show 0 < 1 by decide) d.digits (-d.exponent)
    rw [Nat.cast_one, div_one, Nat.cast_ofNat, zpow_neg, div_inv_eq_mul] at hscale
    rw [Decimal.magnitude, ← hscale]
    exact isFinite_ofRatio_iff hsnd d.negative

/-- What is not rounded to a finite number becomes an infinity of the same sign. -/
theorem ofDecimal_of_overflow_le {d : Decimal} (h : overflow ≤ d.magnitude) : ofDecimal d = .infinite d.negative := by
  have hfinite : ¬(ofDecimal d).IsFinite := mt (isFinite_ofDecimal_iff d).1 (not_lt.2 h)
  unfold ofDecimal ofRatio assemble zero at *
  dsimp only at *
  split_ifs at hfinite ⊢ <;> first | rfl | exact absurd trivial hfinite

theorem ofDecimal_ne_nan (d : Decimal) : ofDecimal d ≠ .nan := by
  unfold ofDecimal ofRatio assemble zero
  dsimp only
  split_ifs <;> simp

end Binary64

end WireCodec
