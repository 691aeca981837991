import Mathlib.Algebra.Order.Field.Power
import Mathlib.Data.Rat.Cast.Order
import Mathlib.Tactic.FieldSimp
import Mathlib.Tactic.Linarith
import Mathlib.Tactic.Positivity
import WireCodec.Binary64.Notation

/-!
# Rounding to binary numbers

`scale`, `reaches` and `floorLog2` compute with quotients of natural numbers; here they are read as rational
numbers.  A quotient that is the value of a binary number is rounded to that number (`ofRatio_eq_finite`), and so
is a decimal number (`ofDecimal_exactly`).
-/

namespace WireCodec.Binary64

/-! ### Quotients as rational numbers -/

/-- A scaled quotient is the quotient divided by the power of the base. -/
theorem scale_div {base : Nat} (hb : 0 < base) (num den : Nat) (e : Int) :
    ((scale base num den e).1 : ℚ) / (scale base num den e).2 = (num : ℚ) / den / (base : ℚ) ^ e := by
  have hb' : (base : ℚ) ≠ 0 := by positivity
  unfold scale
  split
  · rename_i he
    obtain ⟨n, rfl⟩ := Int.eq_ofNat_of_zero_le he
    rw [Int.toNat_natCast, Nat.pow_eq, Nat.cast_mul, Nat.cast_pow, zpow_natCast, div_div]
  · obtain ⟨n, hn⟩ := Int.exists_eq_neg_ofNat (show e ≤ 0 by omega)
    subst hn
    rw [neg_neg, Int.toNat_natCast, Nat.pow_eq, Nat.cast_mul, Nat.cast_pow, zpow_neg, zpow_natCast, div_inv_eq_mul,
      mul_div_right_comm]

theorem scale_snd_pos {base den : Nat} (hb : 0 < base) (hd : 0 < den) (num : Nat) (e : Int) :
    0 < (scale base num den e).2 := by
  unfold scale
  split
  · exact Nat.mul_pos hd (Nat.pow_pos hb)
  · exact hd

/-- A quotient reaches a power of the base if it is at least that. -/
theorem reaches_iff {base den : Nat} (hb : 0 < base) (hd : 0 < den) (num : Nat) (e : Int) :
    reaches base num den e = true ↔ (base : ℚ) ^ e ≤ (num : ℚ) / den := by
  have hpow : (0 : ℚ) < (base : ℚ) ^ e := zpow_pos (by positivity) e
  have hsnd : (0 : ℚ) < (scale base num den e).2 := by exact_mod_cast scale_snd_pos hb hd num e
  rw [reaches, decide_eq_true_eq, ← one_le_div₀ hpow, ← scale_div hb num den, one_le_div₀ hsnd, Nat.cast_le]

private theorem log2_bounds {n : Nat} (h : 0 < n) :
    (2 : ℚ) ^ (n.log2 : Int) ≤ n ∧ (n : ℚ) < 2 ^ ((n.log2 : Int) + 1) := by
  constructor
  · rw [zpow_natCast]
    exact_mod_cast Nat.log2_self_le (Nat.ne_of_gt h)
  · have hlt : n < 2 ^ (n.log2 + 1) := Nat.lt_log2_self
    rw [show ((n.log2 : Int) + 1) = ((n.log2 + 1 : Nat) : Int) by simp, zpow_natCast]
    exact_mod_cast hlt

/-- The power of two below a positive quotient, and the next one above it. -/
theorem floorLog2_bounds {num den : Nat} (hn : 0 < num) (hd : 0 < den) :
    (2 : ℚ) ^ floorLog2 num den ≤ (num : ℚ) / den ∧ (num : ℚ) / den < 2 ^ (floorLog2 num den + 1) := by
  have hden : (0 : ℚ) < den := by exact_mod_cast hd
  obtain ⟨hnl, hnu⟩ := log2_bounds hn
  obtain ⟨hdl, hdu⟩ := log2_bounds hd
  have hupper : (num : ℚ) / den < 2 ^ ((num.log2 : Int) - den.log2 + 1) := by
    rw [div_lt_iff₀ hden]
    calc (num : ℚ) < 2 ^ ((num.log2 : Int) + 1) := hnu
      _ = 2 ^ ((num.log2 : Int) - den.log2 + 1) * 2 ^ (den.log2 : Int) := by
        rw [← zpow_add₀ two_ne_zero]; congr 1; omega
      _ ≤ 2 ^ ((num.log2 : Int) - den.log2 + 1) * den := by
        exact mul_le_mul_of_nonneg_left hdl (by positivity)
  have hlower : (2 : ℚ) ^ ((num.log2 : Int) - den.log2 - 1) ≤ (num : ℚ) / den := by
    rw [le_div_iff₀ hden]
    calc (2 : ℚ) ^ ((num.log2 : Int) - den.log2 - 1) * den
        ≤ 2 ^ ((num.log2 : Int) - den.log2 - 1) * 2 ^ ((den.log2 : Int) + 1) := by
          exact mul_le_mul_of_nonneg_left hdu.le (by positivity)
      _ = 2 ^ (num.log2 : Int) := by rw [← zpow_add₀ two_ne_zero]; congr 1; omega
      _ ≤ num := hnl
  have hreach := reaches_iff (show 0 < 2 by decide) hd num ((num.log2 : Int) - den.log2)
  unfold floorLog2
  dsimp only
  split
  · rename_i h
    exact ⟨by exact_mod_cast hreach.1 h, hupper⟩
  · rename_i h
    rw [Int.sub_add_cancel]
    refine ⟨hlower, ?_⟩
    have := mt hreach.2 h
    push_cast at this
    exact lt_of_not_ge this

/-! ### Exact quotients -/

/-- A quotient without remainder is not rounded. -/
theorem roundHalfEven_of_eq_mul {n m d : Nat} (hd : 0 < d) (h : n = m * d) : roundHalfEven n d = m := by
  subst h
  rw [roundHalfEven, Nat.mul_mod_left, Nat.mul_div_cancel _ hd, if_pos (by omega)]

/-- The exponent of a canonical pair is the one that is chosen for the quotient of its value. -/
private theorem exponent_eq {m : Nat} {e : Int} (h : IsCanonical m e) {q : ℚ} (hq : q = m * 2 ^ e) {l : Int}
    (hl : (2 : ℚ) ^ l ≤ q) (hu : q < 2 ^ (l + 1)) : max (-1074) (l - 52) = e := by
  obtain ⟨hm, he, -, hnormal⟩ := h
  have hpow : (0 : ℚ) < 2 ^ e := by positivity
  -- the significand has at most 53 bits, which bounds the logarithm from above
  have hlt : l < 53 + e := by
    have : (2 : ℚ) ^ l < 2 ^ (53 + e) := by
      calc (2 : ℚ) ^ l ≤ m * 2 ^ e := hq ▸ hl
        _ < 2 ^ (53 : Int) * 2 ^ e := by
          apply mul_lt_mul_of_pos_right _ hpow
          exact_mod_cast hm
        _ = 2 ^ (53 + e) := (zpow_add₀ two_ne_zero _ _).symm
    exact (zpow_lt_zpow_iff_right₀ one_lt_two).1 this
  rcases hnormal with hnormal | rfl
  · -- and exactly 53 if the number is not subnormal, which bounds it from below
    have : (2 : ℚ) ^ (52 + e) < 2 ^ (l + 1) := by
      calc (2 : ℚ) ^ (52 + e) = 2 ^ (52 : Int) * 2 ^ e := zpow_add₀ two_ne_zero _ _
        _ ≤ m * 2 ^ e := by
          apply mul_le_mul_of_nonneg_right _ hpow.le
          exact_mod_cast hnormal
        _ < 2 ^ (l + 1) := hq ▸ hu
    have := (zpow_lt_zpow_iff_right₀ (one_lt_two : (1 : ℚ) < 2)).1 this
    omega
  · omega

/-- A quotient that is the value of a number is rounded to that number. -/
theorem ofRatio_eq_finite {m : Nat} {e : Int} (h : IsCanonical m e) (hm : m ≠ 0) {num den : Nat} (hd : 0 < den)
    (hq : (num : ℚ) / den = m * 2 ^ e) (negative : Bool) : ofRatio negative num den = .finite negative m e h := by
  have hden : (0 : ℚ) < den := by exact_mod_cast hd
  have hpos : (0 : ℚ) < m * 2 ^ e := by
    have : (0 : ℚ) < m := by exact_mod_cast Nat.pos_of_ne_zero hm
    positivity
  have hn : num ≠ 0 := by
    rintro rfl
    rw [Nat.cast_zero, zero_div] at hq
    exact absurd hq (ne_of_lt hpos)
  obtain ⟨hl, hu⟩ := floorLog2_bounds (Nat.pos_of_ne_zero hn) hd
  have hexp := exponent_eq h hq hl hu
  have hscale := scale_div (show 0 < 2 by decide) num den e
  have hsnd := scale_snd_pos (show 0 < 2 by decide) hd num e
  have hexact : (scale 2 num den e).1 = m * (scale 2 num den e).2 := by
    have hsnd' : ((scale 2 num den e).2 : ℚ) ≠ 0 := by exact_mod_cast Nat.ne_of_gt hsnd
    rw [hq, Nat.cast_ofNat, mul_div_assoc, div_self (by positivity), mul_one, div_eq_iff hsnd'] at hscale
    exact_mod_cast hscale
  rw [ofRatio, if_neg hn]
  dsimp only
  rw [hexp, roundHalfEven_of_eq_mul hsnd hexact, assemble, if_neg (Nat.ne_of_lt h.1), dif_pos h]

/-! ### Decimal numbers -/

private theorem log2_mul_pow_five {m : Nat} (hm : m ≠ 0) (k : Nat) : 2 * k ≤ Nat.log2 (m * 5 ^ k) := by
  rw [Nat.le_log2 (by positivity)]
  calc 2 ^ (2 * k) = 4 ^ k := by rw [Nat.pow_mul]
    _ ≤ 5 ^ k := Nat.pow_le_pow_left (by decide) k
    _ ≤ m * 5 ^ k := Nat.le_mul_of_pos_left _ (Nat.pos_of_ne_zero hm)

private theorem ofDecimal_of_div {d : Decimal} (hdigits : d.digits ≠ 0) (hlarge : d.exponent ≤ 400)
    (hsmall : -1075 ≤ (Nat.log2 d.digits : Int) + 1 + 3 * d.exponent) {m : Nat} {e : Int} (h : IsCanonical m e)
    (hm : m ≠ 0) (hq : (d.digits : ℚ) * 10 ^ d.exponent = m * 2 ^ e) :
    ofDecimal d = .finite d.negative m e h := by
  have hscale := scale_div (show 0 < 10 by decide) d.digits 1 (-d.exponent)
  have hsnd := scale_snd_pos (show 0 < 10 by decide) (show 0 < 1 by decide) d.digits (-d.exponent)
  rw [Nat.cast_one, div_one, Nat.cast_ofNat, zpow_neg, div_inv_eq_mul, hq] at hscale
  rw [ofDecimal, if_neg hdigits, if_neg (by omega), if_neg (by omega)]
  exact ofRatio_eq_finite h hm hsnd hscale d.negative

/-- The exact decimal value of a finite number is read as that number. -/
theorem ofDecimal_exactly {m : Nat} {e : Int} (h : IsCanonical m e) (hm : m ≠ 0) (negative : Bool) :
    ofDecimal (exactly negative m e) = .finite negative m e h := by
  have he := h.2.1
  unfold exactly
  split
  · rename_i hpos
    obtain ⟨n, rfl⟩ := Int.eq_ofNat_of_zero_le hpos
    apply ofDecimal_of_div (d := ⟨negative, _, 0⟩) _ (show (0 : Int) ≤ 400 by decide) _ h hm
    · rw [Int.toNat_natCast, Nat.pow_eq, Nat.cast_mul, Nat.cast_pow, Nat.cast_ofNat, zpow_zero, mul_one, zpow_natCast]
    · rw [Int.toNat_natCast, Nat.pow_eq]
      positivity
    · dsimp only
      omega
  · -- `m / 2 ^ k` is written as `m * 5 ^ k / 10 ^ k`
    obtain ⟨k, rfl⟩ := Int.exists_eq_neg_ofNat (show e ≤ 0 by omega)
    have hlog := log2_mul_pow_five hm k
    apply ofDecimal_of_div (d := ⟨negative, _, -(k : Int)⟩) _ _ _ h hm
    · rw [neg_neg, Int.toNat_natCast, Nat.pow_eq, Nat.cast_mul, Nat.cast_pow, Nat.cast_ofNat, zpow_neg, zpow_neg,
        zpow_natCast, zpow_natCast, mul_assoc, ← div_eq_mul_inv, ← div_pow,
        show (5 : ℚ) / 10 = 2⁻¹ by norm_num, inv_pow]
    · rw [neg_neg, Int.toNat_natCast, Nat.pow_eq]
      positivity
    · dsimp only
      omega
    · rw [neg_neg, Int.toNat_natCast, Nat.pow_eq]
      dsimp only
      omega

end WireCodec.Binary64
