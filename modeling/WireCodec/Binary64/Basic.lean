import WireCodec.Numeral

/-!
# Binary floating-point numbers

The numbers of the 64-bit binary format: finite ones `± mantissa · 2 ^ exponent`, two infinities and one
not-a-number.  Each finite number has one canonical pair of mantissa and exponent, so equal data are equal
values, except that zero has two signs.  `Binary64.ofRatio` rounds a quotient to the nearest number, ties to
the even mantissa, and `Binary64.ofDecimal` reads a decimal number with it.
-/

namespace WireCodec

/-- A canonical pair: the mantissa has 53 bits, or fewer at the least exponent. -/
def IsCanonical (mantissa : Nat) (exponent : Int) : Prop :=
  mantissa < 0x20000000000000 ∧ -1074 ≤ exponent ∧ exponent ≤ 971 ∧
    (0x10000000000000 ≤ mantissa ∨ exponent = -1074)

instance (mantissa : Nat) (exponent : Int) : Decidable (IsCanonical mantissa exponent) :=
  inferInstanceAs (Decidable (_ ∧ _ ∧ _ ∧ _))

/-- A number of the 64-bit binary floating-point format. -/
inductive Binary64
  | finite (negative : Bool) (mantissa : Nat) (exponent : Int) (canonical : IsCanonical mantissa exponent)
  | infinite (negative : Bool)
  | nan
  deriving DecidableEq

namespace Binary64

/-- Zero, of either sign. -/
def zero (negative : Bool) : Binary64 := .finite negative 0 (-1074) (by decide)

/-- Neither an infinity nor not-a-number. -/
def IsFinite : Binary64 → Prop
  | .finite .. => True
  | _ => False

instance : DecidablePred IsFinite
  | .finite .. => isTrue trivial
  | .infinite _ => isFalse id
  | .nan => isFalse id

/-! ### Rounding -/

/-- The natural number nearest to a quotient; of two that are equally near, the even one. -/
def roundHalfEven (num den : Nat) : Nat :=
  if 2 * (num % den) < den then num / den
  else if den < 2 * (num % den) then num / den + 1
  else if num / den % 2 = 0 then num / den
  else num / den + 1

/-- The quotient of two numbers divided by a power of a base, as a quotient. -/
def scale (base num den : Nat) (exponent : Int) : Nat × Nat :=
  if 0 ≤ exponent then (num, den * Nat.pow base exponent.toNat) else (num * Nat.pow base (-exponent).toNat, den)

/-- Whether a quotient is at least a power of a base. -/
def reaches (base num den : Nat) (exponent : Int) : Bool :=
  (scale base num den exponent).2 ≤ (scale base num den exponent).1

/-- The exponent of the greatest power of two that is not above a positive quotient. -/
def floorLog2 (num den : Nat) : Int :=
  let estimate : Int := Nat.log2 num - Nat.log2 den
  if reaches 2 num den estimate then estimate else estimate - 1

/-- The number with a mantissa and an exponent that are canonical but for a carry into the 54th bit; an
infinity if the exponent is too large. -/
def assemble (negative : Bool) (mantissa : Nat) (exponent : Int) : Binary64 :=
  if mantissa = 0x20000000000000 then
    if h : IsCanonical 0x10000000000000 (exponent + 1) then .finite negative _ _ h else .infinite negative
  else if h : IsCanonical mantissa exponent then .finite negative mantissa exponent h
  else .infinite negative

/-- The number nearest to a quotient; of two that are equally near, the one with the even mantissa. -/
def ofRatio (negative : Bool) (num den : Nat) : Binary64 :=
  if num = 0 then zero negative
  else
    let exponent := max (-1074) (floorLog2 num den - 52)
    let (n, d) := scale 2 num den exponent
    assemble negative (roundHalfEven n d) exponent

/-- The number nearest to a decimal number.  Above `10 ^ 400` this is an infinity, and below half of the least
positive number it is zero, without the powers of ten being computed. -/
def ofDecimal (d : Decimal) : Binary64 :=
  if d.digits = 0 then zero d.negative
  else if 400 < d.exponent then .infinite d.negative
  else if Nat.log2 d.digits + 1 + 3 * d.exponent < -1075 then zero d.negative
  else
    let (num, den) := scale 10 d.digits 1 (-d.exponent)
    ofRatio d.negative num den

/-! ### Comparing -/

/-- Numerical equality: the zeros are equal, and not-a-number equals nothing. -/
def same : Binary64 → Binary64 → Bool
  | .finite s m e _, .finite s' m' e' _ => m == m' && ((m == 0) || (s == s' && e == e'))
  | .infinite s, .infinite s' => s == s'
  | _, _ => false

/-- Numerical equality with an integer, without rounding the integer. -/
def sameInt : Binary64 → Int → Bool
  | .finite negative mantissa exponent _, i =>
    let (num, den) := scale 2 i.natAbs 1 exponent
    num == mantissa * den && (mantissa == 0 || negative == decide (i < 0))
  | _, _ => false

end Binary64

end WireCodec
