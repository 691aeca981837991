import WireCodec.Binary64.Basic

/-!
# Decimal writing of floating-point numbers

A finite number is written with the fewest significant digits, at most seventeen, from which the number can be
read back, and of the writings with so many digits with the nearest one; a tie goes to the even last digit.
`Layout` decides how the digits are set: with a point in place while the power of ten is small, otherwise with
an exponent.
-/

namespace WireCodec.Binary64

/-! ### Setting digits -/

/-- How digits are set: the powers of ten of the first digit that are written out, and the least number of
digits of an exponent. -/
structure Layout where
  /-- The least power of ten of the first digit that is written with zeros after the point. -/
  lowest : Int
  /-- The least power of ten of the first digit that is no longer written with zeros before the point. -/
  limit : Int
  /-- Exponents are filled with zeros up to this number of digits. -/
  exponentDigits : Nat

/-- Numbers from `0.0001` to below `1e+16` are written out, and exponents have at least two digits. -/
def layout : Layout := ⟨-4, 16, 2⟩

/-- A text of zeros. -/
def zeros (n : Nat) : Text := List.replicate n (.ofChar '0')

/-- The number of zeros at the end of a text of digits. -/
def trailingZeros (digits : Text) : Nat := (digits.reverse.takeWhile (·.val == 0x30)).length

/-- The numeral of a positive decimal number in a layout.  A writing without an exponent has at least one
digit on either side of the point. -/
def Layout.numeral (l : Layout) (d : Decimal) : Numeral :=
  let all := Text.ofNat d.digits
  let digits := all.take (all.length - trailingZeros all)
  let lead : Int := d.exponent + all.length - 1
  if l.lowest ≤ lead ∧ lead < l.limit then
    if lead < 0 then ⟨d.negative, zeros 1, zeros (-lead - 1).toNat ++ digits, none⟩
    else
      let before := lead.toNat + 1
      ⟨d.negative, digits.take before ++ zeros (before - digits.length),
        if digits.length ≤ before then zeros 1 else digits.drop before, none⟩
  else
    let power := Text.ofNat lead.natAbs
    ⟨d.negative, digits.take 1, digits.drop 1,
      some (decide (lead < 0), zeros (l.exponentDigits - power.length) ++ power)⟩

/-! ### Choosing digits -/

/-- The exponent of the greatest power of ten that is not above a positive quotient. -/
def floorLog10 (num den : Nat) : Int :=
  let estimate : Int := (((Nat.log2 num : Int) - Nat.log2 den) * 30103) / 100000
  if reaches 10 num den (estimate + 1) then estimate + 1
  else if reaches 10 num den estimate then estimate
  else estimate - 1

/-- The two decimal numbers with a number of digits next to a positive quotient, the nearer one first. -/
def neighbours (negative : Bool) (num den digits : Nat) : List Decimal :=
  let power : Int := floorLog10 num den - digits + 1
  let (n, d) := scale 10 num den power
  let below : Decimal := ⟨negative, n / d, power⟩
  let above : Decimal := ⟨negative, n / d + 1, power⟩
  if roundHalfEven n d = n / d then [below, above] else [above, below]

/-- The number that a numeral is read as. -/
def ofNumeral (n : Numeral) : Binary64 := ofDecimal n.toDecimal

/-- The magnitude of a finite number as a quotient. -/
def ratio (mantissa : Nat) (exponent : Int) : Nat × Nat := scale 2 mantissa 1 (-exponent)

/-- The exact value of a finite number: a binary fraction is a decimal one. -/
def exactly (negative : Bool) (mantissa : Nat) (exponent : Int) : Decimal :=
  if 0 ≤ exponent then ⟨negative, mantissa * Nat.pow 2 exponent.toNat, 0⟩
  else ⟨negative, mantissa * Nat.pow 5 (-exponent).toNat, exponent⟩

/-- The decimal numbers among which the writing of a number is chosen, in order of preference: fewer digits
first, nearer first. -/
def candidates (negative : Bool) (mantissa : Nat) (exponent : Int) : List Decimal :=
  let (num, den) := ratio mantissa exponent
  (List.range 17).flatMap fun n => neighbours negative num den (n + 1)

/-- All digits of a decimal number and its power of ten. -/
def inFull (d : Decimal) : Numeral :=
  ⟨d.negative, Text.ofNat d.digits, [], some (decide (d.exponent < 0), Text.ofNat d.exponent.natAbs)⟩

/-- The writing of a finite number other than zero: the first candidate that is read back as the number.
Seventeen digits are always enough; the exact value in full would stand in if they were not. -/
def shortest (x : Binary64) (negative : Bool) (mantissa : Nat) (exponent : Int) : Numeral :=
  (((candidates negative mantissa exponent).map layout.numeral).find? fun n => ofNumeral n = x).getD
    (inFull (exactly negative mantissa exponent))

/-- The text of a floating-point number. -/
def toText : Binary64 → Text
  | .finite negative mantissa exponent h =>
    if mantissa = 0 then Text.ofString (if negative then "-0.0" else "0.0")
    else (shortest (.finite negative mantissa exponent h) negative mantissa exponent).toText
  | .infinite negative => Text.ofString (if negative then "-inf" else "inf")
  | .nan => Text.ofString "nan"

/-- Reads the text of a floating-point number. -/
def ofText? (t : Text) : Option Binary64 :=
  if t = Text.ofString "nan" then some .nan
  else if t = Text.ofString "inf" then some (.infinite false)
  else if t = Text.ofString "-inf" then some (.infinite true)
  else match Numeral.scan? t with
    | some (n, []) => some (ofNumeral n)
    | _ => none

end WireCodec.Binary64
