import WireCodec.Text.Digits

/-!
# Numerals

A numeral is a number in decimal writing: an optional minus sign, a whole part without leading zeros, an
optional fraction and an optional power of ten.  `Numeral.scan?` takes the longest numeral at the start of a
text, and `Numeral.toText` writes one.
-/

namespace WireCodec

/-- A number in decimal writing, by its digits. -/
structure Numeral where
  negative : Bool
  /-- The digits before the point. -/
  whole : Text
  /-- The digits after the point; there is no point if there are none. -/
  fraction : Text
  /-- The sign and the digits of the power of ten. -/
  exponent : Option (Bool × Text)
  deriving DecidableEq

/-- A decimal number `± digits · 10 ^ exponent`. -/
structure Decimal where
  negative : Bool
  digits : Nat
  exponent : Int
  deriving DecidableEq

namespace Numeral

/-- A numeral without fraction and power of ten writes an integer. -/
def isInteger (n : Numeral) : Bool :=
  match n.fraction, n.exponent with
  | [], none => true
  | _, _ => false

theorem isInteger_of_fraction_ne_nil {n : Numeral} (h : n.fraction ≠ []) : n.isInteger = false := by
  unfold isInteger
  split
  · next hempty _ => exact absurd hempty h
  · rfl

/-! ### Taking a numeral from a text -/

/-- The decimal digits at the start of a text, and what follows them. -/
def scanDigits (t : Text) : Text × Text := (t.takeWhile CodePoint.isDigit, t.dropWhile CodePoint.isDigit)

/-- A minus sign, if the text starts with one, and what follows it. -/
def scanMinus : Text → Bool × Text
  | c :: rest => if c.val = 0x2D then (true, rest) else (false, c :: rest)
  | [] => (false, [])

/-- The whole part: a zero alone, or digits of which the first is no zero. -/
def scanWhole? : Text → Option (Text × Text)
  | c :: rest =>
    if c.val = 0x30 then some ([c], rest)
    else if c.isDigit then some (scanDigits (c :: rest))
    else none
  | [] => none

/-- The fraction: a point with at least one digit after it. -/
def scanFraction : Text → Text × Text
  | c :: rest =>
    if c.val = 0x2E ∧ (scanDigits rest).1 ≠ [] then scanDigits rest else ([], c :: rest)
  | [] => ([], [])

/-- The sign of a power of ten. -/
def scanSign : Text → Bool × Text
  | c :: rest =>
    if c.val = 0x2D then (true, rest)
    else if c.val = 0x2B then (false, rest)
    else (false, c :: rest)
  | [] => (false, [])

/-- The power of ten: the letter `e` in either case, an optional sign and at least one digit. -/
def scanExponent : Text → Option (Bool × Text) × Text
  | c :: rest =>
    let (negative, afterSign) := scanSign rest
    let (digits, after) := scanDigits afterSign
    if (c.val = 0x65 ∨ c.val = 0x45) ∧ digits ≠ [] then (some (negative, digits), after) else (none, c :: rest)
  | [] => (none, [])

/-- The longest numeral at the start of a text, and what follows it. -/
def scan? (t : Text) : Option (Numeral × Text) :=
  let (negative, t) := scanMinus t
  (scanWhole? t).map fun (whole, t) =>
    let (fraction, t) := scanFraction t
    let (exponent, t) := scanExponent t
    (⟨negative, whole, fraction, exponent⟩, t)

/-! ### The number and the writing of a numeral -/

/-- The integer that a numeral without fraction and power of ten writes. -/
def toInt (n : Numeral) : Int :=
  let value : Int := Text.decimalValue n.whole
  if n.negative then -value else value

/-- The number that a numeral writes. -/
def toDecimal (n : Numeral) : Decimal :=
  let power : Int := match n.exponent with
    | none => 0
    | some (negative, digits) =>
      let value : Int := Text.decimalValue digits
      if negative then -value else value
  ⟨n.negative, Text.decimalValue (n.whole ++ n.fraction), power - n.fraction.length⟩

/-- The text of a numeral.  A power of ten always has its sign. -/
def toText (n : Numeral) : Text :=
  (if n.negative then Text.ofString "-" else []) ++ n.whole ++
    (if n.fraction = [] then [] else Text.ofString "." ++ n.fraction) ++
    match n.exponent with
    | none => []
    | some (negative, digits) => Text.ofString (if negative then "e-" else "e+") ++ digits

end Numeral

end WireCodec
