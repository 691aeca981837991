import WireCodec.Text.CodePoint

/-!
# Digits

Decimal and hexadecimal texts of numbers, and the values of digits.  Decimal texts have no leading zeros;
hexadecimal texts are lower-case and have a fixed width.  An integer is read from at most `maxIntegerDigits` digits,
wherever it is read.
-/

namespace WireCodec

namespace CodePoint

/-- The value of an ASCII decimal digit. -/
def decimal? (c : CodePoint) : Option Nat :=
  if 0x30 ≤ c.val ∧ c.val ≤ 0x39 then some (c.val - 0x30) else none

/-- Whether a code point is one of `0 … 9`. -/
def isDigit (c : CodePoint) : Bool := 0x30 ≤ c.val && c.val ≤ 0x39

/-- The value of an ASCII hexadecimal digit in either case. -/
def hex? (c : CodePoint) : Option Nat :=
  if 0x30 ≤ c.val ∧ c.val ≤ 0x39 then some (c.val - 0x30)
  else if 0x61 ≤ c.val ∧ c.val ≤ 0x66 then some (c.val - 0x57)
  else if 0x41 ≤ c.val ∧ c.val ≤ 0x46 then some (c.val - 0x37)
  else none

/-- The lower-case hexadecimal digit of the last four bits of a number. -/
def hexDigit (n : Nat) : CodePoint :=
  if n % 16 < 10 then ⟨0x30 + n % 16, by omega⟩ else ⟨0x57 + n % 16, by omega⟩

end CodePoint

namespace Text

/-- The number of digits from which an integer is read at most. -/
def maxIntegerDigits : Nat := 4300

/-- The decimal text of a natural number. -/
def ofNat (n : Nat) : Text := (Nat.toDigits 10 n).map CodePoint.ofChar

/-- The decimal text of an integer, with a minus sign in front of a negative one. -/
def ofInt : Int → Text
  | .ofNat n => ofNat n
  | .negSucc n => ofString "-" ++ ofNat (n + 1)

/-- The number that a text of decimal digits names. -/
def decimalValue (t : Text) : Nat := t.foldl (fun n c => 10 * n + (c.val - 0x30)) 0

/-- The last `width` hexadecimal digits of a number. -/
def hex : (width : Nat) → Nat → Text
  | 0, _ => []
  | width + 1, n => hex width (n / 16) ++ [CodePoint.hexDigit n]

end Text

end WireCodec
