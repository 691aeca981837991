import WireCodec.Text.Blank
import WireCodec.Text.DecimalDigit
import WireCodec.Text.Digits

/-!
# Integers as people write them

An integer may stand between blanks, have one sign, and be written in the decimal digits of any script, with
single underscores between digits and with leading zeros.  The control characters `U+001C … U+001F` are no
blanks here.  At most `maxIntegerDigits` digits are read, leading zeros included.
-/

namespace WireCodec.Text

/-- A blank that may stand around an integer. -/
def isIntegerBlank (c : CodePoint) : Bool := c.isAsciiBlank || (0x80 ≤ c.val && c.isBlank)

/-- The values of digits that follow a digit, each with at most one underscore before it. -/
def moreDigits? : Text → Option (List Nat)
  | [] => some []
  | c :: rest =>
    if c.val = 0x5F then
      match rest with
      | [] => none
      | d :: rest => do return (← d.decimalOfAnyScript?) :: (← moreDigits? rest)
    else do return (← c.decimalOfAnyScript?) :: (← moreDigits? rest)

/-- The values of one or more digits. -/
def digits? : Text → Option (List Nat)
  | [] => none
  | c :: rest => do return (← c.decimalOfAnyScript?) :: (← moreDigits? rest)

/-- The natural number of digits. -/
def natural? (t : Text) : Option Nat := do
  let digits ← digits? t
  if digits.length ≤ maxIntegerDigits then some (digits.foldl (fun n d => 10 * n + d) 0) else none

/-- The integer that a text writes. -/
def toInt? (t : Text) : Option Int :=
  let inner := ((t.dropWhile isIntegerBlank).reverse.dropWhile isIntegerBlank).reverse
  match inner with
  | [] => none
  | c :: rest =>
    if c.val = 0x2D then (natural? rest).map fun n => -(n : Int)
    else if c.val = 0x2B then (natural? rest).map Int.ofNat
    else (natural? inner).map Int.ofNat

end WireCodec.Text
