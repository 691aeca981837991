import WireCodec.Text.Blank
import WireCodec.Text.Digits

/-!
# Bytes in hexadecimal

Bytes travel through text as pairs of hexadecimal digits.  `Hex.encode` writes lower-case digits without
blanks.  `Hex.decode` reads digits of either case and lets ASCII blanks stand between the pairs; a text that
is not of this form is refused with the position of the first code point at fault.
-/

namespace WireCodec.Hex

/-- The digits of bytes. -/
def encode (data : Bytes) : Text := data.flatMap fun b => Text.hex 2 b.toNat

/-- Reads pairs of digits, the first of them at the given position. -/
def decodeFrom : (position : Nat) → Text → Except Nat Bytes
  | _, [] => .ok []
  | position, c :: rest =>
    if c.isAsciiBlank then decodeFrom (position + 1) rest
    else
      match c.hex?, rest with
      | none, _ => .error position
      | some _, [] => .error (position + 1)
      | some high, d :: rest =>
        match d.hex? with
        | none => .error (position + 1)
        | some low => (decodeFrom (position + 2) rest).map (UInt8.ofNat (16 * high + low) :: ·)

/-- Reads bytes in hexadecimal.  A code point beyond ASCII anywhere is at fault before all others. -/
def decode (t : Text) : Except Nat Bytes :=
  match t.findIdx? (0x80 ≤ ·.val) with
  | some position => .error position
  | none => decodeFrom 0 t

/-- The wording of a refusal. -/
def refusal (position : Nat) : Text :=
  Text.ofString "non-hexadecimal number found in fromhex() arg at position " ++ Text.ofNat position

end WireCodec.Hex
