import WireCodec.Text.DecodeError

/-!
# UTF-16 and UTF-32

Bytes are first cut into code units of two or four bytes.  In UTF-16 a high surrogate unit directly followed
by a low one is joined into one code point; surrogates that stand alone, and all of them in UTF-32, are kept
as they are.  What can go wrong is left-over bytes at the end, and in UTF-32 a unit beyond the last code
point.
-/

namespace WireCodec

/-! ### UTF-16 -/

namespace Utf16

/-- The code unit of two bytes. -/
def unit (order : ByteOrder) (a b : UInt8) : CodePoint :=
  match order with
  | .little => ⟨b.toNat * 0x100 + a.toNat, by have := a.toNat_lt; have := b.toNat_lt; omega⟩
  | .big => ⟨a.toNat * 0x100 + b.toNat, by have := a.toNat_lt; have := b.toNat_lt; omega⟩

/-- The code units of bytes from a position on. -/
def units (order : ByteOrder) : (position : Nat) → Bytes → Except DecodeError Text
  | _, [] => .ok []
  | position, [a] => .error ⟨.utf16 order, .truncated, a, position, 1⟩
  | position, a :: b :: rest => (units order (position + 2) rest).map (unit order a b :: ·)

/-- Reads bytes as UTF-16, the first of them at the given position. -/
def decode (order : ByteOrder) (position : Nat) (data : Bytes) : Except DecodeError Text :=
  (units order position data).map Text.joinPairs

end Utf16

/-! ### UTF-32 -/

namespace Utf32

/-- The number of four bytes. -/
def unit (order : ByteOrder) (a b c d : UInt8) : Nat :=
  match order with
  | .little => d.toNat * 0x1000000 + c.toNat * 0x10000 + b.toNat * 0x100 + a.toNat
  | .big => a.toNat * 0x1000000 + b.toNat * 0x10000 + c.toNat * 0x100 + d.toNat

/-- Reads bytes as UTF-32, the first of them at the given position. -/
def decode (order : ByteOrder) : (position : Nat) → Bytes → Except DecodeError Text
  | _, [] => .ok []
  | position, a :: b :: c :: d :: rest =>
    if h : unit order a b c d < 0x110000 then
      (decode order (position + 4) rest).map (⟨unit order a b c d, h⟩ :: ·)
    else .error ⟨.utf32 order, .outOfRange, a, position, 4⟩
  | position, a :: rest => .error ⟨.utf32 order, .truncated, a, position, rest.length + 1⟩

end Utf32

end WireCodec
