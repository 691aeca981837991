import WireCodec.Text.DecodeError

/-!
# UTF-8

Three readings of bytes as UTF-8 and two ways back.

* `decodeLossless` reads any bytes: a well-formed sequence becomes its code point, every other byte is carried
  by the surrogate `CodePoint.ofByte`.  `toWire` undoes it.
* `decodeStrict` refuses bytes that are not well formed and says why; with `passSurrogates` it lets the
  three-byte forms of surrogates through.
* `encodeAll` writes every code point in its generalized form, surrogates like any other.

A sequence is well formed when it is the shortest form of a code point that is no surrogate; `first?`
recognises one at the start of the bytes by the ranges of its lead byte and its continuation bytes.
-/

namespace WireCodec.Utf8

/-! ### Writing -/

/-- A continuation byte with the last six bits of a number. -/
def tail (n : Nat) : UInt8 := UInt8.ofNat (0x80 + n % 0x40)

/-- The generalized UTF-8 form of a code point: the shortest form, also for surrogates. -/
def encode (c : CodePoint) : Bytes :=
  if c.val < 0x80 then [UInt8.ofNat c.val]
  else if c.val < 0x800 then [UInt8.ofNat (0xC0 + c.val / 0x40), tail c.val]
  else if c.val < 0x10000 then [UInt8.ofNat (0xE0 + c.val / 0x1000), tail (c.val / 0x40), tail c.val]
  else [UInt8.ofNat (0xF0 + c.val / 0x40000), tail (c.val / 0x1000), tail (c.val / 0x40), tail c.val]

/-- The generalized UTF-8 form of a text. -/
def encodeAll (t : Text) : Bytes := t.flatMap encode

/-- A code point that can be written on its own: no surrogate, or one that carries a byte. -/
def IsPlain (c : CodePoint) : Prop := ¬c.IsSurrogate ∨ c.byte?.isSome

instance (c : CodePoint) : Decidable (IsPlain c) := inferInstanceAs (Decidable (_ ∨ _))

/-- A carried byte is written as that byte, any other code point in its generalized form. -/
def restore (c : CodePoint) : Bytes :=
  match c.byte? with
  | some b => [b]
  | none => encode c

/-- The bytes of a text on the wire.  Carried bytes are restored, unless the text holds a surrogate that
carries none; then all its surrogates are written in their generalized form. -/
def toWire (t : Text) : Bytes :=
  if ∀ c ∈ t, IsPlain c then t.flatMap restore else encodeAll t

/-! ### Well-formed sequences -/

/-- A continuation byte. -/
def IsTail (b : UInt8) : Prop := 0x80 ≤ b.toNat ∧ b.toNat ≤ 0xBF

/-- The continuation bytes that may follow a lead byte directly.  After `E0` and `F0` the low ones would make
an overlong form, after `ED` the high ones a surrogate, after `F4` the high ones a number beyond the last code
point. -/
def Follows (a b : UInt8) : Prop :=
  (if a.toNat = 0xE0 then 0xA0 else if a.toNat = 0xF0 then 0x90 else 0x80) ≤ b.toNat ∧
    b.toNat ≤ if a.toNat = 0xED then 0x9F else if a.toNat = 0xF4 then 0x8F else 0xBF

instance (b : UInt8) : Decidable (IsTail b) := inferInstanceAs (Decidable (_ ∧ _))

instance (a b : UInt8) : Decidable (Follows a b) := inferInstanceAs (Decidable (_ ∧ _))

/-- The number of continuation bytes that a lead byte asks for, if it is one. -/
def tails? (a : UInt8) : Option Nat :=
  if a.toNat < 0x80 then some 0
  else if 0xC2 ≤ a.toNat ∧ a.toNat ≤ 0xDF then some 1
  else if 0xE0 ≤ a.toNat ∧ a.toNat ≤ 0xEF then some 2
  else if 0xF0 ≤ a.toNat ∧ a.toNat ≤ 0xF4 then some 3
  else none

/-- The code point of a one-byte form. -/
def point1 (a : UInt8) : CodePoint := ⟨a.toNat, by have := a.toNat_lt; omega⟩

/-- The code point of a two-byte form. -/
def point2 (a b : UInt8) : CodePoint := ⟨a.toNat % 0x20 * 0x40 + b.toNat % 0x40, by omega⟩

/-- The code point of a three-byte form. -/
def point3 (a b c : UInt8) : CodePoint :=
  ⟨a.toNat % 0x10 * 0x1000 + b.toNat % 0x40 * 0x40 + c.toNat % 0x40, by omega⟩

/-- The code point of a four-byte form; a well-formed one is never reduced. -/
def point4 (a b c d : UInt8) : CodePoint :=
  ⟨(a.toNat % 8 * 0x40000 + b.toNat % 0x40 * 0x1000 + c.toNat % 0x40 * 0x40 + d.toNat % 0x40) % 0x110000,
    Nat.mod_lt _ (by decide)⟩

/-- The code point of the well-formed sequence at the start of the bytes, if there is one, with the number of
its continuation bytes. -/
def first? : Bytes → Option (CodePoint × Nat)
  | [] => none
  | a :: rest =>
    match tails? a, rest with
    | some 0, _ => some (point1 a, 0)
    | some 1, b :: _ => if Follows a b then some (point2 a b, 1) else none
    | some 2, b :: c :: _ => if Follows a b ∧ IsTail c then some (point3 a b c, 2) else none
    | some 3, b :: c :: d :: _ =>
      if Follows a b ∧ IsTail c ∧ IsTail d then some (point4 a b c d, 3) else none
    | _, _ => none

/-! ### Reading any bytes -/

/-- Reads bytes of which the first `skip` belong to a sequence that is already read. -/
def decodeFrom : (skip : Nat) → Bytes → Text
  | _, [] => []
  | skip + 1, _ :: rest => decodeFrom skip rest
  | 0, b :: rest =>
    match first? (b :: rest) with
    | some (c, n) => c :: decodeFrom n rest
    | none => CodePoint.ofByte b :: decodeFrom 0 rest

/-- Reads any bytes as text; a byte that belongs to no well-formed sequence is carried by a surrogate. -/
def decodeLossless (data : Bytes) : Text := decodeFrom 0 data

/-! ### Reading well-formed bytes -/

/-- The three-byte form of a surrogate at the start of the bytes. -/
def firstSurrogate? : Bytes → Option (CodePoint × Nat)
  | a :: b :: c :: _ =>
    if a.toNat = 0xED ∧ 0xA0 ≤ b.toNat ∧ IsTail b ∧ IsTail c then some (point3 a b c, 2) else none
  | _ => none

/-- What is wrong with bytes at whose start there is no well-formed sequence, and how many of them it
concerns: the lead byte alone, with the continuation bytes that are in order, or all bytes when they end too
early. -/
def fault : Bytes → DecodeFault × Nat
  | [] => (.unexpectedEnd, 0)
  | a :: rest =>
    match tails? a, rest with
    | none, _ => (.invalidStart, 1)
    | some _, [] => (.unexpectedEnd, 1)
    | some _, b :: rest =>
      if ¬Follows a b then (.invalidContinuation, 1)
      else
        match rest with
        | [] => (.unexpectedEnd, 2)
        | c :: rest =>
          if ¬IsTail c then (.invalidContinuation, 2)
          else if rest = [] then (.unexpectedEnd, 3) else (.invalidContinuation, 3)

/-- Reads well-formed bytes from a position on; the first `skip` belong to a sequence already read. -/
def decodeStrictFrom (passSurrogates : Bool) : (position skip : Nat) → Bytes → Except DecodeError Text
  | _, _, [] => .ok []
  | position, skip + 1, _ :: rest => decodeStrictFrom passSurrogates (position + 1) skip rest
  | position, 0, b :: rest =>
    match first? (b :: rest) <|> (if passSurrogates then firstSurrogate? (b :: rest) else none) with
    | some (c, n) => (decodeStrictFrom passSurrogates (position + 1) n rest).map (c :: ·)
    | none =>
      let (why, count) := fault (b :: rest)
      .error ⟨.utf8, why, b, position, count⟩

/-- Reads well-formed bytes, with the three-byte forms of surrogates among them if they are to be passed. -/
def decodeStrict (passSurrogates : Bool) (data : Bytes) : Except DecodeError Text :=
  decodeStrictFrom passSurrogates 0 0 data

end WireCodec.Utf8
