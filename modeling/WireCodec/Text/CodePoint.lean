/-!
# Code points and texts

A text is a list of Unicode code points, surrogates included.  Surrogates matter here: a byte that is not part
of well-formed UTF-8 is carried as one of `U+DC80 … U+DCFF` (`ofByte`, `byte?`), and JSON escapes may name a
surrogate on its own.  A high surrogate directly followed by a low one names a code point above `U+FFFF`
(`join`, `highHalf`, `lowHalf`); `joinPairs` joins all such neighbours of a text.
-/

namespace WireCodec

/-- A Unicode code point, which may be a surrogate. -/
structure CodePoint where
  val : Nat
  isLt : val < 0x110000
  deriving DecidableEq

/-- A text is a sequence of code points. -/
abbrev Text := List CodePoint

/-- Bytes on the wire. -/
abbrev Bytes := List UInt8

namespace CodePoint

theorem ext {c d : CodePoint} (h : c.val = d.val) : c = d := by
  cases c; cases d; cases h; rfl

/-- The code point with a number, if there is one. -/
def ofNat? (n : Nat) : Option CodePoint := if h : n < 0x110000 then some ⟨n, h⟩ else none

/-! ### Characters -/

/-- The code point of a character. -/
def ofChar (c : Char) : CodePoint :=
  ⟨c.toNat, by
    rcases c.valid with h | h
    · exact Nat.lt_trans (show c.val.toNat < 0xD800 from h) (by decide)
    · exact h.2⟩

/-! ### Surrogates -/

/-- A high surrogate, `U+D800 … U+DBFF`, the first half of a pair. -/
def IsHigh (c : CodePoint) : Prop := 0xD800 ≤ c.val ∧ c.val ≤ 0xDBFF

/-- A low surrogate, `U+DC00 … U+DFFF`, the second half of a pair. -/
def IsLow (c : CodePoint) : Prop := 0xDC00 ≤ c.val ∧ c.val ≤ 0xDFFF

/-- A surrogate of either kind, `U+D800 … U+DFFF`. -/
def IsSurrogate (c : CodePoint) : Prop := 0xD800 ≤ c.val ∧ c.val ≤ 0xDFFF

instance (c : CodePoint) : Decidable c.IsHigh := inferInstanceAs (Decidable (_ ∧ _))

instance (c : CodePoint) : Decidable c.IsLow := inferInstanceAs (Decidable (_ ∧ _))

instance (c : CodePoint) : Decidable c.IsSurrogate := inferInstanceAs (Decidable (_ ∧ _))

theorem isSurrogate_iff (c : CodePoint) : c.IsSurrogate ↔ c.IsHigh ∨ c.IsLow := by
  unfold IsSurrogate IsHigh IsLow; omega

/-- The character of a code point, unless it is a surrogate. -/
def toChar? (c : CodePoint) : Option Char :=
  if h : c.IsSurrogate then none
  else some (Char.ofNatAux c.val (by
    have hc := c.isLt
    unfold IsSurrogate at h
    unfold Nat.isValidChar
    omega))

/-- The code point that a high and a low surrogate stand for together. -/
def join (high low : CodePoint) : CodePoint :=
  ⟨0x10000 + high.val % 0x400 * 0x400 + low.val % 0x400, by omega⟩

/-- The high surrogate of a code point above `U+FFFF`. -/
def highHalf (c : CodePoint) : CodePoint :=
  ⟨0xD800 + (c.val - 0x10000) / 0x400, by have := c.isLt; omega⟩

/-- The low surrogate of a code point above `U+FFFF`. -/
def lowHalf (c : CodePoint) : CodePoint :=
  ⟨0xDC00 + (c.val - 0x10000) % 0x400, by omega⟩

theorem isHigh_highHalf {c : CodePoint} (h : 0x10000 ≤ c.val) : c.highHalf.IsHigh := by
  have := c.isLt
  simp only [IsHigh, highHalf]
  omega

theorem isLow_lowHalf (c : CodePoint) : c.lowHalf.IsLow := by
  simp only [IsLow, lowHalf]
  omega

theorem highHalf_lt {c : CodePoint} (h : 0x10000 ≤ c.val) : c.highHalf.val < 0x10000 :=
  Nat.lt_of_le_of_lt (isHigh_highHalf h).2 (by decide)

theorem lowHalf_lt (c : CodePoint) : c.lowHalf.val < 0x10000 := Nat.lt_of_le_of_lt c.isLow_lowHalf.2 (by decide)

theorem join_halves {c : CodePoint} (h : 0x10000 ≤ c.val) : join c.highHalf c.lowHalf = c := by
  apply ext
  have := c.isLt
  simp only [join, highHalf, lowHalf]
  omega

/-! ### Bytes carried as surrogates -/

/-- The code point that carries an undecodable byte: `U+DC00` plus the byte. -/
def ofByte (b : UInt8) : CodePoint :=
  ⟨0xDC00 + b.toNat, by have := b.toNat_lt; omega⟩

/-- The byte that a code point carries, if it is one of `U+DC80 … U+DCFF`. -/
def byte? (c : CodePoint) : Option UInt8 :=
  if 0xDC80 ≤ c.val ∧ c.val ≤ 0xDCFF then some (UInt8.ofNat (c.val - 0xDC00)) else none

theorem byte?_ofByte {b : UInt8} (h : 0x80 ≤ b.toNat) : (ofByte b).byte? = some b := by
  have hb := b.toNat_lt
  have hval : (ofByte b).val = 0xDC00 + b.toNat := rfl
  unfold byte?
  rw [if_pos (by omega), hval, Nat.add_sub_cancel_left, UInt8.ofNat_toNat]

end CodePoint

namespace Text

/-- The text of a character string. -/
def ofString (s : String) : Text := s.toList.map CodePoint.ofChar

instance : Coe String Text := ⟨ofString⟩

/-- The character string of a text, unless it holds a surrogate. -/
def toString? (t : Text) : Option String := (t.mapM CodePoint.toChar?).map String.ofList

/-- Joins every high surrogate with a low one directly after it. -/
def joinPairs : Text → Text
  | [] => []
  | [c] => [c]
  | c :: d :: rest =>
    if c.IsHigh ∧ d.IsLow then CodePoint.join c d :: joinPairs rest else c :: joinPairs (d :: rest)

end Text

end WireCodec
