import Mathlib.Tactic.SplitIfs
import WireCodec.Text.Encoding

/-!
# UTF-8 as a code

The generalized form of a code point is recognised whatever follows it: `first?` finds the code points that are
no surrogates and `firstSurrogate?` the others.  So strict reading that passes surrogates undoes `encodeAll`
(`decodeStrict_encodeAll`), and different texts have different generalized forms (`encodeAll_injective`).
-/

namespace WireCodec.Utf8

/-! ### The bytes of one code point -/

theorem toNat_tail (n : Nat) : (tail n).toNat = 0x80 + n % 0x40 := by
  rw [tail, UInt8.toNat_ofNat']
  omega

private theorem toNat_ofNat_of_lt {n : Nat} (h : n < 0x100) : (UInt8.ofNat n).toNat = n :=
  UInt8.toNat_ofNat_of_lt' h

theorem isTail_tail (n : Nat) : IsTail (tail n) := by
  unfold IsTail
  rw [toNat_tail]
  omega

/-- The form of an ASCII character is its number as one byte. -/
theorem encode_of_lt {c : CodePoint} (h : c.val < 0x80) : encode c = [UInt8.ofNat c.val] := by
  rw [encode, if_pos h]

theorem encode_ne_nil (c : CodePoint) : encode c ≠ [] := by
  unfold encode
  split
  · simp
  · split
    · simp
    · split <;> simp

/-- All bytes of a longer form are above ASCII. -/
theorem le_toNat_of_mem_encode {c : CodePoint} (h : 0x80 ≤ c.val) {b : UInt8} (hb : b ∈ encode c) :
    0x80 ≤ b.toNat := by
  have hc := c.isLt
  rw [encode, if_neg (by omega)] at hb
  split at hb
  · simp only [List.mem_cons, List.not_mem_nil, or_false] at hb
    rcases hb with rfl | rfl
    · rw [toNat_ofNat_of_lt (by omega)]; omega
    · exact (isTail_tail _).1
  · split at hb
    · simp only [List.mem_cons, List.not_mem_nil, or_false] at hb
      rcases hb with rfl | rfl | rfl
      · rw [toNat_ofNat_of_lt (by omega)]; omega
      · exact (isTail_tail _).1
      · exact (isTail_tail _).1
    · simp only [List.mem_cons, List.not_mem_nil, or_false] at hb
      rcases hb with rfl | rfl | rfl | rfl
      · rw [toNat_ofNat_of_lt (by omega)]; omega
      · exact (isTail_tail _).1
      · exact (isTail_tail _).1
      · exact (isTail_tail _).1

/-! ### Recognising a form -/

private theorem first?_encode1 {c : CodePoint} (h : c.val < 0x80) (rest : Bytes) :
    first? (encode c ++ rest) = some (c, 0) := by
  have hlead : (UInt8.ofNat c.val).toNat = c.val := toNat_ofNat_of_lt (by omega)
  have htails : tails? (UInt8.ofNat c.val) = some 0 := by rw [tails?, hlead, if_pos h]
  rw [encode_of_lt h]
  simp only [List.cons_append, List.nil_append, first?, htails, Option.some.injEq, Prod.mk.injEq, and_true]
  exact CodePoint.ext hlead

private theorem first?_encode2 {c : CodePoint} (h : 0x80 ≤ c.val) (h' : c.val < 0x800) (rest : Bytes) :
    first? (encode c ++ rest) = some (c, 1) := by
  have hlead : (UInt8.ofNat (0xC0 + c.val / 0x40)).toNat = 0xC0 + c.val / 0x40 := toNat_ofNat_of_lt (by omega)
  have htails : tails? (UInt8.ofNat (0xC0 + c.val / 0x40)) = some 1 := by
    rw [tails?, hlead, if_neg (by omega), if_pos (by omega)]
  have hfollows : Follows (UInt8.ofNat (0xC0 + c.val / 0x40)) (tail c.val) := by
    unfold Follows
    rw [hlead, toNat_tail]
    split_ifs <;> omega
  rw [encode, if_neg (by omega), if_pos h']
  simp only [List.cons_append, List.nil_append, first?, htails, if_pos hfollows, Option.some.injEq,
    Prod.mk.injEq, and_true]
  apply CodePoint.ext
  simp only [point2, hlead, toNat_tail]
  omega

private theorem first?_encode3 {c : CodePoint} (h : 0x800 ≤ c.val) (h' : c.val < 0x10000)
    (hs : ¬c.IsSurrogate) (rest : Bytes) : first? (encode c ++ rest) = some (c, 2) := by
  unfold CodePoint.IsSurrogate at hs
  have hlead : (UInt8.ofNat (0xE0 + c.val / 0x1000)).toNat = 0xE0 + c.val / 0x1000 :=
    toNat_ofNat_of_lt (by omega)
  have htails : tails? (UInt8.ofNat (0xE0 + c.val / 0x1000)) = some 2 := by
    rw [tails?, hlead, if_neg (by omega), if_neg (by omega), if_pos (by omega)]
  have hfollows : Follows (UInt8.ofNat (0xE0 + c.val / 0x1000)) (tail (c.val / 0x40)) := by
    unfold Follows
    rw [hlead, toNat_tail]
    split_ifs <;> omega
  rw [encode, if_neg (by omega), if_neg (by omega), if_pos h']
  simp only [List.cons_append, List.nil_append, first?, htails, if_pos (And.intro hfollows (isTail_tail _)),
    Option.some.injEq, Prod.mk.injEq, and_true]
  apply CodePoint.ext
  simp only [point3, hlead, toNat_tail]
  omega

private theorem first?_encode4 {c : CodePoint} (h : 0x10000 ≤ c.val) (rest : Bytes) :
    first? (encode c ++ rest) = some (c, 3) := by
  have hc := c.isLt
  have hlead : (UInt8.ofNat (0xF0 + c.val / 0x40000)).toNat = 0xF0 + c.val / 0x40000 :=
    toNat_ofNat_of_lt (by omega)
  have htails : tails? (UInt8.ofNat (0xF0 + c.val / 0x40000)) = some 3 := by
    rw [tails?, hlead, if_neg (by omega), if_neg (by omega), if_neg (by omega), if_pos (by omega)]
  have hfollows : Follows (UInt8.ofNat (0xF0 + c.val / 0x40000)) (tail (c.val / 0x1000)) := by
    unfold Follows
    rw [hlead, toNat_tail]
    split_ifs <;> omega
  rw [encode, if_neg (by omega), if_neg (by omega), if_neg (by omega)]
  simp only [List.cons_append, List.nil_append, first?, htails,
    if_pos (And.intro hfollows (And.intro (isTail_tail _) (isTail_tail _))), Option.some.injEq, Prod.mk.injEq,
    and_true]
  apply CodePoint.ext
  -- the four groups of bits make up the number again
  have hsum : (0xF0 + c.val / 0x40000) % 8 * 0x40000 + (0x80 + c.val / 0x1000 % 0x40) % 0x40 * 0x1000 +
      (0x80 + c.val / 0x40 % 0x40) % 0x40 * 0x40 + (0x80 + c.val % 0x40) % 0x40 = c.val := by omega
  simp only [point4, hlead, toNat_tail, hsum]
  exact Nat.mod_eq_of_lt hc

/-- The number of continuation bytes in the form of a code point. -/
theorem length_encode (c : CodePoint) : (encode c).length =
    (if c.val < 0x80 then 0 else if c.val < 0x800 then 1 else if c.val < 0x10000 then 2 else 3) + 1 := by
  unfold encode
  split_ifs <;> rfl

/-- A code point that is no surrogate is recognised at the start of its form. -/
theorem first?_encode {c : CodePoint} (h : ¬c.IsSurrogate) (rest : Bytes) :
    first? (encode c ++ rest) = some (c, (encode c).length - 1) := by
  rw [length_encode, Nat.add_sub_cancel]
  split_ifs with h1 h2 h3
  · exact first?_encode1 h1 rest
  · exact first?_encode2 (by omega) h2 rest
  · exact first?_encode3 (by omega) h3 h rest
  · exact first?_encode4 (by omega) rest

private theorem encode_of_isSurrogate {c : CodePoint} (h : c.IsSurrogate) :
    encode c = [0xED, tail (c.val / 0x40), tail c.val] := by
  unfold CodePoint.IsSurrogate at h
  have : 0xE0 + c.val / 0x1000 = 0xED := by omega
  rw [encode, if_neg (by omega), if_neg (by omega), if_pos (by omega), this]
  rfl

/-- The form of a surrogate is not well formed. -/
theorem first?_encode_of_isSurrogate {c : CodePoint} (h : c.IsSurrogate) (rest : Bytes) :
    first? (encode c ++ rest) = none := by
  have hnot : ¬Follows 0xED (tail (c.val / 0x40)) := by
    unfold CodePoint.IsSurrogate at h
    rintro ⟨-, hle⟩
    rw [if_pos (show (0xED : UInt8).toNat = 0xED from rfl), toNat_tail] at hle
    omega
  rw [encode_of_isSurrogate h]
  simp only [List.cons_append, List.nil_append, first?, show tails? 0xED = some 2 from rfl]
  rw [if_neg fun hf => hnot hf.1]

/-- A surrogate is recognised at the start of its form. -/
theorem firstSurrogate?_encode {c : CodePoint} (h : c.IsSurrogate) (rest : Bytes) :
    firstSurrogate? (encode c ++ rest) = some (c, 2) := by
  rw [encode_of_isSurrogate h]
  unfold CodePoint.IsSurrogate at h
  have hb : 0xA0 ≤ (tail (c.val / 0x40)).toNat := by rw [toNat_tail]; omega
  simp only [List.cons_append, List.nil_append, firstSurrogate?]
  rw [if_pos ⟨rfl, hb, isTail_tail _, isTail_tail _⟩]
  simp only [Option.some.injEq, Prod.mk.injEq, and_true]
  apply CodePoint.ext
  simp only [point3, toNat_tail, show (0xED : UInt8).toNat = 0xED from rfl]
  omega

/-! ### Reading a text -/

/-- The bytes of a sequence that is already read are passed over. -/
theorem decodeStrictFrom_append (p : Bool) (position : Nat) (s rest : Bytes) :
    decodeStrictFrom p position s.length (s ++ rest) = decodeStrictFrom p (position + s.length) 0 rest := by
  induction s generalizing position with
  | nil => rfl
  | cons b s ih =>
    show decodeStrictFrom p (position + 1) s.length (s ++ rest) = _
    rw [ih, List.length_cons, Nat.add_assoc, Nat.add_comm 1]

/-- A form at the start of the bytes is read as its code point, if that is no surrogate or surrogates are passed. -/
theorem decodeStrictFrom_encode_append {p : Bool} {c : CodePoint} (hc : p = true ∨ ¬c.IsSurrogate) (position : Nat)
    (rest : Bytes) : decodeStrictFrom p position 0 (encode c ++ rest) =
      (decodeStrictFrom p (position + (encode c).length) 0 rest).map (c :: ·) := by
  have hfound : (first? (encode c ++ rest) <|> (if p then firstSurrogate? (encode c ++ rest) else none)) =
      some (c, (encode c).length - 1) := by
    by_cases h : c.IsSurrogate
    · obtain rfl := hc.resolve_right (not_not_intro h)
      rw [first?_encode_of_isSurrogate h, if_pos rfl, firstSurrogate?_encode h, encode_of_isSurrogate h]
      rfl
    · rw [first?_encode h]
      rfl
  obtain ⟨b, s, hbs⟩ := List.exists_cons_of_ne_nil (encode_ne_nil c)
  rw [hbs] at hfound ⊢
  simp only [List.cons_append, List.length_cons, Nat.add_sub_cancel] at hfound ⊢
  rw [decodeStrictFrom]
  simp only [hfound, decodeStrictFrom_append, Nat.add_assoc, Nat.add_comm 1]

theorem encodeAll_cons (c : CodePoint) (t : Text) : encodeAll (c :: t) = encode c ++ encodeAll t := rfl

theorem encodeAll_append (s t : Text) : encodeAll (s ++ t) = encodeAll s ++ encodeAll t :=
  List.flatMap_append

/-- Strict reading undoes the generalized form, if there are no surrogates or they are passed. -/
theorem decodeStrict_encodeAll {p : Bool} {t : Text} (h : p = true ∨ ∀ c ∈ t, ¬c.IsSurrogate) :
    decodeStrict p (encodeAll t) = .ok t := by
  -- positions only matter for faults, and there are none
  suffices hfrom : ∀ position, decodeStrictFrom p position 0 (encodeAll t) = .ok t from hfrom 0
  induction t with
  | nil => intro _; rfl
  | cons c t ih =>
    intro position
    have hc := h.imp_right fun h => h c List.mem_cons_self
    have ht := ih (h.imp_right fun h d hd => h d (List.mem_cons_of_mem c hd))
    rw [encodeAll_cons, decodeStrictFrom_encode_append hc, ht]
    rfl

/-- Different texts have different generalized forms. -/
theorem encodeAll_injective {s t : Text} (h : encodeAll s = encodeAll t) : s = t := by
  have hs : decodeStrict true (encodeAll s) = .ok s := decodeStrict_encodeAll (.inl rfl)
  rw [h, decodeStrict_encodeAll (.inl rfl)] at hs
  exact (Except.ok.inj hs).symm

end WireCodec.Utf8
