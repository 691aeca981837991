import WireCodec.Proofs.Text.Utf8
import WireCodec.Proofs.Text.Wire

/-!
# Documents in any encoding

A text is written in an encoding code point by code point: in UTF-16 as one code unit or as its two halves, in UTF-32
as one unit of four bytes, in the order of bytes that the encoding says.  Its byte-order mark is the code point U+FEFF in
this encoding.  A document that begins with two ASCII characters, none of them zero, tells its encoding with and
without the mark (`detect_encodeAll`, `detect_mark`), and so the text is read from it (`decodeDocument_encodeAll`).
-/

namespace WireCodec

/-! ### Writing -/

/-- The bytes of a code unit of the given width, the low ones first. -/
def lowFirst : (width : Nat) → Nat → Bytes
  | 0, _ => []
  | width + 1, n => UInt8.ofNat n :: lowFirst width (n / 0x100)

/-- Bytes of which the low ones come first, in the order that is asked for. -/
def ByteOrder.place (order : ByteOrder) (data : Bytes) : Bytes :=
  match order with
  | .little => data
  | .big => data.reverse

/-- The bytes of a code unit of the given width. -/
def ByteOrder.bytes (order : ByteOrder) (width n : Nat) : Bytes := order.place (lowFirst width n)

/-- The code units of a code point: itself, or its halves above `U+FFFF`. -/
def Utf16.unitsOf (c : CodePoint) : Text := if c.val < 0x10000 then [c] else [c.highHalf, c.lowHalf]

/-- The bytes of a text in UTF-16. -/
def Utf16.encodeAll (order : ByteOrder) (t : Text) : Bytes :=
  (t.flatMap unitsOf).flatMap fun u => order.bytes 2 u.val

/-- The bytes of a text in UTF-32. -/
def Utf32.encodeAll (order : ByteOrder) (t : Text) : Bytes := t.flatMap fun c => order.bytes 4 c.val

/-- The bytes of a text in an encoding. -/
def Encoding.encodeAll : Encoding → Text → Bytes
  | .utf8 => Utf8.encodeAll
  | .utf16 order => Utf16.encodeAll order
  | .utf32 order => Utf32.encodeAll order

/-- The byte-order mark of an encoding is the code point U+FEFF in it. -/
example (e : Encoding) : e.mark = e.encodeAll [⟨0xFEFF, by decide⟩] := by
  rcases e with _ | ⟨_ | _⟩ | ⟨_ | _⟩ <;> rfl

private theorem lowFirst_zero (width : Nat) : lowFirst width 0 = List.replicate width 0 := by
  induction width with
  | zero => rfl
  | succ width ih =>
    rw [lowFirst, Nat.zero_div, ih]
    rfl

private theorem lowFirst_of_lt {n : Nat} (h : n < 0x100) (width : Nat) :
    lowFirst (width + 1) n = UInt8.ofNat n :: List.replicate width 0 := by
  rw [lowFirst, Nat.div_eq_of_lt h, lowFirst_zero]

/-! ### UTF-16 -/

namespace Utf16

theorem unit_bytes (order : ByteOrder) {n : Nat} (h : n < 0x10000) :
    ∃ a b, order.bytes 2 n = [a, b] ∧ (unit order a b).val = n := by
  cases order with
  | little =>
    refine ⟨_, _, rfl, ?_⟩
    simp only [unit, UInt8.toNat_ofNat']
    omega
  | big =>
    refine ⟨_, _, rfl, ?_⟩
    simp only [unit, UInt8.toNat_ofNat']
    omega

theorem units_bytes (order : ByteOrder) (position : Nat) {us : Text} (h : ∀ u ∈ us, u.val < 0x10000) :
    units order position (us.flatMap fun u => order.bytes 2 u.val) = .ok us := by
  induction us generalizing position with
  | nil => rfl
  | cons u us ih =>
    obtain ⟨a, b, hbytes, hunit⟩ := unit_bytes order (h u List.mem_cons_self)
    rw [List.flatMap_cons, hbytes, List.cons_append, List.singleton_append, units,
      ih (position + 2) fun v hv => h v (List.mem_cons_of_mem u hv), CodePoint.ext hunit]
    rfl

theorem val_lt_of_mem_unitsOf {c u : CodePoint} (h : u ∈ unitsOf c) : u.val < 0x10000 := by
  unfold unitsOf at h
  split at h
  · next hlt => rwa [List.mem_singleton.1 h]
  · next hlt =>
    rcases List.mem_pair.1 h with rfl | rfl
    · exact CodePoint.highHalf_lt (Nat.le_of_not_lt hlt)
    · exact c.lowHalf_lt

theorem joinPairs_cons {c : CodePoint} (h : ¬c.IsHigh) (t : Text) : Text.joinPairs (c :: t) = c :: t.joinPairs := by
  cases t with
  | nil => rfl
  | cons d t => rw [Text.joinPairs, if_neg fun hpair => h hpair.1]

theorem joinPairs_flatMap_unitsOf {t : Text} (h : t.IsScalar) : Text.joinPairs (t.flatMap unitsOf) = t := by
  induction t with
  | nil => rfl
  | cons c t ih =>
    have hrest := ih fun d hd => h d (List.mem_cons_of_mem c hd)
    rw [List.flatMap_cons, unitsOf]
    split
    · have hhigh : ¬c.IsHigh := fun hhigh => h c List.mem_cons_self (c.isSurrogate_iff.2 (.inl hhigh))
      rw [List.singleton_append, joinPairs_cons hhigh, hrest]
    · next hlt =>
      have hle := Nat.le_of_not_lt hlt
      rw [List.cons_append, List.singleton_append, Text.joinPairs,
        if_pos ⟨CodePoint.isHigh_highHalf hle, c.isLow_lowHalf⟩, CodePoint.join_halves hle, hrest]

theorem decode_encodeAll (order : ByteOrder) (position : Nat) {t : Text} (h : t.IsScalar) :
    decode order position (encodeAll order t) = .ok t := by
  have hunits : ∀ u ∈ t.flatMap unitsOf, u.val < 0x10000 := fun u hu => by
    obtain ⟨c, -, hc⟩ := List.mem_flatMap.1 hu
    exact val_lt_of_mem_unitsOf hc
  rw [decode, encodeAll, units_bytes order position hunits, Except.map, joinPairs_flatMap_unitsOf h]

theorem encodeAll_cons_of_lt (order : ByteOrder) {c : CodePoint} (h : c.val < 0x100) (t : Text) :
    encodeAll order (c :: t) = order.place [UInt8.ofNat c.val, 0] ++ encodeAll order t := by
  have hunits : unitsOf c = [c] := if_pos (Nat.lt_trans h (by decide))
  rw [encodeAll, List.flatMap_cons, hunits, List.singleton_append, List.flatMap_cons, ByteOrder.bytes, lowFirst_of_lt h]
  rfl

end Utf16

/-! ### UTF-32 -/

namespace Utf32

theorem unit_bytes (order : ByteOrder) {n : Nat} (h : n < 0x100000000) :
    ∃ a b c d, order.bytes 4 n = [a, b, c, d] ∧ unit order a b c d = n := by
  cases order with
  | little =>
    refine ⟨_, _, _, _, rfl, ?_⟩
    simp only [unit, UInt8.toNat_ofNat']
    omega
  | big =>
    refine ⟨_, _, _, _, rfl, ?_⟩
    simp only [unit, UInt8.toNat_ofNat']
    omega

theorem decode_encodeAll (order : ByteOrder) (position : Nat) (t : Text) :
    decode order position (encodeAll order t) = .ok t := by
  induction t generalizing position with
  | nil => rfl
  | cons c t ih =>
    obtain ⟨a, b, c', d, hbytes, hunit⟩ := unit_bytes order (Nat.lt_trans c.isLt (by decide))
    have hlt : unit order a b c' d < 0x110000 := hunit ▸ c.isLt
    rw [encodeAll, List.flatMap_cons, hbytes]
    show decode order position (a :: b :: c' :: d :: encodeAll order t) = _
    rw [decode, dif_pos hlt, ih]
    exact congrArg (fun c => Except.ok (c :: t)) (CodePoint.ext hunit)

theorem encodeAll_cons_of_lt (order : ByteOrder) {c : CodePoint} (h : c.val < 0x100) (t : Text) :
    encodeAll order (c :: t) = order.place [UInt8.ofNat c.val, 0, 0, 0] ++ encodeAll order t := by
  rw [encodeAll, List.flatMap_cons, ByteOrder.bytes, lowFirst_of_lt h]
  rfl

end Utf32

/-! ### Telling the encoding -/

namespace Encoding

/-- A byte that is neither zero nor the first one of a mark. -/
private def IsOpening (a : UInt8) : Prop := a ≠ 0 ∧ a ≠ 0xEF ∧ a ≠ 0xFE ∧ a ≠ 0xFF

private theorem isOpening_ofNat {n : Nat} (h : 0 < n ∧ n < 0x80) : IsOpening (UInt8.ofNat n) := by
  have hto : (UInt8.ofNat n).toNat = n := UInt8.toNat_ofNat_of_lt' (show n < 2 ^ 8 by omega)
  have hne {b : UInt8} (hb : b.toNat = 0 ∨ 0x80 ≤ b.toNat) : UInt8.ofNat n ≠ b := by
    rintro rfl
    omega
  exact ⟨hne (.inl rfl), hne (.inr (by decide)), hne (.inr (by decide)), hne (.inr (by decide))⟩

variable {a b : UInt8}

theorem detect_of_unmarked {data : Bytes} (h : ∀ e : Encoding, ¬e.mark <+: data) :
    detect data = (ofZeros data, 0) := by
  have hnone : all.find? (fun e => e.mark.isPrefixOf data) = none := by
    rw [List.find?_eq_none]
    exact fun e _ hmark => h e (List.isPrefixOf_iff_prefix.1 hmark)
  rw [detect, hnone]

private theorem unmarked (ha : IsOpening a) (rest : Bytes) (e : Encoding) : ¬e.mark <+: a :: rest := by
  obtain ⟨hzero, hutf8, hbig, hlittle⟩ := ha
  rcases e with _ | ⟨_ | _⟩ | ⟨_ | _⟩ <;> simp [mark, hzero.symm, hutf8.symm, hbig.symm, hlittle.symm]

private theorem detect_utf8 (ha : IsOpening a) (hb : IsOpening b) (rest : Bytes) :
    detect (a :: b :: rest) = (.utf8, 0) := by
  rw [detect_of_unmarked (unmarked ha _)]
  rcases rest with _ | ⟨c, _ | ⟨d, rest⟩⟩ <;> simp [ofZeros, ha.1, hb.1]

private theorem detect_utf16 (order : ByteOrder) (ha : IsOpening a) (hb : IsOpening b) (rest : Bytes) :
    detect (order.place [a, 0] ++ order.place [b, 0] ++ rest) = (.utf16 order, 0) := by
  cases order with
  | little =>
    show detect (a :: 0 :: b :: 0 :: rest) = _
    rw [detect_of_unmarked (unmarked ha _)]
    simp [ofZeros, ha.1, hb.1]
  | big =>
    -- of the marks only one begins with a zero, and its second byte is another
    have hunmarked : ∀ e : Encoding, ¬e.mark <+: 0 :: a :: 0 :: b :: rest := by
      rintro (_ | ⟨_ | _⟩ | ⟨_ | _⟩) <;> simp [mark, ha.1.symm]
    show detect (0 :: a :: 0 :: b :: rest) = _
    rw [detect_of_unmarked hunmarked]
    simp [ofZeros, ha.1]

private theorem detect_utf32 (order : ByteOrder) (ha : IsOpening a) (rest : Bytes) :
    detect (order.place [a, 0, 0, 0] ++ rest) = (.utf32 order, 0) := by
  cases order with
  | little =>
    show detect (a :: 0 :: 0 :: 0 :: rest) = _
    rw [detect_of_unmarked (unmarked ha _)]
    simp [ofZeros, ha.1]
  | big => rfl

/-- A mark of UTF-16 is not taken for the longer one that begins with it. -/
private theorem detect_mark_utf16 (order : ByteOrder) (ha : IsOpening a) (rest : Bytes) :
    detect ((utf16 order).mark ++ order.place [a, 0] ++ rest) = (.utf16 order, 2) := by
  cases order with
  | little =>
    show detect (0xFF :: 0xFE :: a :: 0 :: rest) = _
    simp [detect, all, mark, ha.1.symm]
  | big => rfl

end Encoding

/-- A text that begins with two ASCII characters, neither of them zero. -/
def Text.BeginsAscii (t : Text) : Prop := 2 ≤ t.length ∧ ∀ c ∈ t.take 2, 0 < c.val ∧ c.val < 0x80

instance (t : Text) : Decidable t.BeginsAscii := inferInstanceAs (Decidable (_ ∧ _))

theorem Text.beginsAscii_iff {t : Text} :
    t.BeginsAscii ↔ ∃ c d rest, t = c :: d :: rest ∧ (0 < c.val ∧ c.val < 0x80) ∧ 0 < d.val ∧ d.val < 0x80 := by
  constructor
  · rintro ⟨hlength, hascii⟩
    match t, hlength with
    | c :: d :: rest, _ => exact ⟨c, d, rest, rfl, hascii c (by simp), hascii d (by simp)⟩
  · rintro ⟨c, d, rest, rfl, hc, hd⟩
    exact ⟨Nat.le_add_left 2 rest.length, by simp [hc, hd]⟩

namespace Encoding

variable {t : Text} (e : Encoding)

/-- A document tells its encoding without a mark. -/
theorem detect_encodeAll (h : t.BeginsAscii) : detect (e.encodeAll t) = (e, 0) := by
  obtain ⟨c, d, rest, rfl, hc, hd⟩ := Text.beginsAscii_iff.1 h
  have hc' := isOpening_ofNat hc
  have hd' := isOpening_ofNat hd
  cases e with
  | utf8 =>
    show detect (Utf8.encodeAll (c :: d :: rest)) = _
    rw [Utf8.encodeAll_cons, Utf8.encodeAll_cons, Utf8.encode_of_lt hc.2, Utf8.encode_of_lt hd.2]
    exact detect_utf8 hc' hd' _
  | utf16 order =>
    show detect (Utf16.encodeAll order (c :: d :: rest)) = _
    rw [Utf16.encodeAll_cons_of_lt order (by omega), Utf16.encodeAll_cons_of_lt order (by omega), ← List.append_assoc,
      detect_utf16 order hc' hd']
  | utf32 order =>
    show detect (Utf32.encodeAll order (c :: d :: rest)) = _
    rw [Utf32.encodeAll_cons_of_lt order (by omega), detect_utf32 order hc']

/-- A document tells its encoding by its mark. -/
theorem detect_mark (h : t.BeginsAscii) : detect (e.mark ++ e.encodeAll t) = (e, e.mark.length) := by
  obtain ⟨c, d, rest, rfl, hc, -⟩ := Text.beginsAscii_iff.1 h
  cases e with
  | utf8 => rfl
  | utf16 order =>
    have hlength : (utf16 order).mark.length = 2 := by cases order <;> rfl
    show detect ((utf16 order).mark ++ Utf16.encodeAll order (c :: d :: rest)) = _
    rw [Utf16.encodeAll_cons_of_lt order (by omega), ← List.append_assoc,
      detect_mark_utf16 order (isOpening_ofNat hc), hlength]
  | utf32 order => cases order <;> rfl

/-- After its mark, if any, a document is read in the encoding that it tells. -/
theorem decodeDocument_of_detect (mark : Bytes) (hdetect : detect (mark ++ e.encodeAll t) = (e, mark.length))
    (ht : t.IsScalar) : decodeDocument (mark ++ e.encodeAll t) = .ok t := by
  rw [decodeDocument, hdetect]
  cases e with
  | utf8 =>
    dsimp only
    rw [List.drop_left]
    exact Utf8.decodeStrict_encodeAll (.inl rfl)
  | utf16 order =>
    dsimp only
    rw [List.drop_left]
    exact Utf16.decode_encodeAll order _ ht
  | utf32 order =>
    dsimp only
    rw [List.drop_left]
    exact Utf32.decode_encodeAll order _ t

/-- A text is read from its bytes in any encoding, with and without the mark. -/
theorem decodeDocument_encodeAll (ht : t.IsScalar) (h : t.BeginsAscii) :
    decodeDocument (e.encodeAll t) = .ok t ∧ decodeDocument (e.mark ++ e.encodeAll t) = .ok t :=
  ⟨e.decodeDocument_of_detect [] (e.detect_encodeAll h) ht, e.decodeDocument_of_detect e.mark (e.detect_mark h) ht⟩

end Encoding

end WireCodec
