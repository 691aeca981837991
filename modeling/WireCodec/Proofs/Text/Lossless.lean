import WireCodec.Proofs.Text.Wire

/-!
# Reading that loses nothing

Any bytes can be read, and writing what was read gives them back (`toWire_decodeLossless`): a well-formed sequence is
the form of its code point (`first?_spec`), every other byte is carried, and so no code point comes up that could
not be written on its own.  In the other direction a text without surrogates is read from its form
(`decodeLossless_encodeAll`), so that bytes are read as a text that begins with it exactly if they begin with its form
(`prefix_decodeLossless_iff`).
-/

namespace WireCodec.Utf8

/-! ### Well-formed sequences are forms -/

private theorem ofNat_eq {n : Nat} {b : UInt8} (h : n = b.toNat) : UInt8.ofNat n = b := by
  rw [h, UInt8.ofNat_toNat]

private theorem tail_eq {n : Nat} {b : UInt8} (hb : IsTail b) (h : n % 0x40 = b.toNat % 0x40) : tail n = b := by
  unfold IsTail at hb
  exact ofNat_eq (by omega)

private theorem Follows.isTail {a b : UInt8} (h : Follows a b) : IsTail b := by
  unfold Follows at h
  unfold IsTail
  split_ifs at h <;> omega

private theorem encode_point1 {a : UInt8} (ha : a.toNat < 0x80) : encode (point1 a) = [a] := by
  have hlead : UInt8.ofNat (point1 a).val = a := ofNat_eq rfl
  have hlt : (point1 a).val < 0x80 := ha
  rw [encode_of_lt hlt, hlead]

private theorem encode_point2 {a b : UInt8} (ha : 0xC2 ≤ a.toNat ∧ a.toNat ≤ 0xDF) (hb : IsTail b) :
    encode (point2 a b) = [a, b] := by
  have hval : (point2 a b).val = a.toNat % 0x20 * 0x40 + b.toNat % 0x40 := rfl
  have hlead : UInt8.ofNat (0xC0 + (point2 a b).val / 0x40) = a := ofNat_eq (by omega)
  have htail : tail (point2 a b).val = b := tail_eq hb (by omega)
  rw [encode, if_neg (by omega), if_pos (by omega), hlead, htail]

private theorem point3_bounds {a b : UInt8} (c : UInt8) (ha : 0xE0 ≤ a.toNat ∧ a.toNat ≤ 0xEF) (hb : Follows a b) :
    0x800 ≤ (point3 a b c).val ∧ ¬(point3 a b c).IsSurrogate := by
  have hval : (point3 a b c).val = a.toNat % 0x10 * 0x1000 + b.toNat % 0x40 * 0x40 + c.toNat % 0x40 := rfl
  -- after E0 the range of the second byte excludes overlong forms, after ED surrogates
  unfold CodePoint.IsSurrogate
  unfold Follows at hb
  split_ifs at hb <;> omega

private theorem encode_point3 {a b c : UInt8} (ha : 0xE0 ≤ a.toNat ∧ a.toNat ≤ 0xEF) (hb : Follows a b)
    (hc : IsTail c) : encode (point3 a b c) = [a, b, c] := by
  have hval : (point3 a b c).val = a.toNat % 0x10 * 0x1000 + b.toNat % 0x40 * 0x40 + c.toNat % 0x40 := rfl
  have hbounds := (point3_bounds c ha hb).1
  have hlead : UInt8.ofNat (0xE0 + (point3 a b c).val / 0x1000) = a := ofNat_eq (by omega)
  have htail : tail ((point3 a b c).val / 0x40) = b := tail_eq hb.isTail (by omega)
  have htail' : tail (point3 a b c).val = c := tail_eq hc (by omega)
  rw [encode, if_neg (by omega), if_neg (by omega), if_pos (by omega), hlead, htail, htail']

private theorem point4_bounds {a b : UInt8} (c d : UInt8) (ha : 0xF0 ≤ a.toNat ∧ a.toNat ≤ 0xF4) (hb : Follows a b) :
    (point4 a b c d).val =
        a.toNat % 8 * 0x40000 + b.toNat % 0x40 * 0x1000 + c.toNat % 0x40 * 0x40 + d.toNat % 0x40 ∧
      0x10000 ≤ (point4 a b c d).val := by
  -- the sum is within the code points, so it is not reduced
  have hbounds : 0x10 ≤ a.toNat % 8 * 0x40 + b.toNat % 0x40 ∧ a.toNat % 8 * 0x40 + b.toNat % 0x40 < 0x110 := by
    unfold Follows at hb
    split_ifs at hb <;> omega
  have hval : (point4 a b c d).val =
      a.toNat % 8 * 0x40000 + b.toNat % 0x40 * 0x1000 + c.toNat % 0x40 * 0x40 + d.toNat % 0x40 :=
    Nat.mod_eq_of_lt (by omega)
  exact ⟨hval, by omega⟩

private theorem encode_point4 {a b c d : UInt8} (ha : 0xF0 ≤ a.toNat ∧ a.toNat ≤ 0xF4) (hb : Follows a b)
    (hc : IsTail c) (hd : IsTail d) : encode (point4 a b c d) = [a, b, c, d] := by
  obtain ⟨hval, hle⟩ := point4_bounds c d ha hb
  have hlead : UInt8.ofNat (0xF0 + (point4 a b c d).val / 0x40000) = a := ofNat_eq (by omega)
  have htail : tail ((point4 a b c d).val / 0x1000) = b := tail_eq hb.isTail (by omega)
  have htail' : tail ((point4 a b c d).val / 0x40) = c := tail_eq hc (by omega)
  have htail'' : tail (point4 a b c d).val = d := tail_eq hd (by omega)
  rw [encode, if_neg (by omega), if_neg (by omega), if_neg (by omega), hlead, htail, htail', htail'']

private theorem not_isSurrogate_of_lt {c : CodePoint} (h : c.val < 0xD800 ∨ 0xE000 ≤ c.val) : ¬c.IsSurrogate := by
  unfold CodePoint.IsSurrogate
  omega

/-- The lead bytes of a sequence, by the number of its continuation bytes. -/
private def IsLead : Nat → UInt8 → Prop
  | 0, a => a.toNat < 0x80
  | 1, a => 0xC2 ≤ a.toNat ∧ a.toNat ≤ 0xDF
  | 2, a => 0xE0 ≤ a.toNat ∧ a.toNat ≤ 0xEF
  | 3, a => 0xF0 ≤ a.toNat ∧ a.toNat ≤ 0xF4
  | _, _ => False

private theorem isLead_of_tails? {a : UInt8} {n : Nat} (h : tails? a = some n) : IsLead n a := by
  unfold tails? at h
  split_ifs at h with h0 h1 h2 h3
  all_goals
    obtain rfl := Option.some.inj h
    assumption

/-- A sequence that is recognised is the form of its code point, which is no surrogate. -/
theorem first?_spec {data : Bytes} {c : CodePoint} {n : Nat} (h : first? data = some (c, n)) :
    encode c = data.take (n + 1) ∧ ¬c.IsSurrogate := by
  unfold first? at h
  split at h
  · cases h
  · -- one case for each number of continuation bytes
    next a rest =>
    split at h
    · next htails =>
      have ha : a.toNat < 0x80 := isLead_of_tails? htails
      obtain ⟨rfl, rfl⟩ := Prod.mk.inj (Option.some.inj h)
      exact ⟨encode_point1 ha, not_isSurrogate_of_lt (.inl (Nat.lt_trans ha (by decide)))⟩
    · next b rest htails =>
      have ha : 0xC2 ≤ a.toNat ∧ a.toNat ≤ 0xDF := isLead_of_tails? htails
      split at h
      · next hb =>
        obtain ⟨rfl, rfl⟩ := Prod.mk.inj (Option.some.inj h)
        have hval : (point2 a b).val = a.toNat % 0x20 * 0x40 + b.toNat % 0x40 := rfl
        exact ⟨encode_point2 ha hb.isTail, not_isSurrogate_of_lt (by omega)⟩
      · cases h
    · next b c rest htails =>
      have ha : 0xE0 ≤ a.toNat ∧ a.toNat ≤ 0xEF := isLead_of_tails? htails
      split at h
      · next hbc =>
        obtain ⟨rfl, rfl⟩ := Prod.mk.inj (Option.some.inj h)
        exact ⟨encode_point3 ha hbc.1 hbc.2, (point3_bounds c ha hbc.1).2⟩
      · cases h
    · next b c d rest htails =>
      have ha : 0xF0 ≤ a.toNat ∧ a.toNat ≤ 0xF4 := isLead_of_tails? htails
      split at h
      · next hbcd =>
        obtain ⟨rfl, rfl⟩ := Prod.mk.inj (Option.some.inj h)
        have hle := (point4_bounds c d ha hbcd.1).2
        exact ⟨encode_point4 ha hbcd.1 hbcd.2.1 hbcd.2.2, not_isSurrogate_of_lt (by omega)⟩
      · cases h
    · cases h

/-- A byte that begins no well-formed sequence is above ASCII. -/
theorem le_toNat_of_first?_eq_none {b : UInt8} {rest : Bytes} (h : first? (b :: rest) = none) : 0x80 ≤ b.toNat := by
  by_contra hlt
  have htails : tails? b = some 0 := if_pos (Nat.lt_of_not_le hlt)
  simp [first?, htails] at h

/-! ### Writing what was read -/

/-- What was read from bytes, apart from those already read, is written as these bytes, and all of it can be written
on its own. -/
theorem flatMap_restore_decodeFrom (skip : Nat) (data : Bytes) :
    (decodeFrom skip data).flatMap restore = data.drop skip ∧ ∀ c ∈ decodeFrom skip data, IsPlain c := by
  -- the cases of the reading: the end, a byte already read, a sequence, a byte to be carried
  induction skip, data using decodeFrom.induct with
  | case1 skip => simp [decodeFrom]
  | case2 skip b rest ih => exact ih
  | case3 b rest c n hfirst ih =>
    obtain ⟨hform, hscalar⟩ := first?_spec hfirst
    rw [decodeFrom, hfirst]
    dsimp only
    constructor
    · rw [List.flatMap_cons, restore_of_byte?_eq_none (byte?_eq_none hscalar), ih.1, hform]
      exact List.take_append_drop (n + 1) (b :: rest)
    · intro d hd
      rcases List.mem_cons.1 hd with rfl | hd
      · exact .inl hscalar
      · exact ih.2 d hd
  | case4 b rest hfirst ih =>
    -- an ASCII byte would have been recognised, so the surrogate carries this byte
    have hbyte : (CodePoint.ofByte b).byte? = some b := CodePoint.byte?_ofByte (le_toNat_of_first?_eq_none hfirst)
    rw [decodeFrom, hfirst]
    dsimp only
    constructor
    · rw [List.flatMap_cons, ih.1, restore, hbyte]
      rfl
    · intro d hd
      rcases List.mem_cons.1 hd with rfl | hd
      · exact .inr (by rw [hbyte]; rfl)
      · exact ih.2 d hd

/-- Writing what was read from any bytes gives these bytes back. -/
theorem toWire_decodeLossless (data : Bytes) : toWire (decodeLossless data) = data := by
  obtain ⟨hbytes, hplain⟩ := flatMap_restore_decodeFrom 0 data
  rw [decodeLossless, toWire, if_pos hplain, hbytes, List.drop_zero]

/-- A high surrogate carries no byte, so none is read. -/
theorem not_isHigh_of_mem_decodeLossless {data : Bytes} {c : CodePoint} (h : c ∈ decodeLossless data) : ¬c.IsHigh := by
  intro hhigh
  have hbyte : c.byte? = none := by
    unfold CodePoint.IsHigh at hhigh
    rw [CodePoint.byte?, if_neg (by omega)]
  rcases (flatMap_restore_decodeFrom 0 data).2 c h with hscalar | hcarried
  · exact hscalar ((CodePoint.isSurrogate_iff c).2 (.inl hhigh))
  · rw [hbyte] at hcarried
    cases hcarried

/-! ### Reading what was written -/

/-- Bytes that are already read are passed over. -/
theorem decodeFrom_eq (skip : Nat) (data : Bytes) : decodeFrom skip data = decodeLossless (data.drop skip) := by
  induction skip generalizing data with
  | zero => rfl
  | succ skip ih =>
    cases data with
    | nil => rfl
    | cons b rest => exact ih rest

/-- A character is read from its form, whatever bytes follow. -/
theorem decodeLossless_encode_append {c : CodePoint} (h : ¬c.IsSurrogate) (rest : Bytes) :
    decodeLossless (encode c ++ rest) = c :: decodeLossless rest := by
  have hfirst := first?_encode h rest
  obtain ⟨b, s, hbs⟩ := List.exists_cons_of_ne_nil (encode_ne_nil c)
  rw [hbs, List.cons_append, List.length_cons, Nat.add_sub_cancel] at hfirst
  rw [hbs, decodeLossless, List.cons_append, decodeFrom, hfirst]
  dsimp only
  rw [decodeFrom_eq, List.drop_left]

/-- A text without surrogates is read from its form, whatever bytes follow. -/
theorem decodeLossless_encodeAll_append {t : Text} (h : t.IsScalar) (rest : Bytes) :
    decodeLossless (encodeAll t ++ rest) = t ++ decodeLossless rest := by
  induction t with
  | nil => rfl
  | cons c t ih =>
    have hrest := ih fun d hd => h d (List.mem_cons_of_mem c hd)
    rw [encodeAll_cons, List.append_assoc, decodeLossless_encode_append (h c List.mem_cons_self), hrest]
    rfl

theorem decodeLossless_encodeAll {t : Text} (h : t.IsScalar) : decodeLossless (encodeAll t) = t := by
  have happend := decodeLossless_encodeAll_append h []
  rwa [List.append_nil, show decodeLossless [] = [] from rfl, List.append_nil] at happend

/-! ### The start of what was read -/

/-- Reading neither makes nor hides a text without surrogates at the start. -/
theorem prefix_decodeLossless_iff {t : Text} (h : t.IsScalar) {data : Bytes} :
    t <+: decodeLossless data ↔ encodeAll t <+: data := by
  constructor
  · rintro ⟨more, hmore⟩
    have hbytes : (decodeLossless data).flatMap restore = data := (flatMap_restore_decodeFrom 0 data).1
    rw [← hmore, List.flatMap_append, flatMap_restore_of_isScalar h] at hbytes
    exact ⟨_, hbytes⟩
  · rintro ⟨rest, rfl⟩
    exact ⟨_, (decodeLossless_encodeAll_append h rest).symm⟩

/-- Bytes, and what is left of them after a whole well-formed character, or after one byte that begins none. -/
inductive DropsFirst : Bytes → Bytes → Prop
  | nothing : DropsFirst [] []
  | character {c : CodePoint} {rest : Bytes} : ¬c.IsSurrogate → DropsFirst (encode c ++ rest) rest
  | byte {b : UInt8} {rest : Bytes} : (∀ c : CodePoint, ¬c.IsSurrogate → ¬encode c <+: b :: rest) →
      DropsFirst (b :: rest) rest

/-- What is read without its first code point is read from the bytes that are left. -/
theorem exists_dropsFirst (data : Bytes) :
    ∃ rest, DropsFirst data rest ∧ (decodeLossless data).drop 1 = decodeLossless rest := by
  cases data with
  | nil => exact ⟨[], .nothing, rfl⟩
  | cons b rest =>
    cases hfirst : first? (b :: rest) with
    | some found =>
      obtain ⟨c, n⟩ := found
      obtain ⟨hform, hscalar⟩ := first?_spec hfirst
      have hdata : encode c ++ rest.drop n = b :: rest := by
        rw [hform]
        exact List.take_append_drop (n + 1) (b :: rest)
      refine ⟨rest.drop n, hdata ▸ .character hscalar, ?_⟩
      rw [← hdata, decodeLossless_encode_append hscalar]
      rfl
    | none =>
      have hnone : ∀ c : CodePoint, ¬c.IsSurrogate → ¬encode c <+: b :: rest := by
        rintro c hc ⟨more, hmore⟩
        rw [← hmore, first?_encode hc] at hfirst
        cases hfirst
      refine ⟨rest, .byte hnone, ?_⟩
      rw [decodeLossless, decodeFrom, hfirst]
      rfl

end WireCodec.Utf8
