import WireCodec.Proofs.Text.Lossless

/-!
# Carried bytes and stray surrogates

The surrogates `U+DC80 … U+DCFF` carry a byte each, all others are stray.  One stray surrogate in a text decides how its
carried bytes are written: without it as these bytes, with it in their generalized form, which is two bytes longer for
each of them (`length_encodeAll`).  A carried byte that is written as itself is read as itself again, unless with its
neighbours it makes up the form of a character.  So the texts that are read back are those that have no stray
surrogates and hide no character (`decodeLossless_flatMap_restore`, `not_hidesCharacter_decodeLossless`).
-/

namespace WireCodec

/-! ### Carriers -/

namespace CodePoint

variable {c : CodePoint}

/-- A surrogate that carries a byte. -/
def IsCarrier (c : CodePoint) : Prop := 0xDC80 ≤ c.val ∧ c.val ≤ 0xDCFF

/-- A surrogate that carries no byte. -/
def IsStray (c : CodePoint) : Prop := c.IsSurrogate ∧ ¬c.IsCarrier

instance (c : CodePoint) : Decidable c.IsCarrier := inferInstanceAs (Decidable (_ ∧ _))

instance (c : CodePoint) : Decidable c.IsStray := inferInstanceAs (Decidable (_ ∧ _))

theorem IsCarrier.isSurrogate (h : c.IsCarrier) : c.IsSurrogate := by
  unfold IsCarrier at h
  unfold IsSurrogate
  omega

theorem isCarrier_ofByte {b : UInt8} (h : 0x80 ≤ b.toNat) : (ofByte b).IsCarrier := by
  have hb := b.toNat_lt
  have hval : (ofByte b).val = 0xDC00 + b.toNat := rfl
  unfold IsCarrier
  omega

theorem IsCarrier.exists_ofByte (h : c.IsCarrier) : ∃ b : UInt8, 0x80 ≤ b.toNat ∧ c = ofByte b := by
  have hbyte : (UInt8.ofNat (c.val - 0xDC00)).toNat = c.val - 0xDC00 := by
    unfold IsCarrier at h
    exact UInt8.toNat_ofNat_of_lt' (show c.val - 0xDC00 < 2 ^ 8 by omega)
  unfold IsCarrier at h
  refine ⟨UInt8.ofNat (c.val - 0xDC00), by omega, ext ?_⟩
  show c.val = 0xDC00 + (UInt8.ofNat (c.val - 0xDC00)).toNat
  omega

theorem isSome_byte?_iff : c.byte?.isSome ↔ c.IsCarrier := by
  unfold byte? IsCarrier
  split <;> simp [*]

theorem byte?_eq_none_iff : c.byte? = none ↔ ¬c.IsCarrier := by
  rw [← Option.not_isSome_iff_eq_none, isSome_byte?_iff]

end CodePoint

namespace Text

variable {s t : Text}

/-- A text with a surrogate that carries no byte. -/
def HasStray (t : Text) : Prop := ∃ c ∈ t, c.IsStray

/-- A text with a surrogate that carries a byte. -/
def HasCarrier (t : Text) : Prop := ∃ c ∈ t, c.IsCarrier

instance (t : Text) : Decidable t.HasStray := inferInstanceAs (Decidable (∃ c ∈ t, _))

instance (t : Text) : Decidable t.HasCarrier := inferInstanceAs (Decidable (∃ c ∈ t, _))

theorem hasStray_cons {c : CodePoint} : HasStray (c :: t) ↔ c.IsStray ∨ t.HasStray := by
  simp only [HasStray, List.mem_cons, or_and_right, exists_or, exists_eq_left]

theorem hasStray_append : (s ++ t).HasStray ↔ s.HasStray ∨ t.HasStray := by
  simp only [HasStray, List.mem_append, or_and_right, exists_or]

end Text

namespace Utf8

variable {c : CodePoint} {t : Text}

/-! ### The two forms of a text -/

theorem isPlain_iff : IsPlain c ↔ ¬c.IsStray := by
  rw [IsPlain, CodePoint.isSome_byte?_iff, CodePoint.IsStray, not_and_or, not_not]

theorem forall_isPlain_iff : (∀ c ∈ t, IsPlain c) ↔ ¬t.HasStray := by
  simp only [isPlain_iff, Text.HasStray, not_exists, not_and]

theorem restore_ofByte {b : UInt8} (h : 0x80 ≤ b.toNat) : restore (.ofByte b) = [b] := by
  rw [restore, CodePoint.byte?_ofByte h]

theorem toWire_of_hasStray (h : t.HasStray) : toWire t = encodeAll t := by
  rw [toWire, if_neg fun hplain => forall_isPlain_iff.1 hplain h]

theorem toWire_of_not_hasStray (h : ¬t.HasStray) : toWire t = t.flatMap restore := by
  rw [toWire, if_pos (forall_isPlain_iff.2 h)]

/-- The generalized form of a carried byte takes three bytes in the place of one. -/
theorem length_encode_eq (c : CodePoint) :
    (encode c).length = (restore c).length + if c.IsCarrier then 2 else 0 := by
  by_cases h : c.IsCarrier
  · obtain ⟨b, hb, rfl⟩ := h.exists_ofByte
    unfold CodePoint.IsCarrier at h
    rw [restore_ofByte hb, length_encode, if_neg (by omega), if_neg (by omega), if_pos (by omega),
      if_pos (CodePoint.isCarrier_ofByte hb)]
    rfl
  · rw [restore_of_byte?_eq_none (CodePoint.byte?_eq_none_iff.2 h), if_neg h, Nat.add_zero]

theorem length_encodeAll (t : Text) :
    (encodeAll t).length = (t.flatMap restore).length + 2 * t.countP fun c => c.IsCarrier := by
  induction t with
  | nil => rfl
  | cons c t ih =>
    rw [encodeAll_cons, List.flatMap_cons, List.length_append, List.length_append, ih, length_encode_eq,
      List.countP_cons]
    simp only [decide_eq_true_eq]
    split <;> omega

/-- The two forms agree exactly on texts that carry no bytes. -/
theorem flatMap_restore_eq_iff : t.flatMap restore = encodeAll t ↔ ¬t.HasCarrier := by
  constructor
  · rintro h ⟨c, hc, hcarrier⟩
    have hlength := congrArg List.length h
    have hcount : 0 < t.countP fun c => c.IsCarrier := List.countP_pos_iff.2 ⟨c, hc, by simpa using hcarrier⟩
    rw [length_encodeAll] at hlength
    omega
  · intro h
    apply List.flatMap_congr
    intro c hc
    exact restore_of_byte?_eq_none (CodePoint.byte?_eq_none_iff.2 fun hcarrier => h ⟨c, hc, hcarrier⟩)

/-! ### Hidden characters -/

/-- A well-formed sequence of several bytes: the form of a character that is not ASCII. -/
def IsMultibyte (data : Bytes) : Prop := ∃ c : CodePoint, 0x80 ≤ c.val ∧ ¬c.IsSurrogate ∧ data = encode c

/-- The first byte of a form continues no other, and all bytes after it do. -/
theorem exists_encode_eq (c : CodePoint) : ∃ a s, encode c = a :: s ∧ ¬IsTail a ∧ ∀ b ∈ s, IsTail b := by
  have hc := c.isLt
  have hlead {n : Nat} (h : n < 0x80 ∨ 0xC0 ≤ n ∧ n < 0x100) : ¬IsTail (UInt8.ofNat n) := by
    unfold IsTail
    rw [UInt8.toNat_ofNat_of_lt' (show n < 2 ^ 8 by omega)]
    omega
  unfold encode
  split_ifs
  · exact ⟨_, _, rfl, hlead (by omega), by simp⟩
  · exact ⟨_, _, rfl, hlead (by omega), by simp [isTail_tail]⟩
  · exact ⟨_, _, rfl, hlead (by omega), by simp [isTail_tail]⟩
  · exact ⟨_, _, rfl, hlead (by omega), by simp [isTail_tail]⟩

theorem flatMap_restore_map_ofByte {s : Bytes} (h : ∀ b ∈ s, 0x80 ≤ b.toNat) :
    (s.map CodePoint.ofByte).flatMap restore = s := by
  induction s with
  | nil => rfl
  | cons b s ih =>
    rw [List.map_cons, List.flatMap_cons, restore_ofByte (h b List.mem_cons_self),
      ih fun a ha => h a (List.mem_cons_of_mem b ha)]
    rfl

/-- A code point that is not stray is a character or carries a byte. -/
theorem cases_of_not_isStray (h : ¬c.IsStray) :
    ¬c.IsSurrogate ∨ ∃ b : UInt8, 0x80 ≤ b.toNat ∧ c = CodePoint.ofByte b := by
  by_cases hsurrogate : c.IsSurrogate
  · exact .inr (CodePoint.IsCarrier.exists_ofByte (not_not.1 fun hcarrier => h ⟨hsurrogate, hcarrier⟩))
  · exact .inl hsurrogate

/-- Continuation bytes at the start of what is written are carried by the first code points of the text. -/
theorem isPrefix_map_ofByte {s : Bytes} (hs : ∀ b ∈ s, IsTail b) (ht : ¬t.HasStray) (h : s <+: t.flatMap restore) :
    s.map CodePoint.ofByte <+: t := by
  induction s generalizing t with
  | nil => exact List.nil_prefix
  | cons b s ih =>
    cases t with
    | nil => exact absurd (List.prefix_nil.1 h) (List.cons_ne_nil b s)
    | cons c t =>
      rw [Text.hasStray_cons, not_or] at ht
      rw [List.flatMap_cons] at h
      rcases cases_of_not_isStray ht.1 with hc | ⟨a, ha, rfl⟩
      · -- the form of a character begins with a byte that continues no other
        obtain ⟨a, tails, hform, hlead, -⟩ := exists_encode_eq c
        rw [restore_of_byte?_eq_none (byte?_eq_none hc), hform, List.cons_append, List.cons_prefix_cons] at h
        exact absurd (hs b List.mem_cons_self) (h.1 ▸ hlead)
      · rw [restore_ofByte ha, List.singleton_append, List.cons_prefix_cons] at h
        rw [List.map_cons, h.1, List.cons_prefix_cons]
        exact ⟨rfl, ih (fun x hx => hs x (List.mem_cons_of_mem b hx)) ht.2 h.2⟩

end Utf8

namespace Text

variable {t : Text}

/-- Code points next to each other that carry the bytes of one character. -/
def HidesCharacter (t : Text) : Prop :=
  ∃ s : Text, s <:+: t ∧ (∀ c ∈ s, c.IsCarrier) ∧ Utf8.IsMultibyte (s.filterMap CodePoint.byte?)

theorem filterMap_byte?_map_ofByte {s : Bytes} (h : ∀ b ∈ s, 0x80 ≤ b.toNat) :
    (s.map CodePoint.ofByte).filterMap CodePoint.byte? = s := by
  induction s with
  | nil => rfl
  | cons b s ih =>
    rw [List.map_cons, List.filterMap_cons_some (CodePoint.byte?_ofByte (h b List.mem_cons_self)),
      ih fun a ha => h a (List.mem_cons_of_mem b ha)]

theorem map_ofByte_filterMap_byte? (h : ∀ c ∈ t, c.IsCarrier) :
    (t.filterMap CodePoint.byte?).map CodePoint.ofByte = t := by
  induction t with
  | nil => rfl
  | cons c t ih =>
    obtain ⟨b, hb, rfl⟩ := (h c List.mem_cons_self).exists_ofByte
    rw [List.filterMap_cons_some (CodePoint.byte?_ofByte hb), List.map_cons,
      ih fun d hd => h d (List.mem_cons_of_mem _ hd)]

/-- Which character is hidden. -/
theorem hidesCharacter_iff :
    t.HidesCharacter ↔
      ∃ c : CodePoint, 0x80 ≤ c.val ∧ ¬c.IsSurrogate ∧ (Utf8.encode c).map CodePoint.ofByte <:+: t := by
  constructor
  · rintro ⟨s, hs, hcarriers, c, hc, hscalar, hform⟩
    refine ⟨c, hc, hscalar, ?_⟩
    rwa [← hform, map_ofByte_filterMap_byte? hcarriers]
  · rintro ⟨c, hc, hscalar, hslice⟩
    have hbytes : ∀ b ∈ Utf8.encode c, 0x80 ≤ b.toNat := fun b hb => Utf8.le_toNat_of_mem_encode hc hb
    refine ⟨_, hslice, fun d hd => ?_, c, hc, hscalar, filterMap_byte?_map_ofByte hbytes⟩
    obtain ⟨b, hb, rfl⟩ := List.mem_map.1 hd
    exact CodePoint.isCarrier_ofByte (hbytes b hb)

end Text

namespace Utf8

variable {t : Text}

theorem not_hasStray_decodeLossless (data : Bytes) : ¬(decodeLossless data).HasStray :=
  forall_isPlain_iff.1 (flatMap_restore_decodeFrom 0 data).2

/-- No character is hidden in what is read. -/
theorem not_hidesCharacter_decodeLossless (data : Bytes) : ¬(decodeLossless data).HidesCharacter := by
  rw [Text.hidesCharacter_iff]
  rintro ⟨c, hc, hscalar, hslice⟩
  have hbytes : ∀ b ∈ encode c, 0x80 ≤ b.toNat := fun b hb => le_toNat_of_mem_encode hc hb
  obtain ⟨a, s, hform, -⟩ := exists_encode_eq c
  suffices hfrom : ∀ skip, ¬(encode c).map CodePoint.ofByte <:+: decodeFrom skip data from hfrom 0 hslice
  clear hslice
  intro skip hslice
  induction skip, data using decodeFrom.induct with
  | case1 skip =>
    rw [decodeFrom, List.infix_nil, List.map_eq_nil_iff] at hslice
    exact encode_ne_nil c hslice
  | case2 skip b rest ih => exact ih hslice
  | case3 b rest d n hfirst ih =>
    rw [decodeFrom, hfirst] at hslice
    dsimp only at hslice
    rcases List.infix_cons_iff.1 hslice with hstart | hrest
    · -- a carrier is no character
      rw [hform, List.map_cons, List.cons_prefix_cons] at hstart
      have ha : 0x80 ≤ a.toNat := hbytes a (hform ▸ List.mem_cons_self)
      exact (first?_spec hfirst).2 (hstart.1 ▸ (CodePoint.isCarrier_ofByte ha).isSurrogate)
    · exact ih hrest
  | case4 b rest hfirst ih =>
    have hread : decodeFrom 0 (b :: rest) = CodePoint.ofByte b :: decodeFrom 0 rest := by
      rw [decodeFrom, hfirst]
    rw [hread] at hslice
    rcases List.infix_cons_iff.1 hslice with hstart | hrest
    · -- the bytes begin with the form of the character, which would have been recognised
      obtain ⟨more, hmore⟩ := hstart
      have hdata : (decodeFrom 0 (b :: rest)).flatMap restore = b :: rest := (flatMap_restore_decodeFrom 0 _).1
      rw [hread, ← hmore, List.flatMap_append, flatMap_restore_map_ofByte hbytes] at hdata
      rw [← hdata, first?_encode hscalar] at hfirst
      cases hfirst
    · exact ih hrest

/-- A carried byte begins no well-formed sequence, unless that is the form of a hidden character. -/
theorem first?_carried {b : UInt8} (hb : 0x80 ≤ b.toNat) (hstray : ¬t.HasStray)
    (hhides : ¬Text.HidesCharacter (.ofByte b :: t)) : first? (b :: t.flatMap restore) = none := by
  by_contra hsome
  obtain ⟨⟨c, n⟩, hfirst⟩ := Option.ne_none_iff_exists'.1 hsome
  obtain ⟨htake, hscalar⟩ := first?_spec hfirst
  obtain ⟨a, s, hform, -, htails⟩ := exists_encode_eq c
  rw [hform, List.take_succ_cons, List.cons.injEq] at htake
  obtain ⟨rfl, htake⟩ := htake
  have hc : 0x80 ≤ c.val := by
    by_contra hlt
    rw [encode_of_lt (Nat.lt_of_not_le hlt), List.cons.injEq] at hform
    rw [← hform.1, UInt8.toNat_ofNat_of_lt' (show c.val < 2 ^ 8 by omega)] at hb
    exact hlt hb
  refine hhides (Text.hidesCharacter_iff.2 ⟨c, hc, hscalar, List.IsPrefix.isInfix ?_⟩)
  rw [hform, List.map_cons, List.cons_prefix_cons]
  exact ⟨rfl, isPrefix_map_ofByte htails hstray (htake ▸ List.take_prefix n _)⟩

/-- A text without stray surrogates and hidden characters is read from what is written for it. -/
theorem decodeLossless_flatMap_restore (hstray : ¬t.HasStray) (hhides : ¬t.HidesCharacter) :
    decodeLossless (t.flatMap restore) = t := by
  induction t with
  | nil => rfl
  | cons c t ih =>
    rw [Text.hasStray_cons, not_or] at hstray
    have hread := ih hstray.2 fun ⟨s, hs, h⟩ => hhides ⟨s, List.infix_cons hs, h⟩
    rw [List.flatMap_cons]
    rcases cases_of_not_isStray hstray.1 with hc | ⟨b, hb, rfl⟩
    · rw [restore_of_byte?_eq_none (byte?_eq_none hc), decodeLossless_encode_append hc, hread]
    · rw [restore_ofByte hb, List.singleton_append, decodeLossless, decodeFrom, first?_carried hb hstray.2 hhides]
      exact congrArg _ hread

/-- Two carried bytes that hide a character are read as it. -/
example : decodeLossless (toWire [.ofByte 0xC3, .ofByte 0xA9]) = [.ofChar 'é'] := by decide

end Utf8

end WireCodec
