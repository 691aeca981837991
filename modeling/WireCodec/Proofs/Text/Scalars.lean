import WireCodec.Proofs.Json.Values
import WireCodec.Proofs.Text.Decimal
import WireCodec.Proofs.Text.Hexadecimal
import WireCodec.Proofs.Text.Lossless
import WireCodec.Text.Quoted

/-!
# Texts without surrogates

What messages are made of holds no surrogates: words, numbers and quoted texts, whatever is quoted
(`isScalar_quoted`).  A text that was read from bytes may hold low surrogates, but no high ones
(`hasNoHigh_decodeLossless`).
-/

namespace WireCodec

namespace Text

variable {s t : Text}

/-! ### Words and numbers -/

theorem isScalar_of_val_lt (h : ∀ c ∈ t, c.val < 0x80) : t.IsScalar := by
  intro c hc
  have hlt := h c hc
  unfold CodePoint.IsSurrogate
  omega

@[simp]
theorem isScalar_append : (s ++ t).IsScalar ↔ s.IsScalar ∧ t.IsScalar := List.forall_mem_append

/-- Characters are no surrogates. -/
@[simp]
theorem isScalar_ofString (s : String) : (ofString s).IsScalar := by
  intro c hc
  obtain ⟨d, -, rfl⟩ := List.mem_map.1 hc
  have hval : (CodePoint.ofChar d).val = d.val.toNat := rfl
  have hvalid : d.val.toNat < 0xD800 ∨ 0xDFFF < d.val.toNat ∧ d.val.toNat < 0x110000 := d.valid
  unfold CodePoint.IsSurrogate
  omega

@[simp]
theorem isScalar_ofNat (n : Nat) : (ofNat n).IsScalar := by
  refine isScalar_of_val_lt fun c hc => ?_
  have hdigit := CodePoint.isDigit_iff.1 (isDigit_of_mem_ofNat hc)
  omega

@[simp]
theorem isScalar_ofInt (n : Int) : (ofInt n).IsScalar := by
  cases n with
  | ofNat n => exact isScalar_ofNat n
  | negSucc n => simp [ofInt]

@[simp]
theorem isScalar_hex (width n : Nat) : (hex width n).IsScalar := by
  refine isScalar_of_val_lt fun c hc => ?_
  obtain ⟨m, rfl⟩ := exists_of_mem_hex hc
  have hval := CodePoint.val_hexDigit m
  omega

/-! ### Quoted texts -/

private theorem not_isSurrogate_of_isPrintable {c : CodePoint} (h : c.isPrintable = true) : ¬c.IsSurrogate := by
  intro hsurrogate
  unfold CodePoint.IsSurrogate at hsurrogate
  -- surrogates lie in one of the ranges
  have hrange : (0xD7FC, 0xF8FF) ∈ CodePoint.unprintableRanges := by decide +kernel
  simp only [CodePoint.isPrintable, Bool.and_eq_true, Bool.not_eq_true', List.any_eq_false] at h
  have hout := h.2 _ hrange
  simp at hout
  omega

private theorem isScalar_singleton {c : CodePoint} (h : ¬c.IsSurrogate) : Text.IsScalar [c] := by
  intro d hd
  rwa [List.mem_singleton.1 hd]

private theorem quoteFor_val_lt (t : Text) : (quoteFor t).val < 0x80 := by
  unfold quoteFor
  split <;> decide

private theorem isScalar_escapeFor {quote : CodePoint} (hquote : quote.val < 0x80) (c : CodePoint) :
    (escapeFor quote c).IsScalar := by
  unfold escapeFor
  split_ifs with hself _ _ _ hprintable
  · have hc : c.val < 0x80 := by
      rcases hself with rfl | hval
      · exact hquote
      · omega
    refine isScalar_of_val_lt fun d hd => ?_
    rcases List.mem_cons.1 hd with rfl | hd
    · decide
    · rwa [List.mem_singleton.1 hd]
  · exact isScalar_ofString _
  · exact isScalar_ofString _
  · exact isScalar_ofString _
  · exact isScalar_singleton (not_isSurrogate_of_isPrintable hprintable)
  -- the three escapes by number
  all_goals simp

/-- Whatever is quoted, surrogates in it are written by their numbers. -/
@[simp]
theorem isScalar_quoted (t : Text) : (quoted t).IsScalar := by
  have hquote : Text.IsScalar [quoteFor t] := by
    refine isScalar_of_val_lt fun c hc => ?_
    rw [List.mem_singleton.1 hc]
    exact quoteFor_val_lt t
  have hbody : Text.IsScalar (t.flatMap (escapeFor (quoteFor t))) := by
    intro c hc
    obtain ⟨d, -, hd⟩ := List.mem_flatMap.1 hc
    exact isScalar_escapeFor (quoteFor_val_lt t) d c hd
  exact isScalar_append.2 ⟨isScalar_append.2 ⟨hquote, hbody⟩, hquote⟩

/-! ### Texts without high surrogates -/

theorem IsScalar.hasNoHigh (h : t.IsScalar) : t.HasNoHigh := fun c hc hhigh =>
  h c hc ((CodePoint.isSurrogate_iff c).2 (.inl hhigh))

theorem HasNoHigh.append (hs : s.HasNoHigh) (ht : t.HasNoHigh) : (s ++ t).HasNoHigh := List.forall_mem_append.2 ⟨hs, ht⟩

theorem HasNoHigh.drop (h : t.HasNoHigh) (n : Nat) : Text.HasNoHigh (t.drop n) := fun c hc =>
  h c (List.mem_of_mem_drop hc)

end Text

theorem Utf8.hasNoHigh_decodeLossless (data : Bytes) : (decodeLossless data).HasNoHigh := fun _ hc =>
  not_isHigh_of_mem_decodeLossless hc

end WireCodec
