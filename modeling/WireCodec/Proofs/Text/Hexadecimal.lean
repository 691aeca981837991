import WireCodec.Hex

/-!
# Hexadecimal texts

A hexadecimal digit names the last four bits of its number (`CodePoint.hex?_hexDigit`), and the digits of bytes are
read as these bytes (`Hex.decode_encode`).
-/

namespace WireCodec

namespace CodePoint

theorem val_hexDigit (n : Nat) :
    (0x30 ≤ (hexDigit n).val ∧ (hexDigit n).val ≤ 0x39) ∨ (0x61 ≤ (hexDigit n).val ∧ (hexDigit n).val ≤ 0x66) := by
  unfold hexDigit
  split
  · left; dsimp only; omega
  · right; dsimp only; omega

theorem hex?_hexDigit (n : Nat) : (hexDigit n).hex? = some (n % 16) := by
  unfold hexDigit
  split
  · rw [hex?, if_pos (by dsimp only; omega)]
    simp
  · rw [hex?, if_neg (by dsimp only; omega), if_pos (by dsimp only; omega)]
    simp

end CodePoint

theorem Text.exists_of_mem_hex {width n : Nat} {c : CodePoint} (h : c ∈ hex width n) :
    ∃ m, c = CodePoint.hexDigit m := by
  induction width generalizing n with
  | zero => exact absurd h List.not_mem_nil
  | succ width ih =>
    rcases List.mem_append.1 h with h | h
    · exact ih h
    · exact ⟨n, List.mem_singleton.1 h⟩

namespace Hex

theorem encode_cons (b : UInt8) (data : Bytes) :
    encode (b :: data) = CodePoint.hexDigit (b.toNat / 16) :: CodePoint.hexDigit b.toNat :: encode data := rfl

private theorem decodeFrom_encode (position : Nat) (data : Bytes) : decodeFrom position (encode data) = .ok data := by
  induction data generalizing position with
  | nil => rfl
  | cons b data ih =>
    have hb := b.toNat_lt
    have hval := CodePoint.val_hexDigit (b.toNat / 16)
    -- blanks are passed over between bytes only, and no digit is one
    have hblank : ¬(CodePoint.hexDigit (b.toNat / 16)).isAsciiBlank = true := by
      simp [CodePoint.isAsciiBlank]
      omega
    have hbyte : UInt8.ofNat (16 * (b.toNat / 16 % 16) + b.toNat % 16) = b := by
      have hsum : 16 * (b.toNat / 16 % 16) + b.toNat % 16 = b.toNat := by omega
      rw [hsum, UInt8.ofNat_toNat]
    rw [encode_cons, decodeFrom.eq_def]
    dsimp only
    rw [if_neg hblank]
    simp only [CodePoint.hex?_hexDigit, ih, hbyte]
    rfl

private theorem val_lt_of_mem_encode {data : Bytes} {c : CodePoint} (h : c ∈ encode data) : c.val < 0x80 := by
  obtain ⟨b, -, hc⟩ := List.mem_flatMap.1 h
  obtain ⟨n, rfl⟩ := Text.exists_of_mem_hex hc
  have := CodePoint.val_hexDigit n
  omega

/-- The digits of bytes are read as these bytes. -/
theorem decode_encode (data : Bytes) : decode (encode data) = .ok data := by
  have hascii : (encode data).findIdx? (0x80 ≤ ·.val) = none := by
    rw [List.findIdx?_eq_none_iff]
    intro c hc
    have := val_lt_of_mem_encode hc
    simp
    omega
  rw [decode, hascii]
  exact decodeFrom_encode 0 data

end Hex

end WireCodec
