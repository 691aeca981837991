import Mathlib.Data.List.Basic
import WireCodec.Proofs.Text.Utf8

/-!
# Texts on the wire

A text goes to the wire code point by code point: one form, `formOf`, is chosen for the whole text, and only the
set of its code points decides which (`formOf_congr`).  In either form an ASCII character is one byte and no
other code point has an ASCII byte, so bytes below `0x80` always are the characters they look like.
-/

namespace WireCodec

/-- A text without surrogates. -/
def Text.IsScalar (t : Text) : Prop := ∀ c ∈ t, ¬c.IsSurrogate

instance (t : Text) : Decidable t.IsScalar := inferInstanceAs (Decidable (∀ c ∈ t, ¬c.IsSurrogate))

namespace Utf8

/-- The bytes of each code point of a text: carried bytes restored, or all in their generalized form. -/
def formOf (t : Text) : CodePoint → Bytes := if ∀ c ∈ t, IsPlain c then restore else encode

theorem toWire_eq_flatMap (t : Text) : toWire t = t.flatMap (formOf t) := by
  unfold toWire formOf encodeAll
  split <;> rfl

/-- Texts of the same code points are written in the same form. -/
theorem formOf_congr {s t : Text} (h : ∀ c, c ∈ s ↔ c ∈ t) : formOf s = formOf t := by
  simp only [formOf, h]

/-! ### Forms and ASCII -/

theorem byte?_eq_none_of_lt {c : CodePoint} (h : c.val < 0x80) : c.byte? = none := by
  rw [CodePoint.byte?, if_neg (by omega)]

theorem byte?_eq_none {c : CodePoint} (h : ¬c.IsSurrogate) : c.byte? = none := by
  unfold CodePoint.IsSurrogate at h
  rw [CodePoint.byte?, if_neg (by omega)]

private theorem le_toNat_of_byte? {c : CodePoint} {b : UInt8} (h : c.byte? = some b) : 0x80 ≤ b.toNat := by
  unfold CodePoint.byte? at h
  split at h
  · obtain rfl := Option.some.inj h
    rw [UInt8.toNat_ofNat_of_lt' (show c.val - 0xDC00 < 2 ^ 8 by omega)]
    omega
  · cases h

theorem restore_of_byte?_eq_none {c : CodePoint} (h : c.byte? = none) : restore c = encode c := by
  rw [restore, h]

/-- An ASCII character is one byte in either form. -/
theorem formOf_of_lt (t : Text) {c : CodePoint} (h : c.val < 0x80) : formOf t c = [UInt8.ofNat c.val] := by
  unfold formOf
  split
  · rw [restore_of_byte?_eq_none (byte?_eq_none_of_lt h), encode_of_lt h]
  · exact encode_of_lt h

/-- A text that ends with an ASCII character is written as bytes that end with its number. -/
theorem getLast?_toWire_append (t : Text) {c : CodePoint} (h : c.val < 0x80) :
    (toWire (t ++ [c])).getLast? = some (UInt8.ofNat c.val) := by
  rw [toWire_eq_flatMap, List.flatMap_append, List.flatMap_cons, formOf_of_lt _ h]
  simp

/-- A code point above ASCII has no ASCII byte in either form. -/
theorem le_toNat_of_mem_formOf {t : Text} {c : CodePoint} (h : 0x80 ≤ c.val) {b : UInt8}
    (hb : b ∈ formOf t c) : 0x80 ≤ b.toNat := by
  unfold formOf at hb
  split at hb
  · unfold restore at hb
    split at hb
    · rename_i a ha
      obtain rfl := List.mem_singleton.1 hb
      exact le_toNat_of_byte? ha
    · exact le_toNat_of_mem_encode h hb
  · exact le_toNat_of_mem_encode h hb

theorem formOf_ne_nil (t : Text) (c : CodePoint) : formOf t c ≠ [] := by
  unfold formOf
  split
  · unfold restore
    split
    · simp
    · exact encode_ne_nil c
  · exact encode_ne_nil c

theorem toWire_ne_nil {t : Text} (h : t ≠ []) : toWire t ≠ [] := by
  obtain ⟨c, rest, rfl⟩ := List.exists_cons_of_ne_nil h
  rw [toWire_eq_flatMap, List.flatMap_cons]
  exact List.append_ne_nil_of_left_ne_nil (formOf_ne_nil _ c) _

/-- An ASCII byte is written only for the character with its number. -/
theorem val_eq_of_mem_formOf {t : Text} {c : CodePoint} {b : UInt8} (hb : b ∈ formOf t c) (h : b.toNat < 0x80) :
    c.val = b.toNat := by
  by_cases hlt : c.val < 0x80
  · rw [formOf_of_lt t hlt, List.mem_singleton] at hb
    rw [hb, UInt8.toNat_ofNat_of_lt' (show c.val < 2 ^ 8 by omega)]
  · have := le_toNat_of_mem_formOf (by omega) hb
    omega

theorem exists_mem_of_mem_toWire {t : Text} {b : UInt8} (hb : b ∈ toWire t) (h : b.toNat < 0x80) :
    ∃ c ∈ t, c.val = b.toNat := by
  rw [toWire_eq_flatMap] at hb
  obtain ⟨c, hc, hbc⟩ := List.mem_flatMap.1 hb
  exact ⟨c, hc, val_eq_of_mem_formOf hbc h⟩

/-! ### Texts without surrogates -/

/-- Without surrogates there are no carried bytes to be restored. -/
theorem flatMap_restore_of_isScalar {t : Text} (h : t.IsScalar) : t.flatMap restore = encodeAll t := by
  apply List.flatMap_congr
  intro c hc
  exact restore_of_byte?_eq_none (byte?_eq_none (h c hc))

/-- A text without surrogates is written in its generalized form. -/
theorem toWire_of_isScalar {t : Text} (h : t.IsScalar) : toWire t = encodeAll t := by
  unfold toWire
  split
  · exact flatMap_restore_of_isScalar h
  · rfl

end Utf8

end WireCodec
