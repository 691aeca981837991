import WireCodec.Proofs.Frame.Parameters
import WireCodec.Proofs.Text.Carriers

/-!
# Pieces of a frame

The command and each parameter are the pieces of a frame, and the form in which a piece is written is chosen by its own
code points.  Escaping does not change the choice, and what it doubles are the reserved bytes and no others
(`toWire_escape_exactly`).  If two texts are written as one, the choice is made for both together, so that a stray
surrogate in one of them spoils the carried bytes of the other; in all other cases the bytes of the two are simply put
together, as those of the pieces of a frame always are (`toWire_append_iff`).
-/

namespace WireCodec

/-! ### Texts put together -/

/-- A text with a stray surrogate spoils one that without it is written with its carried bytes restored. -/
def Text.Spoils (s t : Text) : Prop := s.HasStray ∧ ¬t.HasStray ∧ t.HasCarrier

instance (s t : Text) : Decidable (s.Spoils t) := inferInstanceAs (Decidable (_ ∧ _))

namespace Utf8

variable {s t : Text}

theorem toWire_append_of_uniform (h : s.HasStray ↔ t.HasStray) : toWire (s ++ t) = toWire s ++ toWire t := by
  by_cases hs : s.HasStray
  · rw [toWire_of_hasStray (Text.hasStray_append.2 (.inl hs)), toWire_of_hasStray hs, toWire_of_hasStray (h.1 hs),
      encodeAll_append]
  · have ht := mt h.2 hs
    rw [toWire_of_not_hasStray (mt Text.hasStray_append.1 (not_or.2 ⟨hs, ht⟩)), toWire_of_not_hasStray hs,
      toWire_of_not_hasStray ht, List.flatMap_append]

/-- If only one text has stray surrogates, the other is to be written in its generalized form. -/
theorem toWire_append_iff_of_left (hs : s.HasStray) (ht : ¬t.HasStray) :
    toWire (s ++ t) = toWire s ++ toWire t ↔ ¬t.HasCarrier := by
  rw [toWire_of_hasStray (Text.hasStray_append.2 (.inl hs)), toWire_of_hasStray hs, toWire_of_not_hasStray ht,
    encodeAll_append, List.append_right_inj, eq_comm, flatMap_restore_eq_iff]

theorem toWire_append_iff_of_right (hs : ¬s.HasStray) (ht : t.HasStray) :
    toWire (s ++ t) = toWire s ++ toWire t ↔ ¬s.HasCarrier := by
  rw [toWire_of_hasStray (Text.hasStray_append.2 (.inr ht)), toWire_of_not_hasStray hs, toWire_of_hasStray ht,
    encodeAll_append, List.append_left_inj, eq_comm, flatMap_restore_eq_iff]

/-- A carried byte is written as itself exactly in a text without stray surrogates. -/
theorem formOf_ofByte_iff {b : UInt8} (hb : 0x80 ≤ b.toNat) : formOf t (.ofByte b) = [b] ↔ ¬t.HasStray := by
  unfold formOf
  rw [← forall_isPlain_iff]
  split
  · next h => exact iff_of_true (restore_ofByte hb) h
  · next h =>
    refine iff_of_false (fun hform => ?_) h
    have hlength := length_encode_eq (.ofByte b)
    rw [if_pos (CodePoint.isCarrier_ofByte hb), hform, restore_ofByte hb] at hlength
    cases hlength

end Utf8

namespace Frame

/-! ### Escaped pieces -/

/-- Escaping the code points of a parameter doubles its reserved bytes and changes no other.  The escaped value is
written in the form of the value, and in this form the reserved bytes are those of the reserved code points. -/
theorem toWire_escape_exactly (p : Text) :
    Utf8.toWire (escape p) = double (Utf8.toWire p) ∧
      ((∀ c ∈ escape p, Utf8.IsPlain c) ↔ ∀ c ∈ p, Utf8.IsPlain c) ∧
      ∀ c ∈ p, ∀ b, b = eot ∨ b = enq → (b ∈ Utf8.formOf p c ↔ c.val = b.toNat) := by
  refine ⟨toWire_escape p, by simp only [mem_escape], fun c hc b hb => ?_⟩
  have hlt : b.toNat < 0x80 := by
    rcases hb with rfl | rfl <;> decide
  constructor
  · exact fun hmem => Utf8.val_eq_of_mem_formOf hmem hlt
  · intro hval
    rw [Utf8.formOf_of_lt p (hval ▸ hlt), hval, UInt8.ofNat_toNat]
    exact List.mem_singleton_self b

/-- Both reserved code points, with a stray surrogate and a carrier whose numbers end like theirs. -/
def lookalikes : Text := [.ofChar '\x04', .ofByte 0x04, .ofByte 0x85, delimiter]

theorem toWire_escape_lookalikes :
    Utf8.toWire (escape lookalikes) = [0x04, 0x04, 0xED, 0xB0, 0x84, 0xED, 0xB2, 0x85, 0x05, 0x05] ∧
      eot ∉ Utf8.formOf lookalikes (.ofByte 0x04) := by
  obtain ⟨hdouble, -, hreserved⟩ := toWire_escape_exactly lookalikes
  have hbytes : Utf8.toWire lookalikes = [0x04, 0xED, 0xB0, 0x84, 0xED, 0xB2, 0x85, 0x05] := by decide
  refine ⟨by rw [hdouble, hbytes]; rfl, fun hmem => ?_⟩
  exact absurd ((hreserved (.ofByte 0x04) (by decide) eot (.inl rfl)).1 hmem) (by decide)

/-! ### Frames by their pieces -/

/-- Every code point of a frame is written in the form of the piece that it is in. -/
theorem build_eq_flatMap (command : Text) (ps : List Text) :
    build command ps =
      command.flatMap (Utf8.formOf command) ++ (ps.flatMap fun p => enq :: (escape p).flatMap (Utf8.formOf p)) ++
        [eot] := by
  have hparameter : ∀ p, parameterBytes p = enq :: (escape p).flatMap (Utf8.formOf p) := fun p => by
    rw [parameterBytes, Utf8.toWire_eq_flatMap, Utf8.formOf_congr fun c => mem_escape (p := p)]
  rw [build, Utf8.toWire_eq_flatMap, funext hparameter]

/-- Two texts are written as one by putting their bytes together, except when one spoils the other.  The pieces of a
frame are written apart: a carried byte is restored exactly if its own piece has no stray surrogates. -/
theorem toWire_append_iff :
    (∀ s t : Text, Utf8.toWire (s ++ t) = Utf8.toWire s ++ Utf8.toWire t ↔ ¬(s.Spoils t ∨ t.Spoils s)) ∧
      (∀ (command : Text) (ps : List Text),
        build command ps =
          command.flatMap (Utf8.formOf command) ++ (ps.flatMap fun p => enq :: (escape p).flatMap (Utf8.formOf p)) ++
            [eot]) ∧
      ∀ (piece : Text) (b : UInt8), 0x80 ≤ b.toNat → (Utf8.formOf piece (.ofByte b) = [b] ↔ ¬piece.HasStray) := by
  refine ⟨fun s t => ?_, build_eq_flatMap, fun piece b hb => Utf8.formOf_ofByte_iff hb⟩
  unfold Text.Spoils
  by_cases hs : s.HasStray <;> by_cases ht : t.HasStray
  · simp [Utf8.toWire_append_of_uniform (iff_of_true hs ht), hs, ht]
  · simp [Utf8.toWire_append_iff_of_left hs ht, hs, ht]
  · simp [Utf8.toWire_append_iff_of_right hs ht, hs, ht]
  · simp [Utf8.toWire_append_of_uniform (iff_of_false hs ht), hs, ht]

/-- A stray surrogate after a carried byte spoils it in one text, and does not as the next piece of a frame. -/
theorem toWire_append_spoiled :
    Utf8.toWire ([.ofByte 0xFF] ++ [⟨0xD800, by decide⟩]) ≠
        Utf8.toWire [.ofByte 0xFF] ++ Utf8.toWire [⟨0xD800, by decide⟩] ∧
      build [.ofByte 0xFF] [[⟨0xD800, by decide⟩]] = [0xFF, 0x05, 0xED, 0xA0, 0x80, 0x04] ∧
      Utf8.formOf [.ofByte 0xFF] (.ofByte 0xFF) = [0xFF] := by
  obtain ⟨happend, hbuild, hform⟩ := toWire_append_iff
  refine ⟨(happend _ _).not.2 (not_not.2 (.inr (by decide))), ?_, (hform _ 0xFF (by decide)).2 (by decide)⟩
  rw [hbuild]
  decide

end Frame

end WireCodec
