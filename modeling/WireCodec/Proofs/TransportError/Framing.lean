import WireCodec.Proofs.Frame.Parameters
import WireCodec.Proofs.Json.ReadBack
import WireCodec.TransportError.Wire

/-!
# Errors inside frames

The line of an error is printable ASCII, whatever code points and numbers are in the error.  So it stands in a frame as it
is, no delimiter comes up in it, and a frame with errors as its parameters can be split at the delimiters
(`splitOn_build_errors`), as any frame can whose parameters are free of reserved code points (`splitOn_build`).
-/

namespace WireCodec

/-! ### Parameters that need no escapes -/

namespace Frame

private theorem isPiece_of_not_isReserved {p : Text} (h : ∀ c ∈ p, ¬IsReserved c) : IsPiece p :=
  fun hmem => h delimiter hmem (.inr rfl)

private theorem splitOn_parameters {command : Text} (hcommand : IsPiece command) {ps : List Text}
    (hps : ∀ p ∈ ps, ∀ c ∈ p, ¬IsReserved c) :
    (Utf8.toWire command ++ ps.flatMap parameterBytes).splitOn enq = Utf8.toWire command :: ps.map Utf8.toWire := by
  induction ps generalizing command with
  | nil =>
    rw [List.flatMap_nil, List.append_nil, List.splitOn_eq_singleton (enq_notMem_toWire hcommand)]
    rfl
  | cons p ps ih =>
    have hp := hps p List.mem_cons_self
    -- after the delimiter a parameter stands where the command stood
    have hrest := ih (isPiece_of_not_isReserved hp) fun q hq => hps q (List.mem_cons_of_mem p hq)
    rw [List.flatMap_cons, parameterBytes, escape_of_not_isReserved hp, List.cons_append,
      List.splitOn_append_cons_self_of_not_mem (enq_notMem_toWire hcommand), hrest]
    rfl

/-- A frame without its last byte, whose parameters are free of reserved code points, is split at the delimiters into
the command and the parameters. -/
theorem splitOn_build {command : Text} (hcommand : IsPiece command) {ps : List Text}
    (hps : ∀ p ∈ ps, ∀ c ∈ p, ¬IsReserved c) :
    (build command ps).dropLast.splitOn enq = Utf8.toWire command :: ps.map Utf8.toWire := by
  have hdrop : (build command ps).dropLast = Utf8.toWire command ++ ps.flatMap parameterBytes := List.dropLast_concat
  rw [hdrop, splitOn_parameters hcommand hps]

end Frame

/-! ### Errors as parameters -/

namespace TransportError

theorem isPrintableAscii_of_mem_serializeText {e : TransportError} {c : CodePoint} (h : c ∈ e.serializeText) :
    Json.IsPrintableAscii c := by
  have hspacing : ∀ c ∈ Json.Spacing.compact.comma ++ Json.Spacing.compact.colon, Json.IsPrintableAscii c := by decide
  rcases Json.mem_write h with hc | hc | hc
  · exact hc
  · exact hspacing c (List.mem_append_left _ hc)
  · exact hspacing c (List.mem_append_right _ hc)

private theorem isScalar_serializeText (e : TransportError) : e.serializeText.IsScalar :=
  Json.isScalar_write Json.Spacing.isBlank_compact e.toJson

private theorem toWire_serializeText (e : TransportError) : Utf8.toWire e.serializeText = e.serialize :=
  Utf8.toWire_of_isScalar (isScalar_serializeText e)

theorem decodeStrict_serialize (e : TransportError) : Utf8.decodeStrict false e.serialize = .ok e.serializeText :=
  Utf8.decodeStrict_encodeAll (.inr (isScalar_serializeText e))

/-- Every byte of an error on the wire is a space or a visible character of ASCII. -/
theorem toNat_of_mem_serialize {e : TransportError} {b : UInt8} (h : b ∈ e.serialize) :
    0x20 ≤ b.toNat ∧ b.toNat ≤ 0x7E := by
  obtain ⟨c, hc, hb⟩ := List.mem_flatMap.1 h
  have hprintable : 0x20 ≤ c.val ∧ c.val ≤ 0x7E := isPrintableAscii_of_mem_serializeText hc
  rw [Utf8.encode_of_lt (by omega), List.mem_singleton] at hb
  rw [hb, UInt8.toNat_ofNat_of_lt' (show c.val < 2 ^ 8 by omega)]
  exact hprintable

private theorem not_isReserved_of_mem_serializeText {e : TransportError} {c : CodePoint} (h : c ∈ e.serializeText) :
    ¬Frame.IsReserved c := by
  have hprintable : 0x20 ≤ c.val ∧ c.val ≤ 0x7E := isPrintableAscii_of_mem_serializeText h
  unfold Frame.IsReserved
  omega

/-- The bytes of an error are printable ASCII and read as its line.  A frame without its last byte, which carries errors
after a command without delimiters, is split at the delimiters into the bytes of the command and those of the errors, in
their order and without escapes. -/
theorem splitOn_build_errors :
    (∀ e : TransportError, (∀ b ∈ e.serialize, 0x20 ≤ b.toNat ∧ b.toNat ≤ 0x7E) ∧
      Utf8.decodeStrict false e.serialize = .ok e.serializeText) ∧
    ∀ (command : Text) (errors : List TransportError), Frame.IsPiece command →
      (Frame.build command (errors.map serializeText)).dropLast.splitOn Frame.enq =
        Utf8.toWire command :: errors.map serialize := by
  refine ⟨fun e => ⟨fun b hb => toNat_of_mem_serialize hb, decodeStrict_serialize e⟩, fun command errors hcommand => ?_⟩
  have hplain : ∀ p ∈ errors.map serializeText, ∀ c ∈ p, ¬Frame.IsReserved c := by
    intro p hp c hc
    obtain ⟨e, -, rfl⟩ := List.mem_map.1 hp
    exact not_isReserved_of_mem_serializeText hc
  rw [Frame.splitOn_build hcommand hplain, List.map_map]
  congr 1
  exact List.map_congr_left fun e _ => toWire_serializeText e

/-- An error with delimiters, a line feed, a character above ASCII and a surrogate in its message, and with delimiters and
the last character of ASCII in the names and texts of its details. -/
def delimited : TransportError :=
  ⟨.queryError, [⟨0x04, by decide⟩, Frame.delimiter, .ofChar '\n', ⟨0x1F600, by decide⟩, ⟨0xDC04, by decide⟩],
    [([Frame.delimiter, ⟨0x7F, by decide⟩], .arr [.str [Frame.delimiter, ⟨0x04, by decide⟩], .float .nan, .int (-1)])],
    true⟩

theorem splitOn_build_delimited :
    Frame.IsPiece [⟨0x04, by decide⟩, ⟨0xD805, by decide⟩] ∧
      (Frame.build [⟨0x04, by decide⟩, ⟨0xD805, by decide⟩]
          [delimited.serializeText, bridgeBusy.serializeText]).dropLast.splitOn Frame.enq =
        [Utf8.toWire [⟨0x04, by decide⟩, ⟨0xD805, by decide⟩], delimited.serialize, bridgeBusy.serialize] := by
  have hpiece : Frame.IsPiece [⟨0x04, by decide⟩, ⟨0xD805, by decide⟩] := by decide
  exact ⟨hpiece, splitOn_build_errors.2 _ [delimited, bridgeBusy] hpiece⟩

end TransportError

end WireCodec
