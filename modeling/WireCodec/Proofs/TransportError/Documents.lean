import Mathlib.Data.List.Permutation
import WireCodec.Proofs.Json.DepthLimit
import WireCodec.Proofs.Text.Documents
import WireCodec.TransportError.Wire

/-!
# Errors in documents of any encoding

An error may come as a text or as the bytes of one.  For a text that begins like an object it makes no difference
whether it comes as such or encoded, with a byte-order mark or without one: the same value is read, and a text that is
refused is refused at the same place (`readBytes_encodeAll`), so that the same error is read or the same reason is given
(`deserializeBytes_encodeAll`).
-/

namespace WireCodec

/-! ### Documents as texts -/

namespace Json

/-- Bytes are read like the text that they are decoded to, if this has no mark of its own. -/
theorem readBytes_of_decodeDocument (limits : Limits) {data : Bytes} {t : Text} (h : decodeDocument data = .ok t)
    (hmark : ¬startsWithMark t = true) : readBytes limits data = (read limits t).mapError .text := by
  rw [readBytes, h, read_of_no_mark hmark]
  show (document limits t).mapError _ = _
  cases document limits t <;> rfl

theorem not_startsWithMark_of_beginsAscii {t : Text} (h : t.BeginsAscii) : ¬startsWithMark t = true := by
  obtain ⟨c, d, rest, rfl, hc, -⟩ := Text.beginsAscii_iff.1 h
  have hne : c.val ≠ 0xFEFF := by omega
  simpa [startsWithMark] using hne

/-- A text is read alike as a text and from its bytes in any encoding. -/
theorem readBytes_encodeAll (limits : Limits) {t : Text} (ht : t.IsScalar) (h : t.BeginsAscii) (e : Encoding) :
    readBytes limits (e.encodeAll t) = (read limits t).mapError .text ∧
      readBytes limits (e.mark ++ e.encodeAll t) = (read limits t).mapError .text := by
  obtain ⟨hplain, hmarked⟩ := e.decodeDocument_encodeAll ht h
  have hmark := not_startsWithMark_of_beginsAscii h
  exact ⟨readBytes_of_decodeDocument limits hplain hmark, readBytes_of_decodeDocument limits hmarked hmark⟩

end Json

/-! ### Errors -/

namespace TransportError

theorem deserializeBytes_of_readBytes_eq {depth : Nat} {data : Bytes} {t : Text}
    (h : Json.readBytes (.lenient depth) data = (Json.read (.lenient depth) t).mapError .text) :
    deserializeBytes depth data = deserialize depth t := by
  rw [deserializeBytes, h, deserialize]
  cases Json.read (.lenient depth) t <;> rfl

/-- A text without surrogates that begins with two ASCII characters, neither of them zero, gives the same error, or the
same refusal, as a text and as its bytes in any encoding, with and without the mark of the encoding. -/
theorem deserializeBytes_encodeAll {depth : Nat} {t : Text} (hscalar : t.IsScalar) (hstart : t.BeginsAscii)
    (e : Encoding) :
    deserializeBytes depth (e.encodeAll t) = deserialize depth t ∧
      deserializeBytes depth (e.mark ++ e.encodeAll t) = deserialize depth t := by
  obtain ⟨hplain, hmarked⟩ := Json.readBytes_encodeAll (.lenient depth) hscalar hstart e
  exact ⟨deserializeBytes_of_readBytes_eq hplain, deserializeBytes_of_readBytes_eq hmarked⟩

/-- An error with a character of every length in UTF-8. -/
def manyLengths : Text := Text.ofString "\x7b\"code\":1010,\"message\":\"aé€😀\"\x7d"

/-- A document with a fault in its second line, after a character that is two code units in UTF-16. -/
def faultyLine : Text := Text.ofString "[\"😀\",\n €]"

theorem deserializeBytes_encodeAll_manyLengths :
    manyLengths.IsScalar ∧ manyLengths.BeginsAscii ∧ faultyLine.IsScalar ∧ faultyLine.BeginsAscii ∧
      ∀ e : Encoding,
        deserializeBytes 1 (e.mark ++ e.encodeAll manyLengths) =
            .ok ⟨.backpressure, Text.ofString "aé€😀", [], true⟩ ∧
          deserializeBytes 1 (e.encodeAll faultyLine) =
            .error (.payload (.unreadable (.text ⟨.expectedValue, ⟨7, 2, 2⟩⟩))) := by
  have hscalar : manyLengths.IsScalar := by decide +kernel
  have hstart : manyLengths.BeginsAscii := by decide +kernel
  have hscalar' : faultyLine.IsScalar := by decide +kernel
  have hstart' : faultyLine.BeginsAscii := by decide +kernel
  have hread : deserialize 1 manyLengths = .ok ⟨.backpressure, Text.ofString "aé€😀", [], true⟩ := by cbv
  have hrefused : deserialize 1 faultyLine =
      .error (.payload (.unreadable (.text ⟨.expectedValue, ⟨7, 2, 2⟩⟩))) := by cbv
  refine ⟨hscalar, hstart, hscalar', hstart', fun e => ⟨?_, ?_⟩⟩
  · rw [(deserializeBytes_encodeAll hscalar hstart e).2, hread]
  · rw [(deserializeBytes_encodeAll hscalar' hstart' e).1, hrefused]

end TransportError

end WireCodec
