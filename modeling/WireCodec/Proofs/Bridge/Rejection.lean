import WireCodec.Proofs.Bridge.Verdict
import WireCodec.Proofs.Frame.Survival
import WireCodec.Proofs.TransportError.RoundTrip

/-!
# The reason of a rejection

A server that rejects the version of the protocol gives a reason, which may be any bytes.  The reason is read after the
word of rejection (`check_rejectionFrame`), is reported by the bridge, crosses process boundaries inside a transport
error, and gives the same bytes when it is sent as a command (`checkHandshakeReply_rejectionFrame`).
-/

namespace WireCodec

namespace Handshake

/-- The frame of a rejection with its reason. -/
def rejectionFrame (reason : Bytes) : Bytes :=
  Utf8.encodeAll (Text.ofString "PROTOCOL_ERROR ") ++ reason ++ [Frame.eot]

/-- The reason of a rejection is the text of its bytes. -/
theorem check_rejectionFrame (reason : Bytes) :
    check (rejectionFrame reason) = .error (.versionMismatch (Utf8.decodeLossless reason)) := by
  have hblank : Text.IsScalar [.ofChar ' '] := by decide
  have hword : Text.ofString "PROTOCOL_ERROR " = rejection ++ [.ofChar ' '] := rfl
  have hpayload : Frame.payload (rejectionFrame reason) =
      Utf8.encodeAll rejection ++ (Utf8.encodeAll [.ofChar ' '] ++ reason) := by
    rw [rejectionFrame, Frame.payload_append_eot, hword, Utf8.encodeAll_append, List.append_assoc]
  -- the blank is the code point that is dropped
  rw [check_of_payload_eq hpayload, Utf8.decodeLossless_encodeAll_append hblank]
  rfl

end Handshake

/-- A rejection is reported with the code of a version mismatch, without details and as not to be tried again.  The
error behind it has a message that is the reported one, also after it is written and read, and that gives the bytes of
the reason when it is sent as a command. -/
theorem Bridge.checkHandshakeReply_rejectionFrame (reason : Bytes) :
    ∃ cause e message, Handshake.check (Handshake.rejectionFrame reason) = .error cause ∧
      cause.toTransport? = some e ∧
      (checkHandshakeReply (Hex.encode (Handshake.rejectionFrame reason))).result =
        .obj [(Text.ofString "error", .obj [(Text.ofString "code", .int ErrorCode.protocolVersionMismatch.value),
          (Text.ofString "message", .str message), (Text.ofString "isRetryable", .bool false)])] ∧
      (∀ depth, 1 ≤ depth → ∃ e', TransportError.deserializeBytes depth e.serialize = .ok e' ∧ e'.message = message) ∧
      Frame.build message [] = reason ++ [Frame.eot] := by
  have hcheck := Handshake.check_rejectionFrame reason
  have hmessage : (Utf8.decodeLossless reason).IsUnpaired := (Utf8.hasNoHigh_decodeLossless reason).isUnpaired
  refine ⟨_, _, Utf8.decodeLossless reason, hcheck, rfl, ?_, fun depth hdepth => ?_, Frame.build_decodeLossless reason⟩
  swap
  · have hportable : (CodecError.mismatchReport (Utf8.decodeLossless reason)).IsPortable depth :=
      TransportError.isPortable_of_details_eq_nil hdepth hmessage rfl
    have hread := TransportError.readBytes_serialize hportable
    exact ⟨_, TransportError.deserializeBytes_of_readBytes hread, rfl⟩
  rw [checkHandshakeReply, frameOfHex_of_ok (Hex.decode_encode _)]
  dsimp only
  rw [hcheck]
  rfl

end WireCodec
