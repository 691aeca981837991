import WireCodec.CodecError
import WireCodec.Frame

/-!
# The version handshake

The client opens with one frame that names the version of the protocol, and the server answers once: it
accepts, or it rejects with a reason after a blank.  There is no second round.  The number after an acceptance
is not looked at.
-/

namespace WireCodec.Handshake

/-- The version of the protocol. -/
def version : Nat := 2

/-- How an acceptance begins. -/
def acceptance : Text := Text.ofString "PROTOCOL_OK"

/-- How a rejection begins. -/
def rejection : Text := Text.ofString "PROTOCOL_ERROR"

/-- The frame that opens the handshake. -/
def opening : Bytes := Frame.build (Text.ofString "PROTOCOL_VERSION " ++ Text.ofNat version) []

/-- The verdict in the text of an answer.  The code point after the word of rejection is no part of the
reason. -/
def verdict (answer : Text) : Except CodecError Unit :=
  if acceptance.isPrefixOf answer then .ok ()
  else if rejection.isPrefixOf answer then .error (.versionMismatch (answer.drop (rejection.length + 1)))
  else .error (.malformedReply answer)

/-- Checks the answer of the server. -/
def check (data : Bytes) : Except CodecError Unit :=
  if data = [] then .error (.emptyFrame CodecError.versionResponse)
  else verdict (Utf8.decodeLossless (Frame.payload data))

/-- An answer is refused because it is empty, because it rejects, or because it is neither of the two answers. -/
theorem check_eq_error {data : Bytes} {e : CodecError} (h : check data = .error e) :
    e = .emptyFrame CodecError.versionResponse ∨
    e = .versionMismatch ((Utf8.decodeLossless (Frame.payload data)).drop (rejection.length + 1)) ∨
    e = .malformedReply (Utf8.decodeLossless (Frame.payload data)) := by
  unfold check verdict at h
  split at h
  · exact .inl (Except.error.inj h).symm
  · split at h
    · cases h
    · split at h
      · exact .inr (.inl (Except.error.inj h).symm)
      · exact .inr (.inr (Except.error.inj h).symm)

theorem eq_of_malformedReply {data : Bytes} {reply : Text} (h : check data = .error (.malformedReply reply)) :
    reply = Utf8.decodeLossless (Frame.payload data) := by
  rcases check_eq_error h with he | he | he
  · cases he
  · cases he
  · exact CodecError.malformedReply.inj he

end WireCodec.Handshake
