import WireCodec.Json.Basic
import WireCodec.TransportError.Code

/-!
# Transport errors

A failure at the boundary between transports: a code, a message, details and whether the call may be tried
again.  The last follows from the code when an error is made here; an error that comes from elsewhere keeps
what its sender said.
-/

namespace WireCodec

/-- A classified failure. -/
structure TransportError where
  code : ErrorCode
  message : Text
  /-- No members if there are no details. -/
  details : Members
  retryable : Bool

namespace TransportError

/-- An error of which the code tells whether the call may be tried again. -/
def make (code : ErrorCode) (message : Text) (details : Members) : TransportError :=
  ⟨code, message, details, code.isRetryable⟩

/-- An error whose code is given by its number. -/
def ofNumber (code : Int) (message : Text) (details : Members) : Except Text TransportError :=
  match ErrorCode.ofInt? code with
  | some c => .ok (make c message details)
  | none => .error (Text.ofInt code ++ Text.ofString " is not a valid ErrorCode")

/-- The connection could not be made. -/
def connection (message : Text) (details : Members) : TransportError := make .connectionRefused message details

/-- The answer took too long. -/
def timeout (message : Text) (details : Members) : TransportError := make .timeout message details

/-- The peer did not accept who is calling. -/
def auth (message : Text) (details : Members) : TransportError := make .authFailed message details

/-- The peer rejected the version of the protocol. -/
def versionMismatch (message : Text) (details : Members) : TransportError :=
  make .protocolVersionMismatch message details

/-- What was sent is not of the protocol. -/
def protocol (message : Text) (details : Members) : TransportError := make .protocolError message details

/-- A query failed. -/
def query (message : Text) (details : Members) : TransportError := make .queryError message details

/-- The outbound queue is full. -/
def backpressure (queueDepth : Json) : TransportError :=
  make .backpressure (Text.ofString "message queue full") [(Text.ofString "queueDepth", queueDepth)]

/-- The bridge is at work on another call. -/
def bridgeBusy : TransportError := make .bridgeBusy (Text.ofString "bridge busy, retry later") []

/-- The bridge has no callback of a name. -/
def bridgeCallbackMissing (name : Text) : TransportError :=
  make .bridgeCallbackMissing (Text.ofString "bridge callback missing") [(Text.ofString "callback", .str name)]

/-- The bridge could not be started. -/
def bridgeInit (message : Text) : TransportError := make .bridgeInitFailed message []

end TransportError

end WireCodec
