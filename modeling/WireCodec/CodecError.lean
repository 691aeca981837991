import WireCodec.TransportError.Basic

/-!
# Errors of the codec

What can go wrong while frames are taken apart.  Errors belong to families: all of them are errors of the wire
protocol, those about the version of the protocol are handshake errors, and those about ill-formed input are
value errors.
-/

namespace WireCodec

/-- An error of the codec. -/
inductive CodecError
  /-- An error of no particular kind. -/
  | general (message : Text)
  /-- A decoder was given no bytes. -/
  | emptyFrame (what : Text)
  /-- An error of the handshake of no particular kind. -/
  | handshake (message : Text)
  /-- The server rejected the version of the protocol. -/
  | versionMismatch (reason : Text)
  /-- The server gave an answer to the handshake that is no answer. -/
  | malformedReply (reply : Text)
  /-- A payload is no transport error. -/
  | malformedErrorPayload (message : Text)
  deriving DecidableEq

/-- The families of errors. -/
inductive CodecError.Family
  | wireProtocol
  | handshake
  | value
  deriving DecidableEq

namespace CodecError

/-- What is empty when a response is. -/
def response : Text := Text.ofString "response"

/-- What is empty when the answer to the handshake is. -/
def versionResponse : Text := Text.ofString "version response"

/-- The wording of an error. -/
def message : CodecError → Text
  | .general m => m
  | .emptyFrame what => Text.ofString "empty " ++ what ++ Text.ofString " data"
  | .handshake m => m
  | .versionMismatch reason => Text.ofString "protocol version mismatch: " ++ reason
  | .malformedReply reply => Text.ofString "unexpected version response: " ++ reply
  | .malformedErrorPayload m => m

/-- The families that an error belongs to. -/
def families : CodecError → List Family
  | .general _ => [.wireProtocol]
  | .emptyFrame _ => [.wireProtocol, .value]
  | .handshake _ => [.wireProtocol, .handshake]
  | .versionMismatch _ => [.wireProtocol, .handshake]
  | .malformedReply _ => [.wireProtocol, .handshake]
  | .malformedErrorPayload _ => [.wireProtocol, .value]

/-- The transport error that reports a rejected version. -/
def mismatchReport (reason : Text) : TransportError := TransportError.versionMismatch reason []

/-- The transport error that an error is reported as; only a rejected version has one of its own. -/
def toTransport? : CodecError → Option TransportError
  | .versionMismatch reason => some (mismatchReport reason)
  | _ => none

end CodecError

end WireCodec
