import WireCodec.Config
import WireCodec.Handshake
import WireCodec.Hex
import WireCodec.Response.Inbound
import WireCodec.TransportError.Wire

/-!
# The bridge

Other processes build and inspect frames through the bridge.  Frames travel in hexadecimal, and what a call
cannot process comes back as an object with the one member `error`, which holds a transport error, and is
logged.  A call reads at most one text as JSON.  How deeply the values in it may be nested is decided by the room that
this call has, which may be another one each time, and a payload for which there is not enough room is the one thing
to which there is no reply.
-/

namespace WireCodec.Bridge

/-- What the bridge can be asked. -/
inductive Call
  /-- Put a command and its parameters into a frame. -/
  | encodeCommand (command : Text) (parameters : List Text)
  /-- Read the response in a frame. -/
  | decodeResponse (frameHex : Text)
  /-- Give the frame that opens the handshake. -/
  | handshakeFrame
  /-- Check the answer to the handshake in a frame. -/
  | checkHandshakeReply (frameHex : Text)
  /-- Read a transport error and say what its code means. -/
  | describeError (payload : Text)

/-- The reply to a call, and the log records that it left. -/
structure Reply where
  result : Json
  log : List Log.Record

/-- The reason for which a call gives no reply: its payload is nested more deeply than there is room for. -/
inductive Overflow
  | tooDeep
  deriving DecidableEq

/-- The part of the bridge that reports. -/
def logger : String := "syndrdb_wire.server"

/-- A reply without log records. -/
def Reply.quiet (result : Json) : Reply := ⟨result, []⟩

/-- The reply to a call that failed. -/
def rejected (e : TransportError) : Reply :=
  ⟨.obj [(Text.ofString "error", e.toJson)],
    [⟨.warning, logger, Text.ofString "Rejected call: " ++ e.summary⟩]⟩

/-- The bytes of a frame in hexadecimal, or the transport error of a text that is not hexadecimal. -/
def frameOfHex (t : Text) : Except TransportError Bytes :=
  (Hex.decode t).mapError fun position =>
    .protocol (Text.ofString "frame_hex is not valid hex: " ++ Hex.refusal position) []

/-- A frame with the member that the given pair adds. -/
def frameReply (frame : Bytes) (more : Text × Json) : Reply :=
  .quiet (.obj [(Text.ofString "frame_hex", .str (Hex.encode frame)), more])

/-- Puts a command and its parameters into a frame, if they are not too many. -/
def encodeCommand (c : Config) (command : Text) (parameters : List Text) : Reply :=
  if c.maxParameters < parameters.length then
    rejected (.protocol (Text.ofString "too many parameters")
      [(Text.ofString "paramCount", .int parameters.length), (Text.ofString "max", .int c.maxParameters)])
  else
    let frame := Frame.build command parameters
    frameReply frame (Text.ofString "length", .int frame.length)

/-- Reads the response in a frame. -/
def decodeResponse (depth : Nat) (frameHex : Text) : Except Overflow Reply :=
  match frameOfHex frameHex with
  | .error e => .ok (rejected e)
  | .ok data =>
    match Response.receive depth data with
    | .ok (r, log) => .ok ⟨r.toJson, log⟩
    | .error .empty => .ok (rejected (.protocol (CodecError.emptyFrame CodecError.response).message []))
    | .error .tooDeep => .error .tooDeep

/-- Gives the frame that opens the handshake. -/
def handshakeFrame : Reply := frameReply Handshake.opening (Text.ofString "version", .int Handshake.version)

/-- The transport error of a failed handshake. -/
def handshakeError : CodecError → TransportError
  | .versionMismatch reason => CodecError.mismatchReport reason
  | .malformedReply reply =>
    .protocol (CodecError.malformedReply reply).message [(Text.ofString "reply", .str reply)]
  | e => .protocol e.message []

/-- Checks the answer to the handshake in a frame. -/
def checkHandshakeReply (frameHex : Text) : Reply :=
  match frameOfHex frameHex with
  | .error e => rejected e
  | .ok data =>
    match Handshake.check data with
    | .ok () =>
      .quiet (.obj [(Text.ofString "ok", .bool true), (Text.ofString "version", .int Handshake.version)])
    | .error e => rejected (handshakeError e)

/-- A transport error with the name and the concern of its code. -/
def description (e : TransportError) : Json :=
  .obj (e.toMembers ++
    [(Text.ofString "name", .str (Text.ofString e.code.name)),
      (Text.ofString "category", .str (Text.ofString e.code.category.name))])

/-- Reads a transport error and says what its code means. -/
def describeError (depth : Nat) (payload : Text) : Except Overflow Reply :=
  match TransportError.deserialize depth payload with
  | .ok e => .ok (.quiet (description e))
  | .error (.payload fault) => .ok (rejected (.protocol fault.message []))
  | .error .tooDeep => .error .tooDeep

/-- The reply of a bridge with the given settings to a call that is made with the given room for nested values. -/
def reply (depth : Nat) (c : Config) : Call → Except Overflow Reply
  | .encodeCommand command parameters => .ok (encodeCommand c command parameters)
  | .decodeResponse frameHex => decodeResponse depth frameHex
  | .handshakeFrame => .ok handshakeFrame
  | .checkHandshakeReply frameHex => .ok (checkHandshakeReply frameHex)
  | .describeError payload => describeError depth payload

/-- What the table of codes says of one of them. -/
def codeEntry (c : ErrorCode) : Json :=
  .obj [(Text.ofString "code", .int c.value), (Text.ofString "name", .str (Text.ofString c.name)),
    (Text.ofString "category", .str (Text.ofString c.category.name)),
    (Text.ofString "retryable", .bool c.isRetryable)]

/-- A delimiter of frames as its number in hexadecimal. -/
def delimiter (b : UInt8) : Json := .str (Text.ofString "0x" ++ Text.hex 2 b.toNat)

/-- The constants of the protocol and the table of codes. -/
def protocolInfo : Text :=
  (Json.obj [(Text.ofString "version", .int Handshake.version), (Text.ofString "eot", delimiter Frame.eot),
    (Text.ofString "enq", delimiter Frame.enq),
    (Text.ofString "error_codes", .arr (ErrorCode.all.map codeEntry))]).write .wide

end WireCodec.Bridge
