import WireCodec.Bridge.Basic

/-!
# Requests to the bridge

A request is one line of JSON: an object with the name of a call in the member `call` and the arguments of the
call in members of their own.  It is answered by one line of JSON.  Whatever is no request is answered like a
call that failed, so that every line has an answer.
-/

namespace WireCodec.Bridge

/-- What a line may ask for. -/
inductive Request
  | call (c : Call)
  /-- The constants of the protocol and the table of codes. -/
  | protocolInfo

namespace Request

/-- The text in the member with a name. -/
def textOf? (name : String) (m : Members) : Option Text :=
  (Members.get? (Text.ofString name) m).bind Json.toText?

/-- The texts that an array consists of. -/
def toTexts? : Json → Option (List Text)
  | .arr items => items.mapM Json.toText?
  | _ => none

/-- The request that the members of an object make; absent parameters are no parameters. -/
def ofMembers? (m : Members) : Option Request := do
  let name ← (← textOf? "call" m).toString?
  match name with
  | "encode_command" =>
    let parameters ← Members.optional? toTexts? (Text.ofString "params") m
    some (.call (.encodeCommand (← textOf? "command" m) (parameters.getD [])))
  | "decode_response" => some (.call (.decodeResponse (← textOf? "frame_hex" m)))
  | "handshake_frame" => some (.call .handshakeFrame)
  | "check_handshake_reply" => some (.call (.checkHandshakeReply (← textOf? "frame_hex" m)))
  | "describe_error" => some (.call (.describeError (← textOf? "payload" m)))
  | "protocol_info" => some .protocolInfo
  | _ => none

/-- The request in a line, read with the given room for nested values. -/
def ofLine? (depth : Nat) (line : Text) : Option Request :=
  match Json.read (.strict depth) line with
  | .ok (.obj m) => ofMembers? m
  | _ => none

end Request

/-- The answer to something that cannot be processed at all. -/
def refused (message : String) : Text × List Log.Record :=
  let r := rejected (.protocol (Text.ofString message) [])
  (r.result.write .compact, r.log)

/-- The answer to a line, and the log records that it left. -/
def answer (depth : Nat) (c : Config) (line : Text) : Text × List Log.Record :=
  match Request.ofLine? depth line with
  | none => refused "no such request"
  | some .protocolInfo => (protocolInfo, [])
  | some (.call k) =>
    match reply depth c k with
    | .ok r => (r.result.write .compact, r.log)
    | .error .tooDeep => refused "payload is nested too deeply"

end WireCodec.Bridge
