import WireCodec.Json.Display
import WireCodec.Json.Reader
import WireCodec.Json.Writer
import WireCodec.TransportError.Basic

/-!
# Transport errors on the wire

An error crosses a process boundary as one line of JSON: an object with the members `code`, `message`,
`details` if there are any, and `isRetryable`.  `serialize` writes it, and `deserialize` reads it back, with
the flag as the sender set it.  What is no such object is refused; `PayloadFault` lists the reasons in the
order in which they are looked for.
-/

namespace WireCodec

namespace TransportError

/-! ### Writing -/

/-- The members of the object that stands for an error. -/
def toMembers (e : TransportError) : Members :=
  [(Text.ofString "code", .int e.code.value), (Text.ofString "message", .str e.message)] ++
    (if e.details.isEmpty then [] else [(Text.ofString "details", .obj e.details)]) ++
    [(Text.ofString "isRetryable", .bool e.retryable)]

/-- The object that stands for an error. -/
def toJson (e : TransportError) : Json := .obj e.toMembers

/-- The line of JSON that stands for an error. -/
def serializeText (e : TransportError) : Text := e.toJson.write .compact

/-- The bytes that stand for an error. -/
def serialize (e : TransportError) : Bytes := Utf8.encodeAll e.serializeText

/-- The line for people: the number of the code, the message, and the details if there are any. -/
def summary (e : TransportError) : Text :=
  Text.ofString "[" ++ Text.ofNat e.code.value ++ Text.ofString "] " ++ e.message ++
    if e.details.isEmpty then []
    else Text.ofString " (details: " ++ (Json.obj e.details).write .compact ++ Text.ofString ")"

/-- The line for programmers. -/
def display (e : TransportError) : Text :=
  Text.ofString "TransportError(code=" ++ Text.ofString e.code.name ++ Text.ofString ", message=" ++
    Text.quoted e.message ++ Text.ofString ", retryable=" ++ (Json.bool e.retryable).display ++
    Text.ofString ")"

end TransportError

/-! ### Reading -/

/-- The reasons for which a payload is no transport error. -/
inductive PayloadFault
  | unreadable (error : Json.DocumentError)
  | notObject (payload : Json)
  | codeNotInteger (code : Json)
  | unknownCode (code : Int)
  | messageNotText
  | detailsNotObject
  | flagNotBoolean

/-- The wording of a reason. -/
def PayloadFault.message : PayloadFault → Text
  | .unreadable e => Text.ofString "invalid error payload: " ++ e.message
  | .notObject v => Text.ofString "error payload must be a JSON object, got " ++ Text.ofString v.kindName
  | .codeNotInteger v => Text.ofString "error code must be an integer, got " ++ v.display
  | .unknownCode n => Text.ofString "unknown error code " ++ Text.ofInt n
  | .messageNotText => Text.ofString "error message must be a string"
  | .detailsNotObject => Text.ofString "error details must be an object"
  | .flagNotBoolean => Text.ofString "isRetryable must be a boolean"

namespace TransportError

/-- Why no error was read: the payload is none, or it is nested more deeply than there is room for. -/
inductive Refusal
  | payload (fault : PayloadFault)
  | tooDeep

/-- The code in the members of an object. -/
def codeOf (m : Members) : Except PayloadFault ErrorCode :=
  match (Members.get? (Text.ofString "code") m).getD .null with
  | .int n =>
    match ErrorCode.ofInt? n with
    | some c => .ok c
    | none => .error (.unknownCode n)
  | v => .error (.codeNotInteger v)

/-- The error that the members of an object stand for. -/
def ofMembers (m : Members) : Except PayloadFault TransportError := do
  let code ← codeOf m
  let message ← match (Members.get? (Text.ofString "message") m).bind Json.toText? with
    | some t => .ok t
    | none => .error .messageNotText
  let details ← match Members.optional? Json.toMembers? (Text.ofString "details") m with
    | some d => .ok (d.getD [])
    | none => .error .detailsNotObject
  match Members.optional? Json.toBool? (Text.ofString "isRetryable") m with
  | some flag => .ok ⟨code, message, details, flag.getD code.isRetryable⟩
  | none => .error .flagNotBoolean

/-- The error that a value stands for. -/
def ofJson (v : Json) : Except PayloadFault TransportError :=
  match v with
  | .obj m => ofMembers m
  | v => .error (.notObject v)

/-- Why no error is read from a payload that is no JSON document. -/
def refusalOf (e : Json.DocumentError) : Refusal :=
  if e.isTooDeep then .tooDeep else .payload (.unreadable e)

/-- Reads an error from a text, with the given room for nested values. -/
def deserialize (depth : Nat) (payload : Text) : Except Refusal TransportError :=
  match Json.read (.lenient depth) payload with
  | .ok v => (ofJson v).mapError .payload
  | .error e => .error (refusalOf (.text e))

/-- Reads an error from bytes, in the encoding that they tell. -/
def deserializeBytes (depth : Nat) (payload : Bytes) : Except Refusal TransportError :=
  match Json.readBytes (.lenient depth) payload with
  | .ok v => (ofJson v).mapError .payload
  | .error e => .error (refusalOf e)

end TransportError

end WireCodec
