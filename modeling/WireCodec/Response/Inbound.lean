import WireCodec.CodecError
import WireCodec.Frame
import WireCodec.Json.Reader
import WireCodec.Log
import WireCodec.Response.Basic
import WireCodec.Text.Quoted

/-!
# Inbound responses

A server answers with a JSON object or with a bare line of text.  Both are read: a payload that is not a
response object, for whatever reason, is a successful response with the payload as its message, and a log
record says so.  Only a frame without any bytes is refused, and a payload that is nested more deeply than there is
room for.
-/

namespace WireCodec.Response

/-- The reasons for which no response is read. -/
inductive InboundError
  | empty
  | tooDeep
  deriving DecidableEq

/-- The number of code points of a payload that a log record shows. -/
def shownLength : Nat := 80

/-- The record of a payload that is taken as text. -/
def fallbackRecord (payload : Text) : Log.Record :=
  ⟨.debug, "syndrdb_wire.protocol.parser",
    Text.ofString "Non-JSON response, treating as plain text: " ++ payload.quoted.take shownLength⟩

/-- The response object in the text of a payload, if it is one, read with the given room for nested values. -/
def ofText? (depth : Nat) (payload : Text) : Except InboundError (Option Response) :=
  match Json.read (.strict depth) payload with
  | .ok v => .ok (ofJson? v)
  | .error e => if e.fault = .tooDeep then .error .tooDeep else .ok none

/-- Reads an inbound frame, and gives the log records of doing so. -/
def receive (depth : Nat) (data : Bytes) : Except InboundError (Response × List Log.Record) :=
  if data = [] then .error .empty
  else
    let payload := Utf8.decodeLossless (Frame.payload data)
    (ofText? depth payload).map fun
      | some r => (r, [])
      | none => (plain payload, [fallbackRecord payload])

end WireCodec.Response
