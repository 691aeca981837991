import WireCodec.Text.CodePoint

/-!
# Error codes

The codes of transport errors, grouped by concern: 1000 to 1099 for the connection, 2000 to 2099 for the
protocol, 3000 to 3099 for queries, and the rest for the bridge itself.  Whether an error may be tried again
depends on its code alone, and `ErrorCode.isRetryable` is the one place that decides it.
-/

namespace WireCodec

/-- The codes of transport errors. -/
inductive ErrorCode
  | connectionRefused
  | timeout
  | authFailed
  | protocolVersionMismatch
  | backpressure
  | protocolError
  | queryError
  | bridgeBusy
  | bridgeCallbackMissing
  | bridgeInitFailed
  deriving DecidableEq

/-- The concerns by which codes are grouped. -/
inductive ErrorCategory
  | connection
  | protocol
  | query
  | bridge
  deriving DecidableEq

/-- The name of a concern. -/
def ErrorCategory.name : ErrorCategory → String
  | .connection => "connection"
  | .protocol => "protocol"
  | .query => "query"
  | .bridge => "bridge"

namespace ErrorCode

/-- All codes, in increasing order of their numbers. -/
def all : List ErrorCode :=
  [.connectionRefused, .timeout, .authFailed, .protocolVersionMismatch, .backpressure, .protocolError,
    .queryError, .bridgeBusy, .bridgeCallbackMissing, .bridgeInitFailed]

/-- The number of a code. -/
def value : ErrorCode → Nat
  | .connectionRefused => 1001
  | .timeout => 1002
  | .authFailed => 1003
  | .protocolVersionMismatch => 1004
  | .backpressure => 1010
  | .protocolError => 2001
  | .queryError => 3001
  | .bridgeBusy => 9001
  | .bridgeCallbackMissing => 9002
  | .bridgeInitFailed => 9999

/-- The name of a code. -/
def name : ErrorCode → String
  | .connectionRefused => "CONNECTION_REFUSED"
  | .timeout => "TIMEOUT"
  | .authFailed => "AUTH_FAILED"
  | .protocolVersionMismatch => "PROTOCOL_VERSION_MISMATCH"
  | .backpressure => "BACKPRESSURE"
  | .protocolError => "PROTOCOL_ERROR"
  | .queryError => "QUERY_ERROR"
  | .bridgeBusy => "BRIDGE_BUSY"
  | .bridgeCallbackMissing => "BRIDGE_CALLBACK_MISSING"
  | .bridgeInitFailed => "BRIDGE_INIT_FAILED"

/-- The concern of a code, by the range of its number. -/
def category (c : ErrorCode) : ErrorCategory :=
  if 1000 ≤ c.value ∧ c.value ≤ 1099 then .connection
  else if 2000 ≤ c.value ∧ c.value ≤ 2099 then .protocol
  else if 3000 ≤ c.value ∧ c.value ≤ 3099 then .query
  else .bridge

/-- The code with a number. -/
def ofInt? (n : Int) : Option ErrorCode := all.find? fun c => (c.value : Int) = n

/-- Whether what failed with this code may safely be tried again. -/
def isRetryable : ErrorCode → Bool
  | .timeout | .backpressure | .bridgeBusy | .bridgeCallbackMissing => true
  | _ => false

/-- Whether what failed with this number may safely be tried again; a number that is no code may not. -/
def isRetryableNumber (n : Int) : Bool := (ofInt? n).any isRetryable

theorem ofInt?_eq_some_iff {n : Int} {c : ErrorCode} : ofInt? n = some c ↔ (c.value : Int) = n := by
  constructor
  · intro h
    simpa using List.find?_some h
  · rintro rfl
    cases c <;> decide

end ErrorCode

end WireCodec
