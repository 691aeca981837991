import WireCodec.Text.Digits

/-!
# Errors in JSON documents

What can be wrong with a text that should be a JSON document, where it is wrong, and how the error is worded.
The reader reports a fault together with the text that follows it (`Failure`); `Failure.locate` turns this
into a position in the whole text.
-/

namespace WireCodec.Json

/-- The reasons for which a text is refused. -/
inductive Fault
  | expectedValue
  | expectedName
  | expectedColon
  | expectedComma
  | unterminatedString
  | controlCharacter
  | invalidEscape
  | invalidCodeEscape
  | extraData
  | byteOrderMark
  /-- An integer has more digits than are read. -/
  | tooManyDigits (count : Nat)
  /-- A word for a number that is not finite stands where only finite numbers are read. -/
  | nonFiniteWord
  /-- Arrays and objects are nested more deeply than are read. -/
  | tooDeep
  deriving DecidableEq

/-- A fault and the rest of the text from the place on at which it was found. -/
structure Failure where
  fault : Fault
  rest : Text
  deriving DecidableEq

/-- A place in a text: code points before it, its line, and its column, the latter two counted from one. -/
structure Position where
  offset : Nat
  line : Nat
  column : Nat
  deriving DecidableEq

/-- A fault with its place. -/
structure ReadError where
  fault : Fault
  position : Position
  deriving DecidableEq

/-- The place after the given text. -/
def Position.after (before : Text) : Position :=
  ⟨before.length, before.countP (·.val == 0x0A) + 1, (before.reverse.takeWhile (·.val != 0x0A)).length + 1⟩

/-- The place of a failure in the text that was read. -/
def Failure.locate (text : Text) (f : Failure) : ReadError :=
  ⟨f.fault, Position.after (text.take (text.length - f.rest.length))⟩

/-- The wording of a fault. -/
def Fault.wording : Fault → Text
  | .expectedValue => Text.ofString "Expecting value"
  | .expectedName => Text.ofString "Expecting property name enclosed in double quotes"
  | .expectedColon => Text.ofString "Expecting ':' delimiter"
  | .expectedComma => Text.ofString "Expecting ',' delimiter"
  | .unterminatedString => Text.ofString "Unterminated string starting at"
  | .controlCharacter => Text.ofString "Invalid control character at"
  | .invalidEscape => Text.ofString "Invalid \\escape"
  | .invalidCodeEscape => Text.ofString "Invalid \\uXXXX escape"
  | .extraData => Text.ofString "Extra data"
  | .byteOrderMark => Text.ofString "Unexpected UTF-8 BOM (decode using utf-8-sig)"
  | .tooManyDigits count =>
    Text.ofString "Exceeds the limit (" ++ Text.ofNat Text.maxIntegerDigits ++
      Text.ofString " digits) for integer string conversion: value has " ++ Text.ofNat count ++
      Text.ofString " digits; use sys.set_int_max_str_digits() to increase the limit"
  | .nonFiniteWord => Text.ofString "Number is not finite"
  | .tooDeep => Text.ofString "Nesting is too deep"

/-- Whether the wording of an error names its place. -/
def Fault.hasPlace : Fault → Bool
  | .tooManyDigits _ | .tooDeep => false
  | _ => true

/-- The wording of a place. -/
def Position.wording (p : Position) : Text :=
  Text.ofString "line " ++ Text.ofNat p.line ++ Text.ofString " column " ++ Text.ofNat p.column ++
    Text.ofString " (char " ++ Text.ofNat p.offset ++ Text.ofString ")"

/-- The wording of an error. -/
def ReadError.message (e : ReadError) : Text :=
  if e.fault.hasPlace then e.fault.wording ++ Text.ofString ": " ++ e.position.wording else e.fault.wording

end WireCodec.Json
