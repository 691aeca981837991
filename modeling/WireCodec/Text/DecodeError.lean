import WireCodec.Text.Digits

/-!
# Decoding errors

The encodings that bytes may be in, and what can be wrong with bytes that should be in one of them.  An error
knows the bytes it concerns by their positions, and `DecodeError.message` is its wording.
-/

namespace WireCodec

/-- The order of the bytes of one code unit. -/
inductive ByteOrder
  | little
  | big
  deriving DecidableEq

/-- The encodings of text. -/
inductive Encoding
  | utf8
  | utf16 (order : ByteOrder)
  | utf32 (order : ByteOrder)
  deriving DecidableEq

/-- The name by which error messages call an encoding. -/
def Encoding.name : Encoding → String
  | .utf8 => "utf-8"
  | .utf16 .little => "utf-16-le"
  | .utf16 .big => "utf-16-be"
  | .utf32 .little => "utf-32-le"
  | .utf32 .big => "utf-32-be"

/-- The ways in which bytes fail to be encoded text. -/
inductive DecodeFault
  /-- No sequence starts with this byte. -/
  | invalidStart
  /-- A sequence is broken off by a byte that cannot continue it. -/
  | invalidContinuation
  /-- The bytes end inside a sequence that might have been completed. -/
  | unexpectedEnd
  /-- The bytes end inside a code unit. -/
  | truncated
  /-- A code unit is above the last code point. -/
  | outOfRange
  deriving DecidableEq

/-- The wording of a fault. -/
def DecodeFault.wording : DecodeFault → String
  | .invalidStart => "invalid start byte"
  | .invalidContinuation => "invalid continuation byte"
  | .unexpectedEnd => "unexpected end of data"
  | .truncated => "truncated data"
  | .outOfRange => "code point not in range(0x110000)"

/-- A fault with the bytes it concerns: the first of them, its position, and how many they are. -/
structure DecodeError where
  encoding : Encoding
  fault : DecodeFault
  byte : UInt8
  start : Nat
  count : Nat
  deriving DecidableEq

/-- One byte is named with its value, several by the positions of the first and the last. -/
def DecodeError.message (e : DecodeError) : Text :=
  let codec : Text :=
    Text.ofString "'" ++ Text.ofString e.encoding.name ++ Text.ofString "' codec can't decode "
  let place : Text :=
    if e.count = 1 then
      Text.ofString "byte 0x" ++ Text.hex 2 e.byte.toNat ++ Text.ofString " in position " ++ Text.ofNat e.start
    else
      Text.ofString "bytes in position " ++ Text.ofNat e.start ++ Text.ofString "-" ++
        Text.ofNat (e.start + e.count - 1)
  codec ++ place ++ Text.ofString ": " ++ Text.ofString e.fault.wording

end WireCodec
