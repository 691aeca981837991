import WireCodec.Text.Utf8

/-!
# Frames

A frame carries a command with its parameters, or a payload without any.

    command  ENQ parameter  ENQ parameter  …  EOT

Every parameter, also an empty one, has the byte ENQ before it, and the byte EOT ends the frame.  The command
is written as it is.  In a parameter the code points U+0004 and U+0005 are doubled.  An inbound frame is a payload
with or without EOT at its end.
-/

namespace WireCodec.Frame

/-- The byte that ends a frame. -/
def eot : UInt8 := 0x04

/-- The byte before a parameter. -/
def enq : UInt8 := 0x05

/-- A code point that a parameter may not hold undoubled. -/
def IsReserved (c : CodePoint) : Prop := c.val = 0x04 ∨ c.val = 0x05

instance (c : CodePoint) : Decidable (IsReserved c) := inferInstanceAs (Decidable (_ ∨ _))

/-- A text with every reserved code point twice. -/
def doubleReserved (t : Text) : Text := t.flatMap fun c => if IsReserved c then [c, c] else [c]

/-- A parameter with its reserved code points doubled.  One without any is left as it is. -/
def escape (parameter : Text) : Text :=
  if ∃ c ∈ parameter, IsReserved c then doubleReserved parameter else parameter

/-- A parameter in a frame: the delimiter and the bytes of the escaped value. -/
def parameterBytes (parameter : Text) : Bytes := enq :: Utf8.toWire (escape parameter)

/-- The frame of a command with its parameters. -/
def build (command : Text) (parameters : List Text) : Bytes :=
  Utf8.toWire command ++ parameters.flatMap parameterBytes ++ [eot]

/-- The payload of an inbound frame: its bytes without one EOT at the end. -/
def payload (data : Bytes) : Bytes := if data.getLast? = some eot then data.dropLast else data

theorem payload_append_eot (data : Bytes) : payload (data ++ [eot]) = data := by
  simp [payload]

end WireCodec.Frame
