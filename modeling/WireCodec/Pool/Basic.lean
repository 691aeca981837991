import WireCodec.Frame

/-!
# Pools of buffers

Frames are put together in buffers that are used again.  A pool keeps a bounded stack of idle buffers: `take`
hands out the one given back last, emptied, or a new one when none is idle, and `giveBack` keeps a buffer
unless the stack is full.  Buffers are told apart by a number, under which they keep their identity while
their content changes.  Accesses to a pool exclude each other, and so each of the two is one step.
-/

namespace WireCodec

/-- A buffer, told apart from all others by its number. -/
structure Buffer where
  number : Nat
  content : Bytes
  deriving DecidableEq

/-- The buffer with bytes added at the end. -/
def Buffer.write (data : Bytes) (b : Buffer) : Buffer := ⟨b.number, b.content ++ data⟩

/-- A pool: its bound, the idle buffers with the top of the stack first, and how many buffers were made so
far. -/
structure Pool where
  maxSize : Nat
  idle : List Buffer
  made : Nat
  deriving DecidableEq

namespace Pool

/-- The number of idle buffers that a pool keeps unless told otherwise. -/
def defaultSize : Nat := 16

/-- A pool without buffers. -/
def empty (maxSize : Nat) : Pool := ⟨maxSize, [], 0⟩

/-- A pool of a size that is checked; a negative one is refused. -/
def ofSize (size : Int) : Except Text Pool :=
  if size < 0 then .error (Text.ofString "Pool size must be >= 0, got " ++ Text.ofInt size)
  else .ok (empty size.toNat)

/-- Hands out an empty buffer. -/
def take (p : Pool) : Buffer × Pool :=
  match p.idle with
  | b :: rest => (⟨b.number, []⟩, ⟨p.maxSize, rest, p.made⟩)
  | [] => (⟨p.made, []⟩, ⟨p.maxSize, [], p.made + 1⟩)

/-- Takes a buffer back, or drops it when enough are idle. -/
def giveBack (b : Buffer) (p : Pool) : Pool :=
  if p.idle.length < p.maxSize then ⟨p.maxSize, b :: p.idle, p.made⟩ else p

/-- What is left of a block that has borrowed a buffer.  When it has ended, in whatever way, the buffer goes back. -/
def lending {ε α : Type} (b : Buffer) (rest : EStateM ε Pool α) : EStateM ε Pool α :=
  try rest finally modify (giveBack b)

/-- Puts a frame together in a buffer of the pool, piece by piece, and gives the buffer back. -/
def buildFrame (p : Pool) (command : Text) (parameters : List Text) : Bytes × Pool :=
  let (buffer, p) := p.take
  let withCommand := buffer.write (Utf8.toWire command)
  let withParameters := parameters.foldl
    (fun b parameter => (b.write [Frame.enq]).write (Utf8.toWire (Frame.escape parameter))) withCommand
  let full := withParameters.write [Frame.eot]
  (full.content, p.giveBack full)

end Pool

end WireCodec
