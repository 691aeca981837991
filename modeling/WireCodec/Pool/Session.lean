import WireCodec.Pool.Basic

/-!
# Use of a pool over time

A session is a pool together with the blocks that have borrowed a buffer from it and have not ended.  Blocks
are named, and may end in any order.  A block ends normally or by a failure; either way what is left of it is run by
`lending`, which decides what becomes of its buffer and of the failure.
-/

namespace WireCodec.Pool

/-- A pool and its open blocks with the buffers they hold, the block opened last first. -/
structure Session where
  pool : Pool
  held : List (Text × Buffer)

/-- What may happen in a session. -/
inductive Event
  /-- A block that is not open begins and borrows a buffer. -/
  | acquire (block : Text)
  /-- A block adds bytes to its buffer. -/
  | write (block : Text) (data : Bytes)
  /-- A block looks at its buffer. -/
  | read (block : Text)
  /-- A block ends normally. -/
  | release (block : Text)
  /-- A block ends by a failure. -/
  | fail (block : Text)
  /-- A frame is put together with a buffer of the pool. -/
  | frame (command : Text) (parameters : List Text)
  /-- Nothing happens. -/
  | rest

/-- What is seen of an event. -/
inductive Outcome
  /-- The buffer that was borrowed. -/
  | acquired (buffer : Buffer)
  /-- The content of the buffer of a block. -/
  | content (data : Bytes)
  /-- A block ended, and a failure by which it ended was passed on or not. -/
  | ended (failurePassedOn : Bool)
  /-- The frame that was put together. -/
  | framed (data : Bytes)
  /-- Nothing is seen, or the event cannot happen since the block is not open, or open already. -/
  | nothing

namespace Session

/-- A pool without open blocks. -/
def start (p : Pool) : Session := ⟨p, []⟩

/-- The buffer that an open block holds. -/
def buffer? (block : Text) (s : Session) : Option Buffer := s.held.lookup block

/-- The session after a block has ended and left a pool behind. -/
def without (block : Text) (p : Pool) (s : Session) : Session := ⟨p, s.held.eraseP (·.1 == block)⟩

/-- The end of a block of which the given rest is left. -/
def finish (block : Text) (rest : EStateM Unit Pool Unit) (s : Session) : Outcome × Session :=
  match s.buffer? block with
  | some b =>
    match lending b rest s.pool with
    | .ok () p => (.ended false, s.without block p)
    | .error () p => (.ended true, s.without block p)
  | none => (.nothing, s)

/-- The session with another content of the buffer of a block. -/
def update (block : Text) (b : Buffer) (s : Session) : Session :=
  ⟨s.pool, s.held.map fun entry => if entry.1 = block then (block, b) else entry⟩

/-- One event, with what is seen of it. -/
def step (s : Session) : Event → Outcome × Session
  | .acquire block =>
    match s.buffer? block with
    | some _ => (.nothing, s)
    | none =>
      let (b, p) := s.pool.take
      (.acquired b, ⟨p, (block, b) :: s.held⟩)
  | .write block data =>
    match s.buffer? block with
    | some b => (.content (b.write data).content, s.update block (b.write data))
    | none => (.nothing, s)
  | .read block =>
    match s.buffer? block with
    | some b => (.content b.content, s)
    | none => (.nothing, s)
  | .release block => s.finish block (pure ())
  | .fail block => s.finish block (throw ())
  | .frame command parameters =>
    let (data, p) := s.pool.buildFrame command parameters
    (.framed data, ⟨p, s.held⟩)
  | .rest => (.nothing, s)

/-- The session after a sequence of events. -/
def run (s : Session) (events : List Event) : Session := events.foldl (fun s e => (s.step e).2) s

end Session

end WireCodec.Pool
