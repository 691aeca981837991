import Mathlib.Data.List.Nodup
import WireCodec.Pool.Session
import WireCodec.Proofs.Pool.Lending

/-!
# Exclusive use of buffers

Blocks may overlap in any way and end in any order, normally or by a failure.  Still the buffers that open blocks
hold are exactly those that the pool has lent, and every event keeps this so (`IsSound`).  Therefore a buffer is
never in two places (`IsExclusive`), and it makes no difference whether a block has its buffer for itself or only
refers to it: bytes that are written through a reference reach no other block (`writeThrough`).
-/

namespace WireCodec.Pool.Session

/-- The buffers of the open blocks are those that the pool has lent, and no block is open twice. -/
structure IsSound (maxSize : Nat) (s : Session) : Prop where
  lends : s.pool.Lends maxSize (s.held.map fun entry => entry.2.number)
  blocks : (s.held.map Prod.fst).Nodup

/-- The session after a block has given its buffer back. -/
def close (block : Text) (b : Buffer) (s : Session) : Session := s.without block (s.pool.giveBack b)

variable {maxSize : Nat} {s : Session} {block : Text} {b : Buffer}

theorem isSound_start (maxSize : Nat) : (start (empty maxSize)).IsSound maxSize :=
  ⟨lends_empty maxSize, List.nodup_nil⟩

/-! ### One block among the others -/

section Split

variable {before after : List (Text × Buffer)}

private theorem IsSound.nodup_split (h : s.IsSound maxSize) (hheld : s.held = before ++ (block, b) :: after) :
    (block :: (before ++ after).map Prod.fst).Nodup := by
  have hblocks := h.blocks
  rwa [hheld, List.map_append, List.map_cons, List.perm_middle.nodup_iff, ← List.map_append] at hblocks

/-- The entry of an open block, and the entries of the other blocks around it. -/
theorem IsSound.exists_split (h : s.IsSound maxSize) (hb : s.buffer? block = some b) :
    ∃ before after, s.held = before ++ (block, b) :: after ∧ ∀ entry ∈ before ++ after, entry.1 ≠ block := by
  obtain ⟨before, after, hheld, -⟩ := List.lookup_eq_some_iff.1 hb
  have hother := (List.nodup_cons.1 (h.nodup_split hheld)).1
  refine ⟨before, after, hheld, fun entry hentry heq => hother ?_⟩
  exact List.mem_map.2 ⟨entry, hentry, heq⟩

private theorem map_split {f : Text × Buffer → Text × Buffer} (h : ∀ entry ∈ before ++ after, f entry = entry)
    (entry : Text × Buffer) : (before ++ entry :: after).map f = before ++ f entry :: after := by
  have hbefore : before.map f = before.map id :=
    List.map_congr_left fun e he => h e (List.mem_append_left _ he)
  have hafter : after.map f = after.map id :=
    List.map_congr_left fun e he => h e (List.mem_append_right _ he)
  rw [List.map_append, List.map_cons, hbefore, hafter, List.map_id, List.map_id]

private theorem eraseP_split (h : ∀ entry ∈ before ++ after, entry.1 ≠ block) :
    (before ++ (block, b) :: after).eraseP (·.1 == block) = before ++ after := by
  have hbefore : ∀ entry ∈ before, ¬(entry.1 == block) = true := fun entry hentry => by
    simpa using h entry (List.mem_append_left _ hentry)
  rw [List.eraseP_append_right _ hbefore, List.eraseP_cons_of_pos (by simp)]

private theorem lookup_split (h : ∀ entry ∈ before ++ after, entry.1 ≠ block) (other : Text) :
    (before ++ (block, b) :: after).lookup other =
      if other = block then some b else (before ++ after).lookup other := by
  by_cases hother : other = block
  · rw [if_pos hother, hother]
    refine List.lookup_eq_some_iff.2 ⟨before, after, rfl, fun entry hentry => ?_⟩
    simpa using Ne.symm (h entry (List.mem_append_left _ hentry))
  · have hne : (other == block) = false := by simpa using hother
    rw [if_neg hother, List.lookup_append, List.lookup_append, List.lookup_cons, hne]

private theorem lookup_others (h : ∀ entry ∈ before ++ after, entry.1 ≠ block) :
    (before ++ after).lookup block = none := by
  refine List.lookup_eq_none_iff.2 fun entry hentry => ?_
  simpa using Ne.symm (h entry hentry)

theorem held_update (hheld : s.held = before ++ (block, b) :: after)
    (h : ∀ entry ∈ before ++ after, entry.1 ≠ block) (b' : Buffer) :
    (s.update block b').held = before ++ (block, b') :: after := by
  unfold Session.update
  rw [hheld, map_split fun entry hentry => if_neg (h entry hentry), if_pos rfl]

theorem held_close (hheld : s.held = before ++ (block, b) :: after)
    (h : ∀ entry ∈ before ++ after, entry.1 ≠ block) : (s.close block b).held = before ++ after := by
  unfold Session.close Session.without
  rw [hheld, eraseP_split h]

end Split

/-! ### Events -/

theorem step_acquire (hb : s.buffer? block = none) :
    s.step (.acquire block) = (.acquired s.pool.take.1, ⟨s.pool.take.2, (block, s.pool.take.1) :: s.held⟩) := by
  simp only [step, hb]

theorem step_write (hb : s.buffer? block = some b) (data : Bytes) :
    s.step (.write block data) = (.content (b.content ++ data), s.update block (b.write data)) := by
  simp only [step, hb]
  rfl

theorem finish_of_none (hb : s.buffer? block = none) (rest : EStateM Unit Pool Unit) :
    s.finish block rest = (.nothing, s) := by
  simp only [finish, hb]

theorem step_release (hb : s.buffer? block = some b) : s.step (.release block) = (.ended false, s.close block b) := by
  have hend : lending b (pure ()) s.pool = (.ok () (s.pool.giveBack b) : EStateM.Result Unit Pool Unit) :=
    lending_of_ok rfl
  show s.finish block (pure ()) = _
  simp only [finish, hb, hend]
  rfl

/-- The buffer goes back before the failure is passed on. -/
theorem step_fail (hb : s.buffer? block = some b) : s.step (.fail block) = (.ended true, s.close block b) := by
  have hend : lending b (throw ()) s.pool = (.error () (s.pool.giveBack b) : EStateM.Result Unit Pool Unit) :=
    lending_of_error rfl
  show s.finish block (throw ()) = _
  simp only [finish, hb, hend]
  rfl

theorem IsSound.acquire (h : s.IsSound maxSize) (hb : s.buffer? block = none) :
    IsSound maxSize ⟨s.pool.take.2, (block, s.pool.take.1) :: s.held⟩ := by
  refine ⟨h.lends.take, List.nodup_cons.2 ⟨fun hmem => ?_, h.blocks⟩⟩
  obtain ⟨entry, hentry, heq⟩ := List.mem_map.1 hmem
  have hne := List.lookup_eq_none_iff.1 hb entry hentry
  simp [heq] at hne

theorem IsSound.update (h : s.IsSound maxSize) (hb : s.buffer? block = some b) (data : Bytes) :
    (s.update block (b.write data)).IsSound maxSize := by
  obtain ⟨before, after, hheld, hother⟩ := h.exists_split hb
  have hheld' := held_update hheld hother (b.write data)
  have hlends := h.lends
  have hblocks := h.blocks
  -- neither the blocks nor the numbers of their buffers change
  rw [hheld, List.map_append, List.map_cons] at hlends hblocks
  constructor
  · rw [hheld', List.map_append, List.map_cons]
    exact hlends
  · rw [hheld', List.map_append, List.map_cons]
    exact hblocks

theorem IsSound.close (h : s.IsSound maxSize) (hb : s.buffer? block = some b) : (s.close block b).IsSound maxSize := by
  obtain ⟨before, after, hheld, hother⟩ := h.exists_split hb
  have hheld' := held_close hheld hother
  have hlends := h.lends
  rw [hheld, List.map_append, List.map_cons] at hlends
  constructor
  · -- the pool takes back one of the buffers that it has lent, not always the last one
    rw [hheld', List.map_append]
    exact (hlends.perm List.perm_middle).giveBack
  · rw [hheld']
    exact (List.nodup_cons.1 (h.nodup_split hheld)).2

/-- Every event keeps a session sound. -/
theorem IsSound.step (h : s.IsSound maxSize) (event : Event) : (s.step event).2.IsSound maxSize := by
  cases event with
  | acquire block =>
    cases hb : s.buffer? block with
    | some b => simpa only [Session.step, hb] using h
    | none =>
      rw [step_acquire hb]
      exact h.acquire hb
  | write block data =>
    cases hb : s.buffer? block with
    | some b =>
      rw [step_write hb]
      exact h.update hb data
    | none => simpa only [Session.step, hb] using h
  | read block =>
    cases hb : s.buffer? block with
    | some b => simpa only [Session.step, hb] using h
    | none => simpa only [Session.step, hb] using h
  | release block =>
    cases hb : s.buffer? block with
    | some b =>
      rw [step_release hb]
      exact h.close hb
    | none => simpa only [Session.step, finish_of_none hb] using h
  | fail block =>
    cases hb : s.buffer? block with
    | some b =>
      rw [step_fail hb]
      exact h.close hb
    | none => simpa only [Session.step, finish_of_none hb] using h
  | frame command parameters => exact ⟨h.lends.buildFrame command parameters, h.blocks⟩
  | rest => exact h

theorem IsSound.run (h : s.IsSound maxSize) (events : List Event) : (s.run events).IsSound maxSize := by
  -- by induction on the events, the session being sound before each of them
  induction events generalizing s with
  | nil => exact h
  | cons event events ih => exact ih (h.step event)

/-! ### What this means -/

/-- At most so many buffers are idle, and no buffer is in two places. -/
structure IsExclusive (maxSize : Nat) (s : Session) : Prop where
  bounded : s.pool.idle.length ≤ maxSize
  idle : (s.pool.idle.map Buffer.number).Nodup
  apart : ∀ b ∈ s.pool.idle, ∀ entry ∈ s.held, b.number ≠ entry.2.number
  held : s.held.Pairwise fun entry other => entry.1 ≠ other.1 ∧ entry.2.number ≠ other.2.number

theorem IsSound.isExclusive (h : s.IsSound maxSize) : s.IsExclusive maxSize := by
  obtain ⟨hidle, hheld, hapart⟩ := List.nodup_append.1 h.lends.nodup
  refine ⟨h.lends.bounded, hidle, fun b hb entry hentry => ?_, ?_⟩
  · exact hapart _ (List.mem_map_of_mem hb) _ (List.mem_map.2 ⟨entry, hentry, rfl⟩)
  · exact (List.pairwise_map.1 h.blocks).and (List.pairwise_map.1 hheld)

/-- A block that begins borrows an empty buffer, which no other open block holds. -/
def AcquiresEmpty (s : Session) : Prop :=
  ∀ block, s.buffer? block = none → ∃ n s', s.step (.acquire block) = (.acquired ⟨n, []⟩, s') ∧
    s'.held = (block, ⟨n, []⟩) :: s.held ∧ ∀ entry ∈ s.held, entry.2.number ≠ n

theorem IsSound.acquiresEmpty (h : s.IsSound maxSize) : s.AcquiresEmpty := by
  intro block hb
  have hempty : s.pool.take.1 = ⟨s.pool.take.1.number, []⟩ := by rw [← content_take s.pool]
  -- the block is apart from the others because the session with it is sound
  have hnext := (h.acquire hb).isExclusive.held
  rw [List.pairwise_cons] at hnext
  refine ⟨s.pool.take.1.number, ⟨s.pool.take.2, (block, ⟨s.pool.take.1.number, []⟩) :: s.held⟩, ?_, rfl,
    fun entry hentry => (hnext.1 entry hentry).2.symm⟩
  rw [step_acquire hb, ← hempty]

/-- The buffer with more bytes if it has the number, and any other buffer as it is. -/
def addTo (number : Nat) (data : Bytes) (b : Buffer) : Buffer := if b.number = number then b.write data else b

/-- The session after bytes were written through a reference to the buffer with a number, wherever this buffer is. -/
def writeThrough (number : Nat) (data : Bytes) (s : Session) : Session :=
  ⟨⟨s.pool.maxSize, s.pool.idle.map (addTo number data), s.pool.made⟩,
    s.held.map fun entry => (entry.1, addTo number data entry.2)⟩

/-- A block that writes changes its buffer, also for all who refer to this buffer, and nothing else changes. -/
def WritesAlone (s : Session) : Prop :=
  ∀ block b data, s.buffer? block = some b → ∃ s', s.step (.write block data) = (.content (b.content ++ data), s') ∧
    s' = s.writeThrough b.number data ∧ s'.pool = s.pool ∧
    ∀ other, s'.buffer? other = if other = block then some (b.write data) else s.buffer? other

theorem IsSound.writesAlone (h : s.IsSound maxSize) : s.WritesAlone := by
  intro block b data hb
  obtain ⟨before, after, hheld, hother⟩ := h.exists_split hb
  have hheld' := held_update hheld hother (b.write data)
  have hentry : (block, b) ∈ s.held := by rw [hheld]; simp
  refine ⟨s.update block (b.write data), step_write hb data, ?_, rfl, fun other => ?_⟩
  · -- neither an idle buffer nor one of another block has the number
    have hidle : s.pool.idle.map (addTo b.number data) = s.pool.idle.map id :=
      List.map_congr_left fun b' hb' => if_neg (h.isExclusive.apart b' hb' _ hentry)
    have hnumbers : ∀ entry ∈ before ++ after, entry.2.number ≠ b.number := by
      have hpairwise := h.isExclusive.held
      rw [hheld, List.pairwise_middle fun hne => ⟨hne.1.symm, hne.2.symm⟩, List.pairwise_cons] at hpairwise
      exact fun entry hentry => (hpairwise.1 entry hentry).2.symm
    have hmap : s.held.map (fun entry => (entry.1, addTo b.number data entry.2)) =
        before ++ (block, b.write data) :: after := by
      rw [hheld, map_split fun entry hentry => ?_, addTo, if_pos rfl]
      rw [addTo, if_neg (hnumbers entry hentry)]
    rw [writeThrough, hidle, hmap, ← hheld', List.map_id]
    rfl
  · unfold buffer?
    rw [hheld', hheld, lookup_split hother, lookup_split hother]
    split <;> rfl

/-- A block that ends gives its buffer back, and a failure by which it ends is passed on and changes nothing else. -/
def EndsAlike (s : Session) : Prop :=
  ∀ block b, s.buffer? block = some b → ∃ s', s.step (.release block) = (.ended false, s') ∧
    s.step (.fail block) = (.ended true, s') ∧ s'.pool = s.pool.giveBack b ∧
    ∀ other, s'.buffer? other = if other = block then none else s.buffer? other

theorem IsSound.endsAlike (h : s.IsSound maxSize) : s.EndsAlike := by
  intro block b hb
  obtain ⟨before, after, hheld, hother⟩ := h.exists_split hb
  refine ⟨s.close block b, step_release hb, step_fail hb, rfl, fun other => ?_⟩
  unfold buffer?
  rw [held_close hheld hother, hheld, lookup_split hother]
  by_cases heq : other = block
  · rw [if_pos heq, heq, lookup_others hother]
  · rw [if_neg heq, if_neg heq]

/-- A frame is put together in a buffer that is empty and that no open block holds. -/
def FramesApart (s : Session) : Prop :=
  ∀ command parameters, ∃ s', s.step (.frame command parameters) = (.framed (Frame.build command parameters), s') ∧
    s'.held = s.held

theorem framesApart (s : Session) : s.FramesApart := by
  intro command parameters
  have hframe : (s.pool.buildFrame command parameters).1 = Frame.build command parameters := by rw [buildFrame_eq]
  refine ⟨⟨(s.pool.buildFrame command parameters).2, s.held⟩, ?_, rfl⟩
  rw [← hframe]
  rfl

/-- Whatever has happened with a pool, its buffers are in one place each, blocks and frames begin with an empty one,
blocks write to their own only, and they give it back in the same way when they fail. -/
theorem run_exclusive (maxSize : Nat) (events : List Event) :
    let s := (start (empty maxSize)).run events
    s.IsExclusive maxSize ∧ s.AcquiresEmpty ∧ s.FramesApart ∧ s.WritesAlone ∧ s.EndsAlike := by
  have h := (isSound_start maxSize).run events
  exact ⟨h.isExclusive, h.acquiresEmpty, framesApart _, h.writesAlone, h.endsAlike⟩

/-- Of two overlapping blocks the one that ends last finds the pool full, and the next block has the other buffer. -/
example : ((start (empty 1)).run [.acquire "a", .acquire "b", .write "a" [1], .write "b" [2], .fail "a",
    .release "b", .acquire "c"]).held = [(Text.ofString "c", ⟨0, []⟩)] := by decide

end WireCodec.Pool.Session
