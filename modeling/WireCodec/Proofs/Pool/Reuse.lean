import WireCodec.Proofs.Pool.Exclusivity

/-!
# Reuse of buffers

What happens to a pool in a session is a sequence of moves: a buffer is lent, or one that was lent is taken back.  A
block is two moves that may be far apart, and a frame is two moves in a row.  `History` keeps what is past at a point
between two moves: which buffers were dropped, and how many were lent at most.

At every point each buffer that was made is idle, lent or dropped, and only one of these (`IsConserved.places`).  While
no more buffers are lent at once than the pool keeps, one that comes back finds room, since the idle and the lent ones
together are no more than that.  So none is dropped, and no more are made than were lent at once (`run_reuse`).
-/

namespace WireCodec.Pool

/-! ### Moves -/

/-- What is done to a pool. -/
inductive Move
  | lend
  | takeBack (b : Buffer)

/-- A pool with its past: the numbers of the buffers that are lent and of those that were dropped, and how many were
lent at once at most. -/
structure History where
  pool : Pool
  lent : List Nat
  dropped : List Nat
  peak : Nat

namespace History

/-- Nothing has happened to a pool of the given bound. -/
def start (maxSize : Nat) : History := ⟨empty maxSize, [], [], 0⟩

/-- The past after one more move.  A buffer that was taken back is dropped if it is not idle then. -/
def move (x : History) : Move → History
  | .lend => ⟨x.pool.take.2, x.pool.take.1.number :: x.lent, x.dropped, max x.peak (x.lent.length + 1)⟩
  | .takeBack b => ⟨x.pool.giveBack b, x.lent.erase b.number,
      if b ∈ (x.pool.giveBack b).idle then x.dropped else b.number :: x.dropped, x.peak⟩

/-- The past after a sequence of moves. -/
def run (x : History) (moves : List Move) : History := moves.foldl move x

/-- Only a buffer that is lent is taken back. -/
def IsPossible (x : History) : Move → Prop
  | .lend => True
  | .takeBack b => b.number ∈ x.lent

/-- Every move is possible when its turn comes. -/
def CanRun (x : History) : List Move → Prop
  | [] => True
  | m :: moves => x.IsPossible m ∧ (x.move m).CanRun moves

variable {x : History} {maxSize : Nat}

theorem run_append (x : History) (moves moves' : List Move) :
    x.run (moves ++ moves') = (x.run moves).run moves' := List.foldl_append

theorem canRun_append {moves moves' : List Move} :
    x.CanRun (moves ++ moves') ↔ x.CanRun moves ∧ (x.run moves).CanRun moves' := by
  induction moves generalizing x with
  | nil => exact (and_iff_right trivial).symm
  | cons m moves ih =>
    rw [List.cons_append, CanRun, CanRun, ih, and_assoc]
    rfl

/-! ### Conservation -/

/-- No buffer that was made is lost or in two places.  As long as no more buffers were lent at once than the pool
keeps, none was dropped, and as many were made as were lent at once. -/
structure IsConserved (maxSize : Nat) (x : History) : Prop where
  maxSize_eq : x.pool.maxSize = maxSize
  bounded : x.pool.idle.length ≤ maxSize
  places : (x.pool.idle.map Buffer.number ++ (x.lent ++ x.dropped)).Perm (List.range x.pool.made)
  lent_le : x.lent.length ≤ x.peak
  thrifty : x.peak ≤ maxSize → x.dropped = [] ∧ x.pool.made = x.peak

theorem isConserved_start (maxSize : Nat) : (start maxSize).IsConserved maxSize :=
  ⟨rfl, Nat.zero_le _, List.Perm.refl _, Nat.le_refl _, fun _ => ⟨rfl, rfl⟩⟩

theorem IsConserved.balance (h : x.IsConserved maxSize) :
    x.pool.made = x.lent.length + x.pool.idle.length + x.dropped.length := by
  have hlength := h.places.length_eq
  simp only [List.length_append, List.length_map, List.length_range] at hlength
  omega

theorem IsConserved.lend (h : x.IsConserved maxSize) : (x.move .lend).IsConserved maxSize := by
  have hbalance := h.balance
  have hplaces := h.places
  have hbounded := h.bounded
  cases hidle : x.pool.idle with
  | nil =>
    -- a new buffer has the next number
    rw [hidle] at hbalance hplaces
    have hmove : x.move .lend = ⟨⟨x.pool.maxSize, [], x.pool.made + 1⟩, x.pool.made :: x.lent, x.dropped,
        max x.peak (x.lent.length + 1)⟩ := by
      simp only [move, take_of_none hidle]
    rw [hmove]
    refine ⟨h.maxSize_eq, Nat.zero_le _, ?_, Nat.le_max_right _ _, fun hpeak => ?_⟩
    · show (x.pool.made :: (x.lent ++ x.dropped)).Perm (List.range (x.pool.made + 1))
      rw [List.range_succ]
      exact (hplaces.cons x.pool.made).trans (List.perm_append_singleton _ _).symm
    · obtain ⟨hdropped, hmade⟩ := h.thrifty (Nat.le_trans (Nat.le_max_left _ _) hpeak)
      rw [hdropped] at hbalance
      refine ⟨hdropped, ?_⟩
      simp only [List.length_nil] at hbalance ⊢
      omega
  | cons b rest =>
    -- the number moves from the idle buffers to the lent ones
    rw [hidle] at hbalance hplaces hbounded
    have hmove : x.move .lend = ⟨⟨x.pool.maxSize, rest, x.pool.made⟩, b.number :: x.lent, x.dropped,
        max x.peak (x.lent.length + 1)⟩ := by
      simp only [move, take_of_idle hidle]
    rw [hmove]
    refine ⟨h.maxSize_eq, Nat.le_trans (Nat.le_succ _) hbounded, List.perm_middle.trans hplaces,
      Nat.le_max_right _ _, fun hpeak => ?_⟩
    obtain ⟨hdropped, hmade⟩ := h.thrifty (Nat.le_trans (Nat.le_max_left _ _) hpeak)
    rw [hdropped] at hbalance
    refine ⟨hdropped, ?_⟩
    simp only [List.length_cons, List.length_nil] at hbalance ⊢
    omega

private theorem IsConserved.notMem_idle (h : x.IsConserved maxSize) {b : Buffer} (hb : b.number ∈ x.lent) :
    b ∉ x.pool.idle := by
  intro hidle
  have hnodup := h.places.nodup_iff.2 List.nodup_range
  exact (List.nodup_append.1 hnodup).2.2 _ (List.mem_map_of_mem hidle) _ (List.mem_append_left _ hb) rfl

theorem IsConserved.takeBack (h : x.IsConserved maxSize) {b : Buffer} (hb : b.number ∈ x.lent) :
    (x.move (.takeBack b)).IsConserved maxSize := by
  have hbalance := h.balance
  have hlent : (x.lent.erase b.number).length ≤ x.peak := Nat.le_trans List.length_erase_le h.lent_le
  have hplaces : (b.number :: (x.pool.idle.map Buffer.number ++ (x.lent.erase b.number ++ x.dropped))).Perm
      (List.range x.pool.made) :=
    List.perm_middle.symm.trans (((List.perm_cons_erase hb).symm.append_right x.dropped).append_left _ |>.trans h.places)
  by_cases hroom : x.pool.idle.length < x.pool.maxSize
  · have hgive : x.pool.giveBack b = ⟨x.pool.maxSize, b :: x.pool.idle, x.pool.made⟩ := if_pos hroom
    have hmove : x.move (.takeBack b) = ⟨⟨x.pool.maxSize, b :: x.pool.idle, x.pool.made⟩, x.lent.erase b.number,
        x.dropped, x.peak⟩ := by
      simp only [move, hgive, List.mem_cons_self, if_true]
    rw [hmove]
    exact ⟨h.maxSize_eq, h.maxSize_eq ▸ hroom, hplaces, hlent, h.thrifty⟩
  · have hgive : x.pool.giveBack b = x.pool := if_neg hroom
    have hmove : x.move (.takeBack b) = ⟨x.pool, x.lent.erase b.number, b.number :: x.dropped, x.peak⟩ := by
      simp only [move, hgive, if_neg (h.notMem_idle hb)]
    rw [hmove]
    refine ⟨h.maxSize_eq, h.bounded, ?_, hlent, fun hpeak => ?_⟩
    · refine List.Perm.trans ?_ hplaces
      show (x.pool.idle.map Buffer.number ++ (x.lent.erase b.number ++ b.number :: x.dropped)).Perm _
      rw [← List.append_assoc, ← List.append_assoc]
      exact List.perm_middle
    · -- the idle buffers and this one would be more than were made
      obtain ⟨-, hmade⟩ := h.thrifty hpeak
      have hpos := List.length_pos_of_mem hb
      have hsize := h.maxSize_eq
      have hpeak' : x.peak ≤ maxSize := hpeak
      omega

theorem IsConserved.run (h : x.IsConserved maxSize) {moves : List Move} (hmoves : x.CanRun moves) :
    (x.run moves).IsConserved maxSize := by
  induction moves generalizing x with
  | nil => exact h
  | cons m moves ih =>
    obtain ⟨hm, hmoves⟩ := hmoves
    refine ih ?_ hmoves
    cases m with
    | lend => exact h.lend
    | takeBack b => exact h.takeBack hm

/-- Where all buffers are, and when one is made or dropped. -/
structure IsAccounted (maxSize : Nat) (x : History) : Prop where
  places : (x.pool.idle.map Buffer.number ++ (x.lent ++ x.dropped)).Perm (List.range x.pool.made)
  balance : x.pool.made = x.lent.length + x.pool.idle.length + x.dropped.length
  made : ∀ m, (x.move m).pool.made ≠ x.pool.made → x.pool.idle = []
  dropped : ∀ m, (x.move m).dropped ≠ x.dropped → x.pool.idle.length = maxSize

theorem IsConserved.isAccounted (h : x.IsConserved maxSize) : x.IsAccounted maxSize := by
  refine ⟨h.places, h.balance, fun m hmade => ?_, fun m hdropped => ?_⟩
  · cases m with
    | lend =>
      cases hidle : x.pool.idle with
      | nil => rfl
      | cons b rest =>
        refine absurd ?_ hmade
        simp only [move, take_of_idle hidle]
    | takeBack b =>
      refine absurd ?_ hmade
      show (x.pool.giveBack b).made = _
      unfold giveBack
      split <;> rfl
  · cases m with
    | lend => exact absurd rfl hdropped
    | takeBack b =>
      refine Nat.le_antisymm h.bounded (Nat.not_lt.1 fun hlt => hdropped ?_)
      -- with room on the stack the buffer is idle afterwards
      have hroom : x.pool.idle.length < x.pool.maxSize := h.maxSize_eq.symm ▸ hlt
      have hidle : b ∈ (x.pool.giveBack b).idle := by
        rw [giveBack, if_pos hroom]
        exact List.mem_cons_self
      exact if_pos hidle

end History

/-! ### Sessions -/

namespace Session

/-- The moves of an event.  A frame is a block of its own. -/
def moves (s : Session) : Event → List Move
  | .acquire block => if (s.buffer? block).isSome then [] else [.lend]
  | .release block | .fail block => ((s.buffer? block).map Move.takeBack).toList
  | .frame command parameters => [.lend, .takeBack ⟨s.pool.take.1.number, Frame.build command parameters⟩]
  | .write _ _ | .read _ | .rest => []

/-- The moves of a sequence of events. -/
def allMoves (s : Session) : List Event → List Move
  | [] => []
  | event :: events => s.moves event ++ (s.step event).2.allMoves events

end Session

/-- The pool is that of a session, and the lent buffers are those of its open blocks. -/
structure History.Follows (x : History) (s : Session) : Prop where
  pool : x.pool = s.pool
  lent : x.lent.Perm (s.held.map fun entry => entry.2.number)

namespace Session

variable {maxSize : Nat} {s : Session} {x : History}

private theorem follows_update (h : x.Follows s) (hs : s.IsSound maxSize) {block : Text} {b : Buffer}
    (hb : s.buffer? block = some b) (data : Bytes) : x.Follows (s.update block (b.write data)) := by
  obtain ⟨before, after, hheld, hother⟩ := hs.exists_split hb
  have hlent := h.lent
  rw [hheld, List.map_append, List.map_cons] at hlent
  refine ⟨h.pool, ?_⟩
  rw [held_update hheld hother, List.map_append, List.map_cons]
  exact hlent

private theorem follows_close (h : x.Follows s) (hs : s.IsSound maxSize) {block : Text} {b : Buffer}
    (hb : s.buffer? block = some b) :
    x.CanRun [.takeBack b] ∧ (x.run [.takeBack b]).Follows (s.close block b) := by
  obtain ⟨before, after, hheld, hother⟩ := hs.exists_split hb
  have hlent := h.lent
  rw [hheld, List.map_append, List.map_cons] at hlent
  have hfront := hlent.trans List.perm_middle
  refine ⟨⟨hfront.mem_iff.2 List.mem_cons_self, trivial⟩, ?_, ?_⟩
  · show x.pool.giveBack b = _
    rw [h.pool]
    rfl
  · show (x.lent.erase b.number).Perm _
    have herase := hfront.erase b.number
    rw [List.erase_cons_head] at herase
    rw [held_close hheld hother, List.map_append]
    exact herase

/-- The moves of an event are possible, and lead to the session after it. -/
private theorem follows_step (h : x.Follows s) (hs : s.IsSound maxSize) (event : Event) :
    x.CanRun (s.moves event) ∧ (x.run (s.moves event)).Follows (s.step event).2 := by
  cases event with
  | acquire block =>
    cases hb : s.buffer? block with
    | some b =>
      simp only [moves, step, hb]
      exact ⟨trivial, h⟩
    | none =>
      simp only [moves, hb, step_acquire hb]
      refine ⟨⟨trivial, trivial⟩, ?_, ?_⟩
      · show x.pool.take.2 = _
        rw [h.pool]
      · show (x.pool.take.1.number :: x.lent).Perm (s.pool.take.1.number :: _)
        rw [h.pool]
        exact h.lent.cons _
  | write block data =>
    cases hb : s.buffer? block with
    | some b =>
      rw [step_write hb]
      exact ⟨trivial, follows_update h hs hb data⟩
    | none =>
      simp only [step, hb]
      exact ⟨trivial, h⟩
  | read block =>
    cases hb : s.buffer? block with
    | some b =>
      simp only [step, hb]
      exact ⟨trivial, h⟩
    | none =>
      simp only [step, hb]
      exact ⟨trivial, h⟩
  | release block =>
    cases hb : s.buffer? block with
    | some b =>
      simp only [moves, hb, step_release hb]
      exact follows_close h hs hb
    | none =>
      simp only [moves, step, hb, finish_of_none hb]
      exact ⟨trivial, h⟩
  | fail block =>
    cases hb : s.buffer? block with
    | some b =>
      simp only [moves, hb, step_fail hb]
      exact follows_close h hs hb
    | none =>
      simp only [moves, step, hb, finish_of_none hb]
      exact ⟨trivial, h⟩
  | frame command parameters =>
    have hnumber : x.pool.take.1.number = s.pool.take.1.number := by rw [h.pool]
    refine ⟨⟨trivial, ?_, trivial⟩, ?_, ?_⟩
    · show s.pool.take.1.number ∈ x.pool.take.1.number :: x.lent
      rw [hnumber]
      exact List.mem_cons_self
    · show x.pool.take.2.giveBack _ = (s.pool.buildFrame command parameters).2
      rw [h.pool, buildFrame_eq]
    · show ((x.pool.take.1.number :: x.lent).erase s.pool.take.1.number).Perm _
      rw [hnumber, List.erase_cons_head]
      exact h.lent
  | rest => exact ⟨trivial, h⟩

private theorem follows_run (h : x.Follows s) (hs : s.IsSound maxSize) (events : List Event) :
    x.CanRun (s.allMoves events) ∧ (x.run (s.allMoves events)).Follows (s.run events) := by
  induction events generalizing s x with
  | nil => exact ⟨trivial, h⟩
  | cons event events ih =>
    obtain ⟨hcan, hfollows⟩ := follows_step h hs event
    obtain ⟨hcan', hfollows'⟩ := ih hfollows (hs.step event)
    rw [allMoves, History.canRun_append, History.run_append]
    exact ⟨⟨hcan, hcan'⟩, hfollows'⟩

/-- The moves of a session are those of its pool.  At every point between two of them the buffers that were made are
accounted for, one is made only if none is idle, and one is dropped only if the stack is full.  So if no more blocks and
frames are open at once than the pool keeps buffers, none is ever dropped, and as many are made as were open at once. -/
theorem run_reuse (maxSize : Nat) (events : List Event) :
    let all := (start (empty maxSize)).allMoves events
    let past := (History.start maxSize).run
    (past all).Follows ((start (empty maxSize)).run events) ∧
      (∀ moves, moves <+: all → (past moves).IsAccounted maxSize) ∧
      ((past all).peak ≤ maxSize → (past all).dropped = [] ∧ (past all).pool.made = (past all).peak) := by
  intro all past
  have hstart : (History.start maxSize).Follows (start (empty maxSize)) := ⟨rfl, List.Perm.refl _⟩
  obtain ⟨hcan, hfollows⟩ := follows_run hstart (isSound_start maxSize) events
  have hconserved := History.isConserved_start maxSize
  refine ⟨hfollows, fun moves hprefix => ?_, (hconserved.run hcan).thrifty⟩
  -- what can be run can be run up to any point
  obtain ⟨rest, hrest⟩ := hprefix
  have hcan' : (History.start maxSize).CanRun (moves ++ rest) := hrest ▸ hcan
  exact (hconserved.run (History.canRun_append.1 hcan').1).isAccounted

/-- Two blocks overlap, a frame is built beside the first one, and the first one fails before the second is closed. -/
def overlapping : List Event :=
  [.acquire (Text.ofString "a"), .write (Text.ofString "a") [0x58], .frame (Text.ofString "SHOW") [],
    .acquire (Text.ofString "b"), .fail (Text.ofString "a"), .frame (Text.ofString "USE") [Text.ofString "x"],
    .acquire (Text.ofString "a"), .release (Text.ofString "b"), .release (Text.ofString "a")]

theorem run_reuse_overlapping :
    let past := (History.start 2).run ((start (empty 2)).allMoves overlapping)
    past.peak = 2 ∧ past.dropped = [] ∧ past.pool.made = 2 ∧ ((start (empty 2)).run overlapping).pool = past.pool := by
  intro past
  have hpeak : past.peak = 2 := by decide +kernel
  obtain ⟨hfollows, -, hthrifty⟩ := run_reuse 2 overlapping
  obtain ⟨hdropped, hmade⟩ := hthrifty (Nat.le_of_eq hpeak)
  exact ⟨hpeak, hdropped, hmade.trans hpeak, hfollows.pool.symm⟩

/-- With room for one buffer alone, the one that comes back last is dropped. -/
example : ((History.start 1).run ((start (empty 1)).allMoves overlapping)).dropped = [0] := by decide +kernel

end Session

end WireCodec.Pool
