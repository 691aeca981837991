import Mathlib.Data.List.Perm.Basic
import WireCodec.Pool.Basic

/-!
# Lending buffers

What a pool has lent is followed by the numbers of the buffers (`Lends`): handing out a buffer adds its number, and
taking it back removes it, whether the buffer is kept or dropped.  A block gives its buffer back whether it succeeds
or fails, and ends as the rest of it does (`lending_of_ok`, `lending_of_error`).  A frame is put together in a buffer
that is lent for this time only (`buildFrame_eq`).
-/

namespace WireCodec.Pool

/-- A pool of the given bound that has lent the buffers with the given numbers.  No buffer is in two places, and a
number that has not been given yet is new. -/
structure Lends (maxSize : Nat) (out : List Nat) (p : Pool) : Prop where
  maxSize_eq : p.maxSize = maxSize
  bounded : p.idle.length ≤ maxSize
  nodup : (p.idle.map Buffer.number ++ out).Nodup
  lt_made : ∀ n ∈ p.idle.map Buffer.number ++ out, n < p.made

variable {maxSize : Nat} {out out' : List Nat} {p : Pool}

theorem lends_empty (maxSize : Nat) : (empty maxSize).Lends maxSize [] :=
  ⟨rfl, Nat.zero_le _, List.nodup_nil, nofun⟩

/-- In which order buffers were lent does not matter. -/
theorem Lends.perm (h : p.Lends maxSize out) (hout : out.Perm out') : p.Lends maxSize out' := by
  have hall := hout.append_left (p.idle.map Buffer.number)
  exact ⟨h.maxSize_eq, h.bounded, hall.nodup_iff.1 h.nodup, fun n hn => h.lt_made n (hall.mem_iff.2 hn)⟩

theorem content_take (p : Pool) : p.take.1.content = [] := by
  unfold take
  split <;> rfl

theorem take_of_idle {b : Buffer} {rest : List Buffer} (h : p.idle = b :: rest) :
    p.take = (⟨b.number, []⟩, ⟨p.maxSize, rest, p.made⟩) := by
  simp only [take, h]

theorem take_of_none (h : p.idle = []) : p.take = (⟨p.made, []⟩, ⟨p.maxSize, [], p.made + 1⟩) := by
  simp only [take, h]

theorem Lends.take (h : p.Lends maxSize out) : p.take.2.Lends maxSize (p.take.1.number :: out) := by
  obtain ⟨size, idle, made⟩ := p
  obtain ⟨hsize, hbounded, hnodup, hmade⟩ := h
  cases idle with
  | nil =>
    -- a new buffer has the next number
    refine ⟨hsize, hbounded, List.nodup_cons.2 ⟨fun hmem => ?_, hnodup⟩, fun n hn => ?_⟩
    · exact Nat.lt_irrefl _ (hmade made hmem)
    · rcases List.mem_cons.1 hn with rfl | hn
      · exact Nat.lt_succ_self _
      · exact Nat.lt_succ_of_lt (hmade n hn)
  | cons b rest =>
    -- the number only moves from the idle buffers to the lent ones
    have hmoved : (b.number :: (rest.map Buffer.number ++ out)).Perm (rest.map Buffer.number ++ b.number :: out) :=
      List.perm_middle.symm
    refine ⟨hsize, ?_, hmoved.nodup_iff.1 hnodup, fun n hn => hmade n (hmoved.mem_iff.2 hn)⟩
    exact Nat.le_trans (Nat.le_succ _) hbounded

theorem Lends.giveBack {b : Buffer} (h : p.Lends maxSize (b.number :: out)) : (p.giveBack b).Lends maxSize out := by
  obtain ⟨hsize, hbounded, hnodup, hmade⟩ := h
  unfold Pool.giveBack
  by_cases hlt : p.idle.length < p.maxSize
  · have hmoved : (p.idle.map Buffer.number ++ b.number :: out).Perm (b.number :: (p.idle.map Buffer.number ++ out)) :=
      List.perm_middle
    rw [if_pos hlt]
    exact ⟨hsize, hsize ▸ hlt, hmoved.nodup_iff.1 hnodup, fun n hn => hmade n (hmoved.mem_iff.2 hn)⟩
  · -- the buffer is dropped
    have hless : (p.idle.map Buffer.number ++ out).Sublist (p.idle.map Buffer.number ++ b.number :: out) :=
      (List.sublist_cons_self _ _).append_left _
    rw [if_neg hlt]
    exact ⟨hsize, hbounded, hless.nodup hnodup, fun n hn => hmade n (hless.mem hn)⟩

/-! ### Blocks -/

section Blocks

variable {ε α : Type} {rest : EStateM ε Pool α} {b : Buffer} {p' : Pool}

theorem lending_of_ok {a : α} (h : rest p = .ok a p') : lending b rest p = .ok a (p'.giveBack b) := by
  simp only [lending, tryFinally, tryFinally', Functor.map, EStateM.map, h]
  rfl

theorem lending_of_error {e : ε} (h : rest p = .error e p') : lending b rest p = .error e (p'.giveBack b) := by
  simp only [lending, tryFinally, tryFinally', Functor.map, EStateM.map, h]
  rfl

end Blocks

/-! ### Frames -/

private theorem foldl_write (parameters : List Text) (b : Buffer) :
    parameters.foldl (fun b parameter => (b.write [Frame.enq]).write (Utf8.toWire (Frame.escape parameter))) b =
      b.write (parameters.flatMap Frame.parameterBytes) := by
  induction parameters generalizing b with
  | nil => simp [Buffer.write]
  | cons parameter parameters ih =>
    rw [List.foldl_cons, ih]
    simp [Buffer.write, Frame.parameterBytes]

/-- A frame does not depend on the pool, and its buffer is given back with the frame in it. -/
theorem buildFrame_eq (p : Pool) (command : Text) (parameters : List Text) :
    p.buildFrame command parameters =
      (Frame.build command parameters, p.take.2.giveBack ⟨p.take.1.number, Frame.build command parameters⟩) := by
  have hcontent := content_take p
  unfold buildFrame
  dsimp only
  rw [foldl_write]
  simp only [Buffer.write, hcontent, Frame.build, List.nil_append]

theorem Lends.buildFrame (h : p.Lends maxSize out) (command : Text) (parameters : List Text) :
    (p.buildFrame command parameters).2.Lends maxSize out := by
  rw [buildFrame_eq]
  exact Lends.giveBack h.take

end WireCodec.Pool
