import WireCodec.Proofs.Pool.Exclusivity

/-!
# Frames and the state of a pool

Putting a frame together takes a buffer from the pool, writes to it piece by piece and gives it back.  Nothing of the
past of the pool is seen in the frame.  Of the pool it is seen afterwards only what the top of the stack holds, and a
new buffer if none was idle (`Pool.buildFrame_idle`); no other buffer is reached by what is written
(`IsSound.writeThrough_frame`).  So it is in every state that a session can be in (`run_frame`).
-/

namespace WireCodec.Pool

/-- The idle buffers of a pool after a frame was put together: the buffer on top holds the frame, and if there was no
buffer, a new one does, unless the pool keeps none. -/
def idleWith (frame : Bytes) (p : Pool) : List Buffer :=
  match p.idle with
  | b :: rest => ⟨b.number, frame⟩ :: rest
  | [] => if p.maxSize = 0 then [] else [⟨p.made, frame⟩]

theorem buildFrame_idle {p : Pool} (h : p.idle.length ≤ p.maxSize) (command : Text) (parameters : List Text) :
    (p.buildFrame command parameters).2.idle = p.idleWith (Frame.build command parameters) := by
  obtain ⟨size, idle, made⟩ := p
  rw [buildFrame_eq]
  dsimp only
  cases idle with
  | nil =>
    by_cases hsize : size = 0
    · simp [take, giveBack, idleWith, hsize]
    · have hpos : 0 < size := Nat.pos_of_ne_zero hsize
      simp [take, giveBack, idleWith, hsize, hpos]
  | cons b rest =>
    -- taking the buffer has left room for it
    have hroom : rest.length < size := h
    simp [take, giveBack, idleWith, hroom]

namespace Session

variable {maxSize : Nat} {s : Session}

/-- What is written to the buffer of a frame reaches neither an idle buffer nor one that a block holds. -/
theorem IsSound.writeThrough_frame (h : s.IsSound maxSize) (data : Bytes) :
    writeThrough s.pool.take.1.number data ⟨s.pool.take.2, s.held⟩ = ⟨s.pool.take.2, s.held⟩ := by
  have hnodup := h.lends.take.nodup
  rw [List.perm_middle.nodup_iff] at hnodup
  have hnot := (List.nodup_cons.1 hnodup).1
  have hidle : s.pool.take.2.idle.map (addTo s.pool.take.1.number data) = s.pool.take.2.idle.map id := by
    refine List.map_congr_left fun b hb => if_neg fun hnumber => hnot ?_
    exact List.mem_append_left _ (List.mem_map.2 ⟨b, hb, hnumber⟩)
  have hheld : s.held.map (fun entry => (entry.1, addTo s.pool.take.1.number data entry.2)) = s.held.map id := by
    refine List.map_congr_left fun entry hentry => ?_
    rw [addTo, if_neg fun hnumber => hnot (List.mem_append_right _ (List.mem_map.2 ⟨entry, hentry, hnumber⟩))]
    rfl
  rw [writeThrough, hidle, hheld, List.map_id, List.map_id]

/-- A session after a frame was put together in it: the blocks hold what they held, the same buffers are idle in the
same order, and there is a new one only if none was idle and the pool keeps one. -/
structure IsKept (frame : Bytes) (s s' : Session) : Prop where
  held : s'.held = s.held
  maxSize : s'.pool.maxSize = s.pool.maxSize
  reused : ∀ b rest, s.pool.idle = b :: rest →
    s'.pool.idle = ⟨b.number, frame⟩ :: rest ∧ s'.pool.made = s.pool.made
  new : s.pool.idle = [] → s.pool.maxSize ≠ 0 → s'.pool.idle = [⟨s.pool.made, frame⟩] ∧
    ∀ entry ∈ s.held, entry.2.number < s.pool.made
  dropped : s.pool.idle = [] → s.pool.maxSize = 0 → s'.pool.idle = []

theorem IsSound.isKept (h : s.IsSound maxSize) (command : Text) (parameters : List Text) :
    IsKept (Frame.build command parameters) s ⟨(s.pool.buildFrame command parameters).2, s.held⟩ := by
  have hbounded : s.pool.idle.length ≤ s.pool.maxSize := h.lends.maxSize_eq ▸ h.lends.bounded
  have hidle := buildFrame_idle hbounded command parameters
  unfold idleWith at hidle
  refine ⟨rfl, ?_, fun b rest hstack => ?_, fun hempty hsize => ?_, fun hempty hsize => ?_⟩
  · exact (h.lends.buildFrame command parameters).maxSize_eq.trans h.lends.maxSize_eq.symm
  · rw [hstack] at hidle
    refine ⟨hidle, ?_⟩
    rw [buildFrame_eq]
    unfold giveBack take
    rw [hstack]
    dsimp only
    split <;> rfl
  · rw [hempty, if_neg hsize] at hidle
    refine ⟨hidle, fun entry hentry => h.lends.lt_made _ ?_⟩
    exact List.mem_append_right _ (List.mem_map.2 ⟨entry, hentry, rfl⟩)
  · rw [hempty, if_pos hsize] at hidle
    exact hidle

/-- In every state of a session a frame is the bytes of the command, the delimiter and the bytes of the escaped value
of each parameter, and the terminator, as with a pool without any past.  While it is put together no other buffer is
reached, and afterwards the session is what it was, but for the content of the buffer that was used. -/
theorem run_frame (maxSize : Nat) (events : List Event) (command : Text) (parameters : List Text) :
    let s := (start (empty maxSize)).run events
    let frame := Utf8.toWire command ++
      (parameters.flatMap fun p => 0x05 :: Utf8.toWire (Frame.escape p)) ++ [0x04]
    (∃ s', s.step (.frame command parameters) = (.framed frame, s') ∧ IsKept frame s s') ∧
      (∀ size, ((empty size).buildFrame command parameters).1 = frame) ∧
      ∀ data, writeThrough s.pool.take.1.number data ⟨s.pool.take.2, s.held⟩ = ⟨s.pool.take.2, s.held⟩ := by
  intro s frame
  have hsound : s.IsSound maxSize := (isSound_start maxSize).run events
  have hbuild : ∀ p : Pool, (p.buildFrame command parameters).1 = frame := fun p => by rw [buildFrame_eq]; rfl
  refine ⟨⟨⟨(s.pool.buildFrame command parameters).2, s.held⟩, ?_, hsound.isKept command parameters⟩,
    fun size => hbuild (empty size), hsound.writeThrough_frame⟩
  rw [← hbuild s.pool]
  rfl

/-- Of two idle buffers the one on top is used, and a block that is open does not see it. -/
example : ((start (empty 2)).run [.acquire "a", .acquire "b", .acquire "c", .write "b" [7], .release "a", .release "c",
    .frame "X" ["y"]]) =
    ⟨⟨2, [⟨2, [0x58, 0x05, 0x79, 0x04]⟩, ⟨0, []⟩], 3⟩, [(Text.ofString "b", ⟨1, [7]⟩)]⟩ := by rfl

end Session

end WireCodec.Pool
