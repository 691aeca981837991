import WireCodec.Proofs.Frame.Escape

/-!
# Streams of frames

Frames that follow each other can be cut out of the stream again.  `cut` goes through the stream from left to
right, takes two adjacent EOT as data and an EOT that is not followed by one as the end of a frame.  Inside a
frame the EOT come in pairs (`IsData`): a command that may stand in a stream holds none, and in a parameter they
are doubled.  The terminator is the odd one of its run, because the next frame does not begin with an EOT.
-/

namespace WireCodec.Frame

/-! ### Cutting -/

/-- Cuts a stream of which the current frame has begun with the given bytes; the result is the frames and what
is left over after the last one. -/
def cutFrom : (frame : Bytes) → Bytes → List Bytes × Bytes
  | frame, [] => ([], frame)
  | frame, [b] => if b = eot then ([frame ++ [b]], []) else ([], frame ++ [b])
  | frame, b :: c :: rest =>
    if b = eot then
      if c = eot then cutFrom (frame ++ [b, c]) rest
      else
        let (frames, left) := cutFrom [] (c :: rest)
        ((frame ++ [b]) :: frames, left)
    else cutFrom (frame ++ [b]) (c :: rest)

/-- Cuts a stream into frames. -/
def cut (stream : Bytes) : List Bytes × Bytes := cutFrom [] stream

/-- Bytes that end no frame: from left to right, their EOT come in pairs. -/
inductive IsData : Bytes → Prop
  | nil : IsData []
  | byte {b : UInt8} {s : Bytes} : b ≠ eot → IsData s → IsData (b :: s)
  | pair {s : Bytes} : IsData s → IsData (eot :: eot :: s)

private theorem cutFrom_of_ne {b : UInt8} (hb : b ≠ eot) (frame rest : Bytes) :
    cutFrom frame (b :: rest) = cutFrom (frame ++ [b]) rest := by
  cases rest with
  | nil => simp [cutFrom, hb]
  | cons c rest => simp [cutFrom, hb]

/-- Data are added to the current frame. -/
theorem cutFrom_append {s : Bytes} (hs : IsData s) (frame rest : Bytes) :
    cutFrom frame (s ++ rest) = cutFrom (frame ++ s) rest := by
  -- the scan looks at two bytes at once, and a pair of EOT in the data is never torn apart
  induction hs generalizing frame with
  | nil => simp
  | @byte b s hb _ ih =>
    rw [List.cons_append, cutFrom_of_ne hb, ih, List.append_assoc, List.singleton_append]
  | @pair s _ ih =>
    show cutFrom (frame ++ [eot, eot]) (s ++ rest) = _
    rw [ih, List.append_assoc]
    rfl

/-- An EOT ends the current frame unless another one follows. -/
theorem cutFrom_eot {rest : Bytes} (h : rest.head? ≠ some eot) (frame : Bytes) :
    cutFrom frame (eot :: rest) = ((frame ++ [eot]) :: (cut rest).1, (cut rest).2) := by
  cases rest with
  | nil => rfl
  | cons c rest =>
    have hc : c ≠ eot := fun hc => h (congrArg some hc)
    simp [cutFrom, cut, hc]

/-! ### The data of a frame -/

theorem IsData.append {s t : Bytes} (hs : IsData s) (ht : IsData t) : IsData (s ++ t) := by
  induction hs with
  | nil => exact ht
  | byte hb _ ih => exact .byte hb ih
  | pair _ ih => exact .pair ih

theorem isData_of_not_mem {s : Bytes} (h : eot ∉ s) : IsData s := by
  induction s with
  | nil => exact .nil
  | cons b s ih =>
    rw [List.mem_cons, not_or] at h
    exact .byte (Ne.symm h.1) (ih h.2)

theorem isData_double (s : Bytes) : IsData (double s) := by
  induction s with
  | nil => exact .nil
  | cons b s ih =>
    rw [double, List.flatMap_cons]
    by_cases heot : b = eot
    · rw [if_pos (.inl heot), heot]
      exact .pair ih
    · split
      · exact .byte heot (.byte heot ih)
      · exact .byte heot ih

theorem isData_parameterBytes (p : Text) : IsData (parameterBytes p) := by
  rw [parameterBytes, toWire_escape]
  exact .byte (by decide) (isData_double _)

private theorem isData_parameters (ps : List Text) : IsData (ps.flatMap parameterBytes) := by
  induction ps with
  | nil => exact .nil
  | cons p ps ih => exact (isData_parameterBytes p).append ih

/-- A command that may stand in a stream: there is one, and it holds no EOT. -/
def IsStreamable (command : Text) : Prop := command ≠ [] ∧ ∀ c ∈ command, c.val ≠ 0x04

instance (command : Text) : Decidable (IsStreamable command) := inferInstanceAs (Decidable (_ ∧ _))

private theorem eot_not_mem_toWire {command : Text} (h : IsStreamable command) : eot ∉ Utf8.toWire command := by
  intro hmem
  obtain ⟨c, hc, hval⟩ := Utf8.exists_mem_of_mem_toWire hmem (by decide)
  exact h.2 c hc hval

/-- A frame begins with a byte of its command. -/
private theorem head?_build_append {command : Text} (h : IsStreamable command) (ps : List Text) (rest : Bytes) :
    (build command ps ++ rest).head? ≠ some eot := by
  obtain ⟨b, s, hbs⟩ := List.exists_cons_of_ne_nil (Utf8.toWire_ne_nil h.1)
  have hb : b ≠ eot := by
    rintro rfl
    exact eot_not_mem_toWire h (hbs ▸ List.mem_cons_self)
  simp [build, hbs, hb]

/-! ### Streams -/

/-- The frame at the start of a stream is cut off. -/
theorem cut_build_append {command : Text} (h : IsStreamable command) (ps : List Text) {rest : Bytes}
    (hrest : rest.head? ≠ some eot) :
    cut (build command ps ++ rest) = (build command ps :: (cut rest).1, (cut rest).2) := by
  have hdata : IsData (Utf8.toWire command ++ ps.flatMap parameterBytes) :=
    (isData_of_not_mem (eot_not_mem_toWire h)).append (isData_parameters ps)
  rw [build, List.append_assoc, cut, cutFrom_append hdata, List.nil_append, List.singleton_append,
    cutFrom_eot hrest]

/-- The stream of the frames of some calls, each a command with its parameters. -/
def stream (calls : List (Text × List Text)) : Bytes := calls.flatMap fun call => build call.1 call.2

private theorem head?_stream {calls : List (Text × List Text)} (h : ∀ call ∈ calls, IsStreamable call.1) :
    (stream calls).head? ≠ some eot := by
  cases calls with
  | nil => simp [stream]
  | cons call calls => exact head?_build_append (h call List.mem_cons_self) call.2 _

private theorem cut_stream_aux {calls : List (Text × List Text)} (h : ∀ call ∈ calls, IsStreamable call.1) :
    cut (stream calls) = (calls.map fun call => build call.1 call.2, []) := by
  induction calls with
  | nil => rfl
  | cons call calls ih =>
    have hcalls : ∀ call ∈ calls, IsStreamable call.1 := fun d hd => h d (List.mem_cons_of_mem _ hd)
    show cut (build call.1 call.2 ++ stream calls) = _
    rw [cut_build_append (h call List.mem_cons_self) call.2 (head?_stream hcalls), ih hcalls]
    rfl

/-- The frames of any calls are cut out of their stream, in order and with nothing left over, so that calls with
the same stream have the same frames. -/
theorem cut_stream {calls : List (Text × List Text)} (h : ∀ call ∈ calls, IsStreamable call.1) :
    cut (stream calls) = (calls.map fun call => build call.1 call.2, []) ∧
      ∀ others : List (Text × List Text), (∀ call ∈ others, IsStreamable call.1) →
        stream others = stream calls →
        (others.map fun call => build call.1 call.2) = calls.map fun call => build call.1 call.2 := by
  refine ⟨cut_stream_aux h, fun others hothers hstream => ?_⟩
  have hcut := cut_stream_aux hothers
  rw [hstream, cut_stream_aux h] at hcut
  exact (congrArg Prod.fst hcut).symm

/-- A parameter that ends in EOT stands before the terminator, and the next frame follows. -/
theorem cut_stream_trailing_eot :
    (∀ call ∈ [(Text.ofString "A", [Text.ofString "x\x04"]), (Text.ofString "B\x05", [[], []])],
      IsStreamable call.1) ∧
      cut (stream [(Text.ofString "A", [Text.ofString "x\x04"]), (Text.ofString "B\x05", [[], []])]) =
        ([[0x41, 0x05, 0x78, 0x04, 0x04, 0x04], [0x42, 0x05, 0x05, 0x05, 0x04]], []) :=
  ⟨by decide, (cut_stream (by decide)).1⟩

end WireCodec.Frame
