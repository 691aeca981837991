import WireCodec.Proofs.Frame.Parameters

/-!
# Reading a frame by its runs of ENQ

The delimiter and the escaped delimiter use one byte, and what a byte ENQ stands for is told by the run it is in.
In a value the ENQ come in pairs.  So a run of even length is data, and one of odd length is data and, as its last
byte, a delimiter (`cutRuns`).  For this a delimiter has to be the last of its run, which it is unless an empty
parameter or one with an ENQ at its start follows.  On all other parameters, whatever else is in them, a frame can be
taken apart into the bytes of its command and those of its parameters (`read?_build`).
-/

namespace WireCodec.Frame

/-! ### Reading -/

/-- Puts a whole run of ENQ before the data and the values that follow it. -/
def closeRun (length : Nat) (after : Bytes × List Bytes) : Bytes × List Bytes :=
  if length % 2 = 0 then (List.replicate length enq ++ after.1, after.2)
  else (List.replicate (length - 1) enq, after.1 :: after.2)

/-- Cuts bytes at their delimiters into the data before the first one and the value after each.  The run of ENQ at
their start has begun with the given number of bytes before them. -/
def cutRuns : (run : Nat) → Bytes → Bytes × List Bytes
  | run, [] => closeRun run ([], [])
  | run, b :: s =>
    if b = enq then cutRuns (run + 1) s
    else
      let (data, values) := cutRuns 0 s
      closeRun run (b :: data, values)

/-- Takes every two equal reserved bytes that stand together, from left to right, for one. -/
def halve (s : Bytes) : Bytes := undouble (fun b => b = eot ∨ b = enq) s

/-- The bytes of the command and of the parameters of a frame.  The command ends before the first ENQ, and nothing
may stand between it and the first delimiter. -/
def read? (frame : Bytes) : Option (Bytes × List Bytes) :=
  let body := frame.dropLast
  match cutRuns 0 (body.dropWhile (· != enq)) with
  | ([], values) => some (body.takeWhile (· != enq), values.map halve)
  | (_ :: _, _) => none

/-! ### Runs -/

private theorem closeRun_add_two (n : Nat) (after : Bytes × List Bytes) :
    closeRun (n + 2) after = (enq :: enq :: (closeRun n after).1, (closeRun n after).2) := by
  unfold closeRun
  rw [Nat.add_mod_right]
  split
  · rfl
  · next hodd =>
    obtain ⟨m, rfl⟩ : ∃ m, n = m + 1 := ⟨n - 1, by omega⟩
    rfl

private theorem cutRuns_add_two (n : Nat) (s : Bytes) :
    cutRuns (n + 2) s = (enq :: enq :: (cutRuns n s).1, (cutRuns n s).2) := by
  induction s generalizing n with
  | nil => exact closeRun_add_two n _
  | cons b s ih =>
    by_cases hb : b = enq
    · rw [cutRuns, cutRuns, if_pos hb, if_pos hb, Nat.add_right_comm, ih]
    · rw [cutRuns, cutRuns, if_neg hb, if_neg hb]
      exact closeRun_add_two n _

private theorem cutRuns_of_ne {b : UInt8} (hb : b ≠ enq) (s : Bytes) :
    cutRuns 0 (b :: s) = (b :: (cutRuns 0 s).1, (cutRuns 0 s).2) := by
  rw [cutRuns, if_neg hb]
  rfl

/-- An ENQ that is a run of its own is a delimiter. -/
private theorem cutRuns_enq {s : Bytes} (h : s.head? ≠ some enq) :
    cutRuns 0 (enq :: s) = ([], (cutRuns 0 s).1 :: (cutRuns 0 s).2) := by
  cases s with
  | nil => rfl
  | cons b s =>
    have hb : b ≠ enq := fun hb => h (congrArg some hb)
    rw [cutRuns_of_ne hb, cutRuns, if_pos rfl, cutRuns, if_neg hb]
    rfl

theorem double_cons (b : UInt8) (s : Bytes) :
    double (b :: s) = (if b = eot ∨ b = enq then [b, b] else [b]) ++ double s := rfl

/-- Doubled bytes are data, whatever stands before and after them. -/
private theorem cutRuns_double (s rest : Bytes) :
    cutRuns 0 (double s ++ rest) = (double s ++ (cutRuns 0 rest).1, (cutRuns 0 rest).2) := by
  induction s with
  | nil => rfl
  | cons b s ih =>
    rw [double_cons]
    by_cases henq : b = enq
    · subst henq
      show cutRuns (0 + 2) (double s ++ rest) = _
      rw [cutRuns_add_two, ih]
      rfl
    · by_cases heot : b = eot
      · rw [if_pos (.inl heot)]
        show cutRuns 0 (b :: b :: (double s ++ rest)) = _
        rw [cutRuns_of_ne henq, cutRuns_of_ne henq, ih]
        rfl
      · rw [if_neg (not_or.2 ⟨heot, henq⟩)]
        show cutRuns 0 (b :: (double s ++ rest)) = _
        rw [cutRuns_of_ne henq, ih]
        rfl

theorem halve_double (s : Bytes) : halve (double s) = s := by
  rw [halve, double, undouble_flatMap_double]

/-! ### Parameters -/

/-- A parameter that is told apart from the delimiter before it: there is a first code point, and it is not U+0005. -/
def StartsClear (p : Text) : Prop := p ≠ [] ∧ p.head? ≠ some delimiter

instance (p : Text) : Decidable (StartsClear p) := inferInstanceAs (Decidable (_ ∧ _))

private theorem exists_head_toWire {p : Text} (h : StartsClear p) :
    ∃ b, (Utf8.toWire p).head? = some b ∧ b ≠ enq := by
  obtain ⟨c, rest, rfl⟩ := List.exists_cons_of_ne_nil h.1
  obtain ⟨b, s, hbs⟩ := List.exists_cons_of_ne_nil (Utf8.formOf_ne_nil (c :: rest) c)
  refine ⟨b, ?_, fun hb => h.2 ?_⟩
  · rw [Utf8.toWire_eq_flatMap, List.flatMap_cons, hbs]
    rfl
  · -- a byte of ASCII is the character that it looks like
    have hmem : enq ∈ Utf8.formOf (c :: rest) c := by
      rw [hbs, hb]
      exact List.mem_cons_self
    have hval : c.val = 0x05 := Utf8.val_eq_of_mem_formOf hmem (by decide)
    exact congrArg some (CodePoint.ext hval)

/-- Every delimiter is found, and between two of them stands the escaped value of one parameter. -/
private theorem cutRuns_parameters {ps : List Text} (h : ∀ p ∈ ps, StartsClear p) :
    cutRuns 0 (ps.flatMap parameterBytes) = ([], ps.map fun p => double (Utf8.toWire p)) := by
  induction ps with
  | nil => rfl
  | cons p ps ih =>
    obtain ⟨b, hhead, hb⟩ := exists_head_toWire (h p List.mem_cons_self)
    have hrun : (double (Utf8.toWire p) ++ ps.flatMap parameterBytes).head? ≠ some enq := by
      rw [List.head?_append, double, head?_flatMap_double, hhead]
      exact fun heq => hb (Option.some.inj heq)
    rw [List.flatMap_cons, parameterBytes, toWire_escape, List.cons_append, cutRuns_enq hrun, cutRuns_double,
      ih fun q hq => h q (List.mem_cons_of_mem _ hq), List.append_nil]
    rfl

/-! ### Frames -/

private theorem span_command {command : Text} (h : IsPiece command) (ps : List Text) :
    (Utf8.toWire command ++ ps.flatMap parameterBytes).takeWhile (· != enq) = Utf8.toWire command ∧
      (Utf8.toWire command ++ ps.flatMap parameterBytes).dropWhile (· != enq) = ps.flatMap parameterBytes := by
  have hcommand : ∀ b ∈ Utf8.toWire command, (b != enq) = true := fun b hb => by
    rw [bne_iff_ne]
    rintro rfl
    exact enq_notMem_toWire h hb
  rw [List.takeWhile_append_of_pos hcommand, List.dropWhile_append_of_pos hcommand]
  cases ps with
  | nil => exact ⟨List.append_nil _, rfl⟩
  | cons p ps => exact ⟨List.append_nil _, rfl⟩

/-- A frame is read by its runs of ENQ, if the command holds no U+0005 and no parameter is empty or begins with it:
the bytes of the command and those of every parameter are found, in their order. -/
theorem read?_build {command : Text} (hcommand : delimiter ∉ command) {ps : List Text}
    (hps : ∀ p ∈ ps, StartsClear p) :
    read? (build command ps) = some (Utf8.toWire command, ps.map Utf8.toWire) := by
  have hbody : (build command ps).dropLast = Utf8.toWire command ++ ps.flatMap parameterBytes := List.dropLast_concat
  obtain ⟨htake, hdrop⟩ := span_command hcommand ps
  rw [read?, hbody, htake, hdrop, cutRuns_parameters hps]
  simp only [List.map_map, Function.comp_def, halve_double]

/-- Parameters that end in ENQ before a delimiter and before the terminator, that hold runs of both reserved code
points, a carried byte and a surrogate of another kind. -/
theorem read?_build_crowded :
    delimiter ∉ Text.ofString "A\x04" ∧
      (∀ p ∈ [Text.ofString "x\x04\x05\x05", [⟨0xDCFF, by decide⟩, delimiter],
        [⟨0x04, by decide⟩, delimiter, ⟨0xD805, by decide⟩, delimiter]], StartsClear p) ∧
      read? (build (Text.ofString "A\x04") [Text.ofString "x\x04\x05\x05", [⟨0xDCFF, by decide⟩, delimiter],
          [⟨0x04, by decide⟩, delimiter, ⟨0xD805, by decide⟩, delimiter]]) =
        some ([0x41, 0x04], [[0x78, 0x04, 0x05, 0x05], [0xFF, 0x05], [0x04, 0x05, 0xED, 0xA0, 0x85, 0x05]]) :=
  ⟨by decide, by decide, read?_build (by decide) (by decide)⟩

/-- An empty parameter before another one is lost, since its delimiter and the next are one run of even length. -/
example : read? (build (Text.ofString "A") [[], Text.ofString "x"]) = none := by decide

end WireCodec.Frame
