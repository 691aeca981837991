import Mathlib.Data.List.Induction
import WireCodec.Bridge.Session
import WireCodec.Proofs.Config.Sources
import WireCodec.Proofs.TransportError.Relay

/-!
# Settings over time

Only a start that is accepted changes the settings in force, and it changes them to the ones that its sources give
(`step_start_of_isAccepted`); a start that is refused ends in a transport error and changes nothing
(`step_start_of_refused`).  So after any starts and calls the settings are those of the last accepted start
(`isLastAccepted_run`), and they decide which lists of parameters make a frame (`settings_of_run`).
-/

namespace WireCodec.Bridge

/-! ### Starts -/

section Starts

variable {env : Environment} {file : Assignments}

private theorem step_start_eq (c : Config) (env : Environment) (file : Assignments) : step c (.start env file) =
    (.started (startWith c (Config.load env file).1), (startWith c (Config.load env file).1).config) := rfl

theorem step_start_of_isAccepted (c : Config) {c' : Config} (h : Config.IsAccepted env file c') :
    ∃ level, c'.level? = some level ∧
      step c (.start env file) = (.started ⟨c', ["stdio"], .ok level, [startRecord c']⟩, c') := by
  obtain ⟨level, hlevel⟩ := Option.ne_none_iff_exists'.1 (Config.level?_ne_none_iff.2 h.level)
  refine ⟨level, hlevel, ?_⟩
  rw [step_start_eq, Config.load_eq_ok_iff.2 h, startWith, hlevel]
  rfl

theorem step_start_of_refused (c : Config) (h : ∀ c', ¬Config.IsAccepted env file c') : ∃ exit e,
    step c (.start env file) = (.started ⟨c, [], .error exit, []⟩, c) ∧
      (∀ depth, 1 ≤ depth → TransportError.deserialize depth exit = .ok e) ∧ e.code = .bridgeInitFailed ∧
      e.retryable = false := by
  cases hload : (Config.load env file).1 with
  | ok c' => exact absurd (Config.load_eq_ok_iff.1 hload) (h c')
  | error fault =>
    -- the text of the exit is read whatever the fault says
    have hreadable : ∀ depth, 1 ≤ depth → (TransportError.bridgeInit fault.message).IsReadable depth :=
      fun depth hdepth => TransportError.isReadable_of_details_eq_nil hdepth rfl
    refine ⟨_, _, ?_, fun depth hdepth => TransportError.deserialize_serializeText_joined (hreadable depth hdepth), rfl,
      rfl⟩
    rw [step_start_eq, hload]
    rfl

end Starts

/-! ### Sessions -/

/-- None of the starts among the events is accepted. -/
def NoneAccepted (events : List Event) : Prop :=
  ∀ env file, .start env file ∈ events → ∀ c, ¬Config.IsAccepted env file c

/-- The settings are those of the last accepted start, or those of a bridge that is told nothing if there is none. -/
def IsLastAccepted (events : List Event) (c : Config) : Prop :=
  (∃ before env file after, events = before ++ .start env file :: after ∧ Config.IsAccepted env file c ∧
    NoneAccepted after) ∨ (NoneAccepted events ∧ c = .default)

variable {events : List Event} {c : Config}

theorem NoneAccepted.concat {e : Event} (h : NoneAccepted events) (he : NoneAccepted [e]) :
    NoneAccepted (events ++ [e]) := by
  intro env file hmem
  rcases List.mem_append.1 hmem with hmem | hmem
  · exact h env file hmem
  · exact he env file hmem

/-- An event puts the settings of an accepted start in force, or is none and leaves the settings as they are. -/
theorem step_cases (c : Config) (e : Event) :
    (∃ env file, e = .start env file ∧ Config.IsAccepted env file (step c e).2) ∨
      (NoneAccepted [e] ∧ (step c e).2 = c) := by
  cases e with
  | start env file =>
    by_cases haccepted : ∃ c', Config.IsAccepted env file c'
    · obtain ⟨c', hc'⟩ := haccepted
      obtain ⟨level, -, hstep⟩ := step_start_of_isAccepted c hc'
      refine .inl ⟨env, file, rfl, ?_⟩
      rw [hstep]
      exact hc'
    · have hrefused : ∀ c', ¬Config.IsAccepted env file c' := not_exists.1 haccepted
      obtain ⟨exit, e, hstep, -⟩ := step_start_of_refused c hrefused
      refine .inr ⟨fun env' file' hmem => ?_, by rw [hstep]⟩
      obtain ⟨rfl, rfl⟩ := Event.start.inj (List.mem_singleton.1 hmem)
      exact hrefused
  | call depth k => exact .inr ⟨fun env file hmem => (nomatch List.mem_singleton.1 hmem), rfl⟩

private theorem run_concat (c : Config) (events : List Event) (e : Event) :
    run c (events ++ [e]) = (step (run c events) e).2 := by
  rw [run, List.foldl_append]
  rfl

/-- Whatever has happened to a bridge, the settings in force are those of the last accepted start. -/
theorem isLastAccepted_run (events : List Event) : IsLastAccepted events (run .default events) := by
  induction events using List.reverseRecOn with
  | nil => exact .inr ⟨nofun, rfl⟩
  | append_singleton events e ih =>
    rw [run_concat]
    rcases step_cases (run .default events) e with ⟨env, file, rfl, haccepted⟩ | ⟨hnone, hstep⟩
    · exact .inl ⟨events, env, file, [], rfl, haccepted, nofun⟩
    · -- an event that sets nothing comes after the start that did
      rw [hstep]
      rcases ih with ⟨before, env, file, after, hevents, haccepted, hafter⟩ | ⟨hevents, hdefault⟩
      · refine .inl ⟨before, env, file, after ++ [e], ?_, haccepted, hafter.concat hnone⟩
        rw [hevents, List.append_assoc, List.cons_append]
      · exact .inr ⟨hevents.concat hnone, hdefault⟩

theorem IsLastAccepted.one_le (h : IsLastAccepted events c) : 1 ≤ c.maxParameters := by
  rcases h with ⟨_, _, _, _, _, haccepted, _⟩ | ⟨_, rfl⟩
  · exact haccepted.positive
  · decide

/-- After any starts and calls the settings in force are those of the last accepted start, and accept at least one
parameter.  The next start is served with the settings that its sources give, or, if these give none, ends with the text
of an error that is not to be tried again, is not served and changes nothing.  A frame is made of at most as many
parameters as the settings accept, and more are reported with both numbers. -/
theorem settings_of_run (events : List Event) : ∃ c, run .default events = c ∧ IsLastAccepted events c ∧
    1 ≤ c.maxParameters ∧
    (∀ env file c', Config.IsAccepted env file c' → ∃ level, c'.level? = some level ∧
      step c (.start env file) = (.started ⟨c', ["stdio"], .ok level, [startRecord c']⟩, c')) ∧
    (∀ env file, (∀ c', ¬Config.IsAccepted env file c') → ∃ exit e,
      step c (.start env file) = (.started ⟨c, [], .error exit, []⟩, c) ∧
        (∀ depth, 1 ≤ depth → TransportError.deserialize depth exit = .ok e) ∧ e.code = .bridgeInitFailed ∧
        e.retryable = false) ∧
    ∀ depth command parameters,
      (parameters.length ≤ c.maxParameters →
        step c (.call depth (.encodeCommand command parameters)) = (.replied (.ok ⟨.obj
          [(Text.ofString "frame_hex", .str (Hex.encode (Frame.build command parameters))),
            (Text.ofString "length", .int (Frame.build command parameters).length)], []⟩), c)) ∧
      (c.maxParameters < parameters.length → ∃ log,
        step c (.call depth (.encodeCommand command parameters)) = (.replied (.ok ⟨.obj
          [(Text.ofString "error", .obj [(Text.ofString "code", .int 2001),
            (Text.ofString "message", .str (Text.ofString "too many parameters")),
            (Text.ofString "details", .obj [(Text.ofString "paramCount", .int parameters.length),
              (Text.ofString "max", .int c.maxParameters)]),
            (Text.ofString "isRetryable", .bool false)])], log⟩), c)) := by
  have hlast := isLastAccepted_run events
  refine ⟨_, rfl, hlast, hlast.one_le, fun env file c' h => step_start_of_isAccepted _ h,
    fun env file h => step_start_of_refused _ h, fun depth command parameters => ⟨fun h => ?_, fun h => ?_⟩⟩
  · have hfew : ¬(run .default events).maxParameters < parameters.length := Int.not_lt.2 h
    rw [step, reply, encodeCommand, if_neg hfew]
    rfl
  · rw [step, reply, encodeCommand, if_pos h]
    exact ⟨_, rfl⟩

/-- The number three, assigned as two carried bytes that the environment holds as one digit. -/
def carriedThree : Variable := ⟨Config.parametersVariable, [.ofByte 0xD9, .ofByte 0xA3], by decide⟩

/-- A start in which the environment gives the level and the file the number, a call, and a start with a number that is
not positive. -/
def mixedSession : List Event :=
  [.start [(Utf8.toWire Config.levelVariable, Utf8.encodeAll (Text.ofString "warn"))] ⟨[carriedThree], none⟩,
    .call 0 .handshakeFrame,
    .start [(Utf8.toWire Config.parametersVariable, Utf8.encodeAll (Text.ofString "0"))] .none]

/-- Only the first start is accepted.  Then a start with the bytes of the same digit in the environment is accepted, and
one whose file cannot be taken is refused. -/
theorem settings_of_run_mixed :
    IsLastAccepted mixedSession ⟨Text.ofString "warn", 3⟩ ∧
    (∃ level, step ⟨Text.ofString "warn", 3⟩ (.start [(Utf8.toWire Config.parametersVariable, [0xD9, 0xA3])] .none) =
      (.started ⟨⟨Text.ofString "INFO", 3⟩, ["stdio"], .ok level, [startRecord ⟨Text.ofString "INFO", 3⟩]⟩,
        ⟨Text.ofString "INFO", 3⟩)) ∧
    (∃ exit e, step ⟨Text.ofString "warn", 3⟩ (.start [] ⟨[], some (Text.ofString "embedded null byte")⟩) =
        (.started ⟨⟨Text.ofString "warn", 3⟩, [], .error exit, []⟩, ⟨Text.ofString "warn", 3⟩) ∧
      TransportError.deserialize 1 exit = .ok e ∧ e.code = .bridgeInitFailed) := by
  have hrun : run .default mixedSession = ⟨Text.ofString "warn", 3⟩ := by decide +kernel
  obtain ⟨c, rfl, hlast, -, haccepted, hrefused, -⟩ := settings_of_run mixedSession
  rw [hrun] at hlast haccepted hrefused
  have hload : (Config.load [(Utf8.toWire Config.parametersVariable, [0xD9, 0xA3])] .none).1 =
      .ok ⟨Text.ofString "INFO", 3⟩ := by decide +kernel
  obtain ⟨level, -, hstarted⟩ := haccepted _ _ _ (Config.load_eq_ok_iff.1 hload)
  obtain ⟨exit, e, hended, hread, hcode, -⟩ := hrefused [] ⟨[], some (Text.ofString "embedded null byte")⟩ fun c' h =>
    nomatch h.readable
  exact ⟨hlast, ⟨level, hstarted⟩, exit, e, hended, hread 1 (Nat.le_refl 1), hcode⟩

end WireCodec.Bridge
