import WireCodec.Bridge.Startup

/-!
# Use of a bridge over time

A session is a sequence of starts and calls.  Every start may find another environment and another file of variables;
what it makes of them is in force for the calls after it.  Every call may find another room for nested values.
-/

namespace WireCodec.Bridge

/-- What may happen to a bridge. -/
inductive Event
  /-- The bridge is started in an environment, to which a file of variables adds. -/
  | start (env : Environment) (file : Assignments)
  /-- The bridge is asked something, with the given room for nested values. -/
  | call (depth : Nat) (k : Call)

/-- What is seen of an event. -/
inductive Outcome
  | started (s : Startup)
  | replied (r : Except Overflow Reply)

/-- One event, with what is seen of it and the settings in force afterwards. -/
def step (inForce : Config) : Event → Outcome × Config
  | .start env file =>
    let (s, _) := start inForce env file
    (.started s, s.config)
  | .call depth k => (.replied (reply depth inForce k), inForce)

/-- The settings in force after a sequence of events. -/
def run (inForce : Config) (events : List Event) : Config := events.foldl (fun c e => (step c e).2) inForce

end WireCodec.Bridge
