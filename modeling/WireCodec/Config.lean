import WireCodec.Environment
import WireCodec.Log
import WireCodec.Text.Capital
import WireCodec.Text.Integer

/-!
# Configuration

The bridge has two settings: the level from which on it logs, and the number of parameters that it accepts in
one frame.  `Config.load` takes them from the environment, to which a file of variables may add first, and
checks them.
-/

namespace WireCodec

/-- The settings of the bridge. -/
structure Config where
  /-- The name of the level, in letters of either case. -/
  logLevel : Text
  maxParameters : Int
  deriving DecidableEq

namespace Config

/-- The settings of a bridge that is told nothing. -/
def default : Config := ⟨Text.ofString "INFO", 1024⟩

/-- The level of the name in the settings. -/
def level? (c : Config) : Option Log.Level := Log.Level.ofName? (Text.capital c.logLevel)

/-- The number of the level, or the words that stand in for it when the name is no level's. -/
def levelNumber (c : Config) : Nat ⊕ Text :=
  match c.level? with
  | some level => .inl level.value
  | none => .inr (Text.ofString "Level " ++ Text.capital c.logLevel)

/-- Why settings, or the sources they are taken from, are not accepted. -/
inductive Fault
  /-- The file of variables is not taken to its end. -/
  | unreadable (message : Text)
  /-- The number of parameters is not written as an integer. -/
  | notInteger (text : Text)
  /-- There is no level of this name. -/
  | unknownLevel (name : Text)
  /-- The number of parameters is not positive. -/
  | notPositive (count : Int)
  deriving DecidableEq

/-- The variable that sets the level. -/
def levelVariable : Text := Text.ofString "SYNDRDB_WIRE_LOG_LEVEL"

/-- The variable that sets the number of parameters. -/
def parametersVariable : Text := Text.ofString "SYNDRDB_WIRE_MAX_PARAMS"

/-- The wording of a fault. -/
def Fault.message : Fault → Text
  | .unreadable message => message
  | .notInteger t => parametersVariable ++ Text.ofString " must be a valid integer, got: " ++ t
  | .unknownLevel name => Text.ofString "Invalid log level: " ++ name
  | .notPositive n => Text.ofString "max_param_count must be positive, got " ++ Text.ofInt n

/-- Checks settings, the level first. -/
def validate (c : Config) : Except Fault Config :=
  if c.level? = none then .error (.unknownLevel c.logLevel)
  else if c.maxParameters < 1 then .error (.notPositive c.maxParameters)
  else .ok c

/-- The settings that an environment gives, checked. -/
def ofEnvironment (env : Environment) : Except Fault Config :=
  let logLevel := (env.get? levelVariable).getD default.logLevel
  match env.get? parametersVariable with
  | none => validate ⟨logLevel, default.maxParameters⟩
  | some t =>
    match Text.toInt? t with
    | some n => validate ⟨logLevel, n⟩
    | none => .error (.notInteger t)

/-- Takes the settings from the environment, to which a file of variables has added.  What the file has added stays in
the environment, whether the settings are accepted or not. -/
def load (env : Environment) (file : Assignments) : Except Fault Config × Environment :=
  let env := env.extend file.assigned
  match file.fault with
  | some message => (.error (.unreadable message), env)
  | none => (ofEnvironment env, env)

end Config

end WireCodec
