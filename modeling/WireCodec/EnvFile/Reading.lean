import WireCodec.EnvFile.Interpolation

/-!
# Reading files of variables

What a file assigns is taken variable by variable, for the program to load its settings from.  A variable that the
environment has needs no place in it; one that it lacks and cannot hold ends the reading, and the variables before it
stay.
-/

namespace WireCodec.EnvFile

/-- Why a file is not taken to its end. -/
inductive Fault
  /-- It is not UTF-8. -/
  | undecodable (error : DecodeError)
  | embeddedNul
  | illegalName
  deriving DecidableEq

/-- The wording of a fault. -/
def Fault.message : Fault → Text
  | .undecodable e => e.message
  | .embeddedNul => Text.ofString "embedded null byte"
  | .illegalName => Text.ofString "illegal environment variable name"

/-- What is wrong with a variable that an environment cannot hold. -/
def faultOf (name value : Text) : Fault :=
  if (name ++ value).any (·.val == 0) then .embeddedNul else .illegalName

/-- The variables up to the first that the environment lacks and cannot hold. -/
def takeVariables (env : Environment) : List (Text × Text) → List Variable × Option Fault
  | [] => ([], none)
  | (name, value) :: rest =>
    if h : Environment.CanHold name value then
      let (assigned, fault) := takeVariables env rest
      (⟨name, value, h⟩ :: assigned, fault)
    else if (env.get? name).isSome then takeVariables env rest
    else ([], some (faultOf name value))

/-- The variables of a file, and the fault at which it ends if it is not taken to its end. -/
def read (env : Environment) (file : Bytes) : List Variable × Option Fault :=
  match Utf8.decodeStrict false file with
  | .ok t => takeVariables env (assignments env t)
  | .error e => ([], some (.undecodable e))

/-- What a file assigns, if there is one. -/
def take (env : Environment) : Option Bytes → Assignments
  | some file =>
    let (assigned, fault) := read env file
    ⟨assigned, fault.map Fault.message⟩
  | none => .none

/-- The nearest file, of those that the working directory and the directories above it have. -/
def nearest (files : List (Option Bytes)) : Option Bytes := files.findSome? id

end WireCodec.EnvFile
