import WireCodec.EnvFile.Parser
import WireCodec.Environment

/-!
# References between variables

A value may refer to other variables: `${NAME}` stands for the value of a variable, and `${NAME:-default}` for
the default where there is no such variable.  The environment is asked first, then what the file has bound
before.  A name that the file has bound to no value counts as bound to the empty text.
-/

namespace WireCodec.EnvFile

/-- A reference at the start of a text, with its name, its default and what follows it. -/
def reference? : Text → Option (Text × Text × Text)
  | dollar :: brace :: t =>
    if dollar.val = 0x24 ∧ brace.val = 0x7B then
      match t.span fun c => !(c.val == 0x7D || c.val == 0x3A) with
      | (name, c :: rest) =>
        if c.val = 0x7D then some (name, [], rest)
        else
          match rest with
          | dash :: rest =>
            if dash.val = 0x2D then
              match rest.span (·.val != 0x7D) with
              | (default, _ :: after) => some (name, default, after)
              | (_, []) => none
            else none
          | [] => none
      | (_, []) => none
    else none
  | _ => none

/-- The text with its references replaced; there are no more of them than code points. -/
def expandWith (lookup : Text → Option Text) : (fuel : Nat) → Text → Text
  | 0, t => t
  | _ + 1, [] => []
  | fuel + 1, c :: rest =>
    match reference? (c :: rest) with
    | some (name, default, after) => (lookup name).getD default ++ expandWith lookup fuel after
    | none => c :: expandWith lookup fuel rest

/-- The bindings with a name bound, in the place where it was first bound. -/
def bind (name : Text) (value : Option Text) : List Binding → List Binding
  | [] => [(name, value)]
  | (n, v) :: rest => if n = name then (name, value) :: rest else (n, v) :: bind name value rest

/-- The value of a name in the environment, or else among the bindings. -/
def lookup (env : Environment) (bound : List Binding) (name : Text) : Option Text :=
  match env.get? name with
  | some value => some value
  | none => (bound.lookup name).map (·.getD [])

/-- The bindings of a file with their references replaced, one for each name, the last value of a name being
the one that counts. -/
def resolve (env : Environment) (bindings : List Binding) : List Binding :=
  bindings.foldl
    (fun bound (name, value) =>
      bind name (value.map fun t => expandWith (lookup env bound) t.length t) bound)
    []

/-- The variables that a file assigns, in their order. -/
def assignments (env : Environment) (file : Text) : List (Text × Text) :=
  (resolve env (parse file)).filterMap fun (name, value) => value.map (name, ·)

end WireCodec.EnvFile
