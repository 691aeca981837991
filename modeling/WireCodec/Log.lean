import WireCodec.Text.CodePoint

/-!
# Log records

Events that operators may want to see are given back as records: a level, the name of the part that reports,
and a message.  Levels have numbers, and some have two names.
-/

namespace WireCodec.Log

/-- How much a record matters. -/
inductive Level
  | notset
  | debug
  | info
  | warning
  | error
  | critical
  deriving DecidableEq

namespace Level

/-- The number of a level; a greater one matters more. -/
def value : Level → Nat
  | .notset => 0
  | .debug => 10
  | .info => 20
  | .warning => 30
  | .error => 40
  | .critical => 50

/-- The name of a level in a record. -/
def name : Level → String
  | .notset => "NOTSET"
  | .debug => "DEBUG"
  | .info => "INFO"
  | .warning => "WARNING"
  | .error => "ERROR"
  | .critical => "CRITICAL"

/-- The names by which a level can be asked for. -/
def names : List (Text × Level) :=
  [(Text.ofString "CRITICAL", .critical), (Text.ofString "FATAL", .critical), (Text.ofString "ERROR", .error),
    (Text.ofString "WARNING", .warning), (Text.ofString "WARN", .warning), (Text.ofString "INFO", .info),
    (Text.ofString "DEBUG", .debug), (Text.ofString "NOTSET", .notset)]

/-- The level of a name. -/
def ofName? (name : Text) : Option Level := names.lookup name

end Level

/-- A record: what was reported, by which part, and how much it matters. -/
structure Record where
  level : Level
  logger : String
  message : Text
  deriving DecidableEq

/-- The line that shows a record. -/
def Record.line (r : Record) : Text :=
  Text.ofString r.level.name ++ Text.ofString ":" ++ Text.ofString r.logger ++ Text.ofString ":" ++ r.message

/-- The records that matter at least as much as the given level. -/
def atLeast (level : Level) (records : List Record) : List Record :=
  records.filter fun r => level.value ≤ r.level.value

end WireCodec.Log
