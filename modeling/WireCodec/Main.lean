import WireCodec.Bridge.Request
import WireCodec.Bridge.Startup
import WireCodec.EnvFile.Reading

/-!
# The bridge as a program

The bridge is started with the variables of the process and the nearest file `.env`, from the working
directory upwards.  If it does not start, the process ends with status 1 and a line on the standard error
stream.  Otherwise every line of the standard input is answered by a line on the standard output, and log
records from the configured level on go to the standard error stream.
-/

namespace WireCodec.Bridge

/-- Writes a text as a line. -/
def writeLine (stream : IO.FS.Stream) (t : Text) : IO Unit := do
  stream.write (ByteArray.mk (Utf8.toWire t ++ [0x0A]).toArray)
  stream.flush

/-- Writes the records that matter at least as much as the level. -/
def writeLog (level : Log.Level) (records : List Log.Record) : IO Unit := do
  let stream ← IO.getStderr
  for r in Log.atLeast level records do
    writeLine stream r.line

/-- The bytes of a file, if it can be read. -/
def readFile? (path : String) : IO (Option Bytes) := do
  try
    return some (← IO.FS.readBinFile path).toList
  catch _ =>
    return none

/-- The variable in an entry `NAME=value`; the first equals sign ends the name. -/
def ofEntry? (entry : Bytes) : Option (Bytes × Bytes) :=
  match entry.span (· != 0x3D) with
  | (name, _ :: value) => some (name, value)
  | (_, []) => none

/-- The entries of a block, each of which is ended by a zero byte. -/
def entries (block : Bytes) : List Bytes :=
  block.foldr
    (fun b rest =>
      match b, rest with
      | 0, rest => [] :: rest
      | _, [] => [[b]]
      | _, entry :: rest => (b :: entry) :: rest)
    []

/-- The variables of the process. -/
def processEnvironment : IO Environment := do
  return (entries ((← readFile? "/proc/self/environ").getD [])).filterMap ofEntry?

/-- The nearest file of variables, from the working directory upwards. -/
def nearestFile : IO (Option Bytes) := do
  let directories := (← IO.currentDir).components
  let files ← (List.range directories.length).mapM fun above =>
    readFile? ("/".intercalate (directories.take (directories.length - above)) ++ "/.env")
  return EnvFile.nearest files

/-- The room for nested values in the lines and payloads that the program reads. -/
def availableDepth : Nat := 1000

/-- Answers the lines of the standard input up to its end. -/
partial def serve (c : Config) (level : Log.Level) : IO Unit := do
  let line ← (← IO.getStdin).getLine
  if !line.isEmpty then
    let (reply, log) := answer availableDepth c (Text.ofString line)
    writeLog level log
    writeLine (← IO.getStdout) reply
    serve c level

end WireCodec.Bridge

/-- Starts the bridge and serves it. -/
def main : IO UInt32 := do
  let env ← WireCodec.Bridge.processEnvironment
  let (s, _) := WireCodec.Bridge.start .default env (WireCodec.EnvFile.take env (← WireCodec.Bridge.nearestFile))
  match s.outcome with
  | .error exit =>
    WireCodec.Bridge.writeLine (← IO.getStderr) exit
    return 1
  | .ok level =>
    WireCodec.Bridge.writeLog level s.log
    WireCodec.Bridge.serve s.config level
    return 0
