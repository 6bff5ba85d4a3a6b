import WidgetSync.CommandLine.Run

/-!
# The Program

The outermost layer: it gathers what a run is given, lets it run, and puts out
what comes of it. Only the file that the arguments name and the settings file are
ever read, and the standard input only if no file is named.

## Main definitions

* `main`: The program.
-/

namespace WidgetSync

namespace Program

/-- All bytes of a stream. -/
def readAll (stream : IO.FS.Stream) : IO (List UInt8) := do
  let mut found := ByteArray.empty
  repeat
    let part ← stream.read 65536
    if part.isEmpty then break
    found := found ++ part
  return found.toList

/-- What is found where a file is asked for. -/
def readFile (name : String) : IO CommandLine.Content := do
  try
    let bytes ← IO.FS.readBinFile name
    return .bytes bytes.toList
  catch
    | .noFileOrDirectory .. => return .missing
    | .permissionDenied .. => return .unreadable 13 "Permission denied"
    | .inappropriateType .. => return .unreadable 21 "Is a directory"
    | _ => return .unreadable 5 "Input/output error"

/-- The variables that the program looks at. -/
def variableNames : List String :=
  ["XDG_CONFIG_HOME", "HOME", "QMLSYNC_DEBOUNCE_MS", "QMLSYNC_HISTORY_CAPACITY",
   "QMLSYNC_WINDOW_WIDTH", "QMLSYNC_WINDOW_HEIGHT", "QMLSYNC_WINDOW_TITLE", "QMLSYNC_LOG_LEVEL"]

/-- The environment of the program. -/
def readEnvironment : IO Environment := do
  let mut found : Table String := []
  for name in variableNames do
    if let some v ← IO.getEnv name then
      found := found.set name v
  return { assigned := found }

/-- The bytes of the settings file, if it can be read. -/
def readSettings (e : Environment) : IO (Option (List UInt8)) := do
  match e.settingsPath with
  | .error _ => return none
  | .ok path =>
    match ← readFile path.text with
    | .bytes bs => return some bs
    | _ => return none

/-- The content of the file that the arguments name. -/
def readNamed (name : Option String) : IO CommandLine.Content := do
  match name with
  | some name => readFile name
  | none => return .missing

/-- What a run with these arguments is given. -/
def gather (arguments : List String) : IO CommandLine.Surroundings := do
  let environment ← readEnvironment
  let settings ← readSettings environment
  let name := match CommandLine.Request.read arguments with
    | .ok r => r.fileName
    | .error _ => none
  let content ← readNamed name
  let input ← if name.isNone then readAll (← IO.getStdin) else pure []
  return { environment, input, settingsFile := fun _ => settings, file := fun _ => content }

end Program

end WidgetSync

open WidgetSync in
/-- Runs the program and answers with its exit code. -/
def main (arguments : List String) : IO UInt32 := do
  let surroundings ← Program.gather arguments
  match CommandLine.run arguments surroundings with
  | .ok outcome =>
    IO.print outcome.output
    IO.eprint outcome.errors
    return outcome.exit.toUInt32
  | .error fault =>
    IO.eprintln s!"qmlsync: {repr fault}"
    return 1
