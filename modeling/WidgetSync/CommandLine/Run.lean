import WidgetSync.CommandLine.Arguments
import WidgetSync.CommandLine.Threshold
import WidgetSync.Settings.Load
import WidgetSync.Text.Lines
import WidgetSync.Text.Utf8

/-!
# A Run of the Program

What the program does with its arguments, its input and its surroundings: it
reads a document in one format and writes it in another, or only checks whether
the input is written as the program would write it.

A run is a function of what it is given. It answers with what goes to the two
streams and with the exit code. Where it fails in a way that it does not report
itself, it answers with the fault.

## Main definitions

* `Surroundings`: What a run is given.
* `Outcome`: What comes out of it.
* `Request.run`, `run`: A run.
-/

namespace WidgetSync

namespace CommandLine

/-- What is found where a file is asked for. -/
inductive Content where
  /-- Nothing. -/
  | missing
  /-- Something that cannot be read, by the number and the name of the reason. -/
  | unreadable (number : Nat) (reason : String)
  /-- The bytes of a file. -/
  | bytes (bs : List UInt8)

/-- What a run is given, its arguments apart. -/
structure Surroundings where
  /-- The environment. -/
  environment : Environment
  /-- The bytes of the settings files there are. -/
  settingsFile : String → Option (List UInt8)
  /-- What the files hold. -/
  file : String → Content
  /-- The standard input. -/
  input : List UInt8

/-- What comes out of a run. -/
structure Outcome where
  /-- The exit code. -/
  exit : Nat
  /-- The standard output. -/
  output : String := ""
  /-- The standard error stream. -/
  errors : String := ""
deriving DecidableEq, Repr

/-- The text of an input: its bytes decoded, with a line feed for every line end. -/
def decoded (bytes : List UInt8) : Except String String :=
  match Text.decode bytes with
  | .ok cs => .ok (String.ofList (Text.unifyLineEnds cs))
  | .error m => .error s!"Error reading input: {m.message}"

/-- The input's name. An empty name stands for the standard input. -/
def Request.fileName (r : Request) : Option String :=
  r.file.filter (· != "")

/-- The text of the input, or the report that it cannot be read. -/
def Request.input (r : Request) (s : Surroundings) : Except Fault (Except String String) :=
  match r.fileName with
  | none => .ok (decoded s.input)
  | some name =>
    if name.toList.contains (Char.ofNat 0) then .error (.invalid "embedded null byte")
    else
      match s.file name with
      | .missing => .ok (.error s!"Error: File not found: {name}")
      | .unreadable number reason =>
        .ok (.error s!"Error reading input: [Errno {number}] {reason}: {quoted name}")
      | .bytes bs => .ok (decoded bs)

/-- The document with the window that the request describes. -/
def Request.override (r : Request) (d : Document) : Document :=
  let w := d.window
  { d with
    window :=
      { w with
        title := (r.title.map .text).getD w.title
        width := (r.width.map .int).getD w.width
        height := (r.height.map .int).getD w.height } }

/-- The level from which on notices are shown, and what is said while it is found. -/
def Request.level (r : Request) (s : Surroundings) : Except Fault (Int × String) := do
  if r.verbose then return (Level.debug.rank, "")
  let (settings, notices) ← Settings.load s.environment s.settingsFile
  return (← Threshold.ofName settings.level, Threshold.early notices)

/-- The outcome of a request whose input has been read. -/
def Request.convert (r : Request) (s : Surroundings) (content : String) :
    Except Fault (Outcome × List Notice) := do
  let source := Registry.usual.source r.source content r.fileName
  let target := (Registry.usual.byName? r.target).getD .markup
  let (settings, asked) ← Settings.load s.environment s.settingsFile
  let (document, said) := source.read settings content
  let asked := if r.verbose then asked else []
  let notices := if source.asksFirst content then asked ++ said else said ++ asked
  let output ← target.write (r.override document)
  if !r.check then return ({ exit := 0, output }, notices)
  if output = content then return ({ exit := 0 }, notices)
  let name := r.fileName.getD "<stdin>"
  return ({ exit := 1, errors := s!"{name}: not in canonical {target.name} form\n" }, notices)

/-- The outcome of a request. -/
def Request.run (r : Request) (s : Surroundings) : Except Fault Outcome := do
  let (level, early) ← r.level s
  match ← r.input s with
  | .error report => return { exit := 1, errors := early ++ report ++ "\n" }
  | .ok content =>
    let (outcome, notices) ← r.convert s content
    return { outcome with errors := early ++ Threshold.shown level notices ++ outcome.errors }

/-- How the program is used. -/
def usage : String :=
  "usage: qmlsync [-h] [--from \x7bjson,qml\x7d] [--to \x7bjson,qml\x7d] [--check] [--title TITLE]\n"
    ++ "               [--width WIDTH] [--height HEIGHT] [--verbose]\n"
    ++ "               [file]\n"

/-- The outcome of arguments that do not make a request. -/
def Refusal.outcome : Refusal → Outcome
  | .help => { exit := 0, output := usage }
  | .misuse m => { exit := 2, errors := s!"{usage}qmlsync: error: {m.message}\n" }

/-- The outcome of a run. -/
def run (arguments : List String) (s : Surroundings) : Except Fault Outcome :=
  match Request.read arguments with
  | .error refusal => .ok refusal.outcome
  | .ok r => r.run s

end CommandLine

end WidgetSync
