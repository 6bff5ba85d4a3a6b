import WidgetSync.Markup.Writer
import WidgetSync.Notice
import WidgetSync.Settings
import WidgetSync.Settings.Location
import WidgetSync.Settings.Toml
import WidgetSync.Text.Case
import WidgetSync.Text.Utf8
import WidgetSync.Value.Kind

/-!
# Loading Settings

The settings in force: the usual ones, then what the file says, then what the
environment says.

A file is applied entry by entry, in a fixed order. When an entry cannot be
applied, or the file cannot be read at all, a notice is left and the rest of the
file is passed over; what was applied before stays. Only a number that is too
large to become an integer is not forgiven. Variables that hold no integer where
one is needed are passed over without a word.

## Main definitions

* `Settings.applyData`: Settings after the data of a file.
* `Settings.applyVariables`: Settings after the variables of the environment.
* `Settings.load`: The settings in force.
-/

namespace WidgetSync

namespace Settings

/-- An entry that a file may have: its section, its name, and what it changes. -/
structure Entry where
  /-- The section. -/
  area : String
  /-- The name inside the section. -/
  name : String
  /-- The settings with the entry's value. -/
  put : Value → Settings → Except Fault Settings

/-- The text that stands for a value, if its integers can be written. -/
def textOf (v : Value) : Except Fault String :=
  if v.writable then .ok v.plain else .error Markup.unwritable

/-- An entry for an integer. -/
def integerEntry (area name : String) (put : Int → Settings → Settings) : Entry :=
  ⟨area, name, fun v s => v.integer.map fun n => put n s⟩

/-- An entry for a text. -/
def textEntry (area name : String) (put : String → Settings → Settings) : Entry :=
  ⟨area, name, fun v s => (textOf v).map fun t => put t s⟩

/-- A text in capitals. -/
def capitals (t : String) : String :=
  String.ofList (Text.upperCase t.toList)

/-- The entries of a file, in the order in which they are applied. -/
def fileEntries : List Entry :=
  [integerEntry "sync" "debounce_ms" fun n s => { s with debounceMs := n },
   integerEntry "history" "capacity" fun n s => { s with capacity := n },
   integerEntry "window" "width" fun n s => { s with width := n },
   integerEntry "window" "height" fun n s => { s with height := n },
   textEntry "window" "title" fun t s => { s with title := t },
   textEntry "logging" "level" fun t s => { s with level := capitals t }]

/-- The value that data hold under a name. -/
def lookUp (data : Value) (name : String) : Except Fault (Option Value) := do
  if ← data.mentions name then return some (← data.member name)
  return none

/-- The settings after one entry of the data. -/
def applyEntry (data : Value) (s : Settings) (e : Entry) : Except Fault Settings := do
  match ← lookUp data e.area with
  | none => return s
  | some area =>
    match ← lookUp area e.name with
    | none => return s
    | some v => e.put v s

/-- The settings after entries of the data: all of them, or those before the first
    that cannot be applied, and why it cannot. -/
def applyEntries (data : Value) : Settings → List Entry → Settings × Option Fault
  | s, [] => (s, none)
  | s, e :: es =>
    match applyEntry data s e with
    | .ok after => applyEntries data after es
    | .error fault => (s, some fault)

/-- The settings after the data of a file, and why the rest of the data was passed
    over if it was. -/
def applyData (s : Settings) (data : Value) : Settings × Option Fault :=
  applyEntries data s fileEntries

/-- The settings with an integer from a variable, if the variable holds one. -/
def applyInteger (e : Environment) (name : String) (put : Int → Settings → Settings)
    (s : Settings) : Settings :=
  match (e.get? name).bind fun t => Decimal.readInteger? t.toList with
  | some n => put n s
  | none => s

/-- The settings with a text from a variable, if there is such a variable. -/
def applyText (e : Environment) (name : String) (put : String → Settings → Settings)
    (s : Settings) : Settings :=
  match e.get? name with
  | some t => put t s
  | none => s

/-- The settings after the variables of the environment. -/
def applyVariables (e : Environment) (s : Settings) : Settings :=
  let s := applyInteger e "QMLSYNC_DEBOUNCE_MS" (fun n s => { s with debounceMs := n }) s
  let s := applyInteger e "QMLSYNC_HISTORY_CAPACITY" (fun n s => { s with capacity := n }) s
  let s := applyInteger e "QMLSYNC_WINDOW_WIDTH" (fun n s => { s with width := n }) s
  let s := applyInteger e "QMLSYNC_WINDOW_HEIGHT" (fun n s => { s with height := n }) s
  let s := applyText e "QMLSYNC_WINDOW_TITLE" (fun t s => { s with title := t }) s
  applyText e "QMLSYNC_LOG_LEVEL" (fun t s => { s with level := t }) s

/-- The data of a file. -/
def fileData? (bytes : List UInt8) : Option Fields :=
  match Text.decode bytes with
  | .ok cs => Toml.read? cs
  | .error _ => none

/-- The notice that a file, or its rest, was passed over. -/
def unreadable (path : String) : Notice :=
  ⟨.warning, "qmlsync.config", s!"ignoring unreadable config file {path}"⟩

/-- The settings after a file. -/
def applyFile (s : Settings) (path : String) (bytes : List UInt8) :
    Except Fault (Settings × List Notice) :=
  match fileData? bytes with
  | none => .ok (s, [unreadable path])
  | some data =>
    match s.applyData (.record data) with
    | (after, none) => .ok (after, [])
    | (_, some .overflow) => .error .overflow
    | (after, some _) => .ok (after, [unreadable path])

/-- The settings in force, given what each file holds. -/
def load (e : Environment) (files : String → Option (List UInt8)) :
    Except Fault (Settings × List Notice) := do
  let path ← e.settingsPath
  let (s, notices) ← match files path.text with
    | none => .ok ({}, [])
    | some bytes => applyFile {} path.text bytes
  return (s.applyVariables e, notices)

end Settings

end WidgetSync
