import WidgetSync.Fault
import WidgetSync.Table

/-!
# Where Settings Are Kept

The environment of the program, and the place of the settings file in it.

The file lies in a folder of its own in the folder for configuration. That
folder is named by a variable, or else it is hidden in the home folder. A path
is kept as its parts: empty parts and parts that mean the same folder vanish, and
two slashes at the start, but not three, are a root of their own.

## Main definitions

* `Environment`: The variables.
* `FilePath`: A path as its parts.
* `Environment.settingsPath`: The place of the settings file.
-/

namespace WidgetSync

/-- What the program finds around it. -/
structure Environment where
  /-- The variables with their values. -/
  assigned : Table String := []
  /-- The home folder of the account, for want of a variable that names one. -/
  accountHome : String := "/root"

/-- The value of a variable. -/
def Environment.get? (e : Environment) (name : String) : Option String :=
  e.assigned.get? name

/-- A path as its root and its parts. -/
structure FilePath where
  /-- The slashes that it starts with: none, one or two. -/
  root : String
  /-- The names of the folders on the way and of the file. -/
  parts : List String
deriving DecidableEq, Repr

namespace FilePath

/-- The parts of a text between slashes. -/
def segments : List Char → List (List Char)
  | [] => [[]]
  | c :: cs =>
    match segments cs with
    | [] => [[c]]
    | s :: ss => if c = '/' then [] :: s :: ss else (c :: s) :: ss

/-- The slashes that count as the root of a path. -/
def rootOf : List Char → String
  | '/' :: '/' :: '/' :: _ => "/"
  | '/' :: '/' :: _ => "//"
  | '/' :: _ => "/"
  | _ => ""

/-- The path that a text names. -/
def ofText (s : String) : FilePath where
  root := rootOf s.toList
  parts := ((segments s.toList).map String.ofList).filter fun p => p != "" && p != "."

/-- The path of something further inside. -/
def inside (p : FilePath) (names : List String) : FilePath :=
  { p with parts := p.parts ++ names }

/-- The path as text. -/
def text (p : FilePath) : String :=
  p.root ++ "/".intercalate p.parts

end FilePath

namespace Environment

/-- The home folder. A name that would again stand for a home folder names none. -/
def home (e : Environment) : Except Fault String :=
  match e.get? "HOME" with
  | none => .ok e.accountHome
  | some name =>
    let name := String.ofList (name.toList.reverse.dropWhile (· == '/')).reverse
    if name.startsWith "~" then .error (.refused "Could not determine home directory.")
    else .ok (if name.isEmpty then "/" else name)

/-- The place of the settings file. -/
def settingsPath (e : Environment) : Except Fault FilePath :=
  let file := ["qmlsync", "config.toml"]
  match e.get? "XDG_CONFIG_HOME" with
  | some folder =>
    if folder.isEmpty then e.home.map fun h => (FilePath.ofText h).inside (".config" :: file)
    else .ok ((FilePath.ofText folder).inside file)
  | none => e.home.map fun h => (FilePath.ofText h).inside (".config" :: file)

end Environment

end WidgetSync
