import WidgetSync.Format
import WidgetSync.Table
import WidgetSync.Text.Case

/-!
# Choosing a Format

The formats that are known, and how one of them is chosen: by its name, by the
ending of a file, or by how a text looks.

Endings may span several dots. Among the endings that fit a file name the longest
decides, and of two formats with the same ending the one that came first keeps
it. Upper and lower case do not matter. A format that is registered again under
its name takes the place of the former one, but endings stay where they are.

## Main definitions

* `Registry`: The known formats.
* `Registry.register`: Makes a format known.
* `Registry.byName?`, `Registry.byExtension?`, `Registry.forFile?`: Looking up.
* `Registry.detect?`: The format of a text and why it was chosen.
* `Registry.usual`: Both formats of this library.
* `Registry.source`: The format that is used to read a text.
-/

namespace WidgetSync

/-- The known formats. -/
structure Registry where
  /-- The formats by name. -/
  formats : Table Format := []
  /-- The formats by ending, in lower case. -/
  endings : Table Format := []

/-- Why a format was chosen. -/
inductive Evidence where
  /-- The ending of the file name. -/
  | ending
  /-- The look of the text. -/
  | content
deriving DecidableEq, Repr

/-- How sure the choice is, from zero to one. -/
def Evidence.confidence : Evidence → Float
  | .ending => 1.0
  | .content => 0.8

/-- The word for the reason. -/
def Evidence.reason : Evidence → String
  | .ending => "extension"
  | .content => "content"

namespace Registry

/-- A name without regard to case. -/
def folded (s : String) : String :=
  String.ofList (Text.lowerCase s.toList)

/-- The endings with one more, unless it is there. -/
def claim (format : Format) (endings : Table Format) (ending : String) : Table Format :=
  if endings.has (folded ending) then endings else endings.set (folded ending) format

/-- Makes a format known. Endings that another format has stay with it. -/
def register (r : Registry) (format : Format) : Registry where
  formats := r.formats.set format.name format
  endings := format.extensions.foldl (claim format) r.endings

/-- The format of a name. -/
def byName? (r : Registry) (name : String) : Option Format :=
  r.formats.get? name

/-- The format of an ending, given with or without its dot. -/
def byExtension? (r : Registry) (extension : String) : Option Format :=
  let ending := folded extension
  r.endings.get? (if ending.startsWith "." then ending else "." ++ ending)

/-- The longer of the best entry so far and a further one that fits the name. -/
def better (name : List Char) (best : Option (String × Format)) (entry : String × Format) :
    Option (String × Format) :=
  if entry.1.toList.isSuffixOf name && (best.elim 0 fun b => b.1.length) < entry.1.length then
    some entry
  else best

/-- The format with the longest ending that fits the file name. -/
def forFile? (r : Registry) (file : String) : Option Format :=
  (r.endings.foldl (better (folded file).toList) none).map (·.2)

/-- The format of a text: by the ending of its file, if that is known, else the
    first format that recognises the text. -/
def detect? (r : Registry) (content : String) (file : Option String) :
    Option (Format × Evidence) :=
  let byEnding := file.bind fun f => if f.isEmpty then none else r.forFile? f
  match byEnding with
  | some format => some (format, .ending)
  | none =>
    ((r.formats.map (·.2)).find? fun format => format.detects content).map (·, .content)

/-- The formats of this library. -/
def usual : Registry :=
  (({} : Registry).register .json).register .markup

/-- The format in which a text is read: the one asked for, else the one detected,
    else markup. -/
def source (r : Registry) (name : Option String) (content : String) (file : Option String) :
    Format :=
  match name.bind r.byName? with
  | some format => format
  | none => ((r.detect? content file).map (·.1)).getD .markup

end Registry

end WidgetSync
