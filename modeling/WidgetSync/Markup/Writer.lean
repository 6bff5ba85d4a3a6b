import WidgetSync.Document
import WidgetSync.Markup.Literal
import WidgetSync.Node.Ids
import WidgetSync.Text.Case
import WidgetSync.Text.Lines

/-!
# Writing Documents

The canonical text of a document: the imports it needs, the block of the window
with its attributes, and the block of every widget.

Indentation comes from the depth of a block and from nothing else, so equal
documents have equal texts. Values of unusual kinds are written as they read in
a sentence. Writing fails only where a value cannot be used at all: a type that
cannot be looked up, code that is no text, an integer with too many digits.

## Main definitions

* `literal`, `scalar`: The source text of a value.
* `propertyLines`: The lines of a property.
* `nodeLines`: The lines of a widget.
* `importsOf`: The imports that a forest needs.
* `writeDocument`: The canonical text of a document.
-/

namespace WidgetSync

namespace Markup

/-- The indentation of a line at a depth. -/
def indent (depth : Nat) : String :=
  String.ofList (List.replicate (4 * depth) ' ')

/-- Why an integer cannot be written. -/
def unwritable : Fault :=
  .invalid (s!"Exceeds the limit ({Decimal.digitLimit} digits) for integer string conversion; "
    ++ "use sys.set_int_max_str_digits() to increase the limit")

/-- The source text of a value under a name that no table lists: texts in quotes,
    source text as it is, numbers and truth values as literals. -/
def literal (v : Value) : Except Fault String :=
  match v with
  | .raw s => .ok s
  | .bool b => .ok (if b then "true" else "false")
  | .text s => .ok (quote s)
  | v => if v.writable then .ok v.plain else .error unwritable

/-- A text that is marked as localized. -/
def localized (s : String) : String :=
  s!"qsTr({quote s})"

/-- A name with its scope, unless it has one. -/
def inScope (scope : Option String) (name : String) : String :=
  match scope with
  | some scope =>
    if scope.isEmpty || name.toList.contains '.' then name else s!"{scope}.{name}"
  | none => name

/-- The source text of a value without structure, under a spelling. -/
def scalar (v : Value) (spelling : Option Catalog.Spelling) : Except Fault String :=
  match v, spelling with
  | .text s, some ⟨.text, _⟩ => .ok (localized s)
  | .text s, some ⟨.enum, scope⟩ => .ok (inScope scope s)
  | v, _ => literal v

/-- The line is blank. -/
def isBlankLine (cs : List Char) : Bool :=
  cs.all Text.isBlank

/-- The lines of a handler. Code with line ends or marked as a block stands in a
    block; several statements on one line stand in braces. -/
def handlerLines (depth : Nat) (name : String) (code block : Value) :
    Except Fault (List String) := do
  let pad := indent depth
  let inBlock ← if block.truth then pure true else code.mentions "\n"
  if inBlock then
    match code.asText? with
    | none => .error .lacking
    | some text =>
      let body := (Text.lines text.toList).map fun l =>
        if isBlankLine l then "" else indent (depth + 1) ++ String.ofList l
      return [s!"{pad}{name}: \x7b"] ++ body ++ [pad ++ "\x7d"]
  else if ← code.mentions ";" then
    return [s!"{pad}{name}: \x7b {code.plain} \x7d"]
  else
    return [s!"{pad}{name}: {code.plain}"]

/-- The name starts with a capital. -/
def startsCapital (key : String) : Bool :=
  match key.toList with
  | c :: _ => Text.isUpperCase c
  | [] => false

mutual

/-- The lines of a property at a depth, in a group if one is named, with the names
    of outer groups in front. A group whose name starts with a capital would read
    as a widget, so its fields are written with points. -/
def propertyLines (depth : Nat) (group : Option String) (front key : String) :
    Value → Except Fault (List String)
  | .null => .ok []
  | .group fields =>
    if !front.isEmpty || startsCapital key then
      fieldLines depth (some key) (front ++ key ++ ".") fields
    else do
      let inner ← fieldLines (depth + 1) (some key) "" fields
      return [s!"{indent depth}{key} \x7b"] ++ inner ++ [indent depth ++ "\x7d"]
  | .handler code block => handlerLines depth (front ++ key) code block
  | .object type properties => do
    let inner ← fieldLines (depth + 1) none "" properties
    return [s!"{indent depth}{front}{key}: {type.plain} \x7b"] ++ inner ++ [indent depth ++ "\x7d"]
  | v => do
    let text ← scalar v (Catalog.spelling? key group)
    return [s!"{indent depth}{front}{key}: {text}"]

/-- The lines of properties, one after the other. -/
def fieldLines (depth : Nat) (group : Option String) (front : String) :
    List (String × Value) → Except Fault (List String)
  | [] => .ok []
  | (key, v) :: fields => do
    let first ← propertyLines depth group front key v
    let others ← fieldLines depth group front fields
    return first ++ others

end

/-- The line of a coordinate or size. Source text among the properties replaces the
    number. -/
def geometryLine (depth : Nat) (properties : Fields) (key : String) (number : Value) :
    Except Fault String := do
  let text ← match properties.get? key with
    | some (.raw s) => pure s
    | _ => literal number
  return s!"{indent depth}{key}: {text}"

/-- The properties other than those with the given names. -/
def without (names : List String) (fields : Fields) : Fields :=
  fields.filter fun f => !names.contains f.1

mutual

/-- The lines of a widget at a depth: type, id, geometry, properties, widgets. -/
def nodeLines (depth : Nat) : Node → Except Fault (List String)
  | ⟨type, id, x, y, width, height, properties, children⟩ => do
    let place ← [("x", x), ("y", y), ("width", width), ("height", height)].mapM fun (key, v) =>
      geometryLine (depth + 1) properties key v
    let others ← fieldLines (depth + 1) none "" (without ("id" :: Catalog.geometry) properties)
    let inside ← forestLines (depth + 1) children
    return [s!"{indent depth}{type.plain} \x7b", s!"{indent (depth + 1)}id: {id.safeId}"]
      ++ place ++ others ++ inside ++ [indent depth ++ "\x7d"]

/-- The lines of widgets side by side, each after an empty line. -/
def forestLines (depth : Nat) : List Node → Except Fault (List String)
  | [] => .ok []
  | n :: ns => do
    let first ← nodeLines depth n
    let others ← forestLines depth ns
    return "" :: first ++ others

end

/-- The import that the type of a widget or an object needs. -/
def importOf (type : Value) : Except Fault (Option String) :=
  match type.asText? with
  | some name => .ok (Catalog.requiredImport name)
  | none => if type.canName then .ok none else .error .unsuited

/-- The types that a widget names: its own, and those of objects among its values. -/
def typesNamed (n : Node) : List Value :=
  n.type :: n.properties.filterMap fun
    | (_, .object type _) => some type
    | _ => none

/-- The imports that a forest needs: those of every document, then each further one
    where it is needed first. -/
def importsOf (nodes : Forest) : Except Fault (List String) :=
  ((Forest.walk nodes).flatMap typesNamed).foldlM (fun found type => do
    match ← importOf type with
    | some line => return if found.contains line then found else found ++ [line]
    | none => return found) Catalog.baseImports

/-- The attributes of the window that are always written, with their source text. -/
def windowHeader (w : Window) : Except Fault (List (String × String)) := do
  let width ← literal w.width
  let height ← literal w.height
  let title := if w.title.truth then w.title.plain else ""
  return [("width", width), ("height", height),
    ("visible", if w.visible.truth then "true" else "false"), ("title", localized title)]

/-- The lines of the window's attributes. A property of the same name replaces one
    that is always written. -/
def windowLines (w : Window) : Except Fault (List String) := do
  let header ← windowHeader w
  let first ← header.mapM fun (key, text) =>
    match w.properties.get? key with
    | some v => propertyLines 1 none "" key v
    | none => .ok [s!"{indent 1}{key}: {text}"]
  let others ← fieldLines 1 none "" (without ("id" :: header.map (·.1)) w.properties)
  return first.flatten ++ others

/-- The canonical text of a document. -/
def writeDocument (d : Document) : Except Fault String := do
  let imports ← importsOf d.nodes
  let attributes ← windowLines d.window
  let widgets ← forestLines 1 d.nodes
  let lines := imports ++ ["", "ApplicationWindow \x7b", s!"{indent 1}id: window"]
    ++ attributes ++ widgets ++ ["\x7d"]
  return "\n".intercalate lines ++ "\n"

end Markup

end WidgetSync
