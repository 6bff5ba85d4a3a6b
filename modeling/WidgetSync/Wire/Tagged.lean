import WidgetSync.Document
import WidgetSync.Node.Ids

/-!
# Trees as Plain Data

The form in which hosts exchange trees: plain data, with tags for the values that
plain data do not know.

Source text, grouped properties, handlers and objects become records whose first
member is a tag that starts with a dollar sign. A record without such a tag is
data of its own. Reading a node is lenient: what is missing has its usual value.

## Main definitions

* `Value.toData`, `Value.ofData`: Values.
* `Node.toData`, `Node.ofData`: Nodes with their subtrees.
* `Window.toData`, `Window.ofData`: The window.
* `Document.toData`, `Document.ofData`: Documents.
-/

namespace WidgetSync

namespace Value

mutual

/-- The value as plain data. -/
def toData : Value → Value
  | .raw s => .record [("$raw", .text s)]
  | .group fields => .record [("$group", .record (fieldsToData fields))]
  | .handler code block => .record [("$handler", code), ("block", block)]
  | .object type properties =>
    .record [("$object", type), ("properties", .record (fieldsToData properties))]
  | v => v

/-- Fields as plain data. -/
def fieldsToData : List (String × Value) → List (String × Value)
  | [] => []
  | (k, v) :: fields => (k, v.toData) :: fieldsToData fields

end

mutual

/-- The value that plain data stand for. Of several tags the first in the order
    source text, group, handler, object counts. -/
def ofData : Value → Except Fault Value
  | .record entries =>
    match Table.get? entries "$raw" with
    | some source => .ok (.raw source.plain)
    | none =>
      match fieldsUnder "$group" entries with
      | some fields => fields.map .group
      | none =>
        match Table.get? entries "$handler" with
        | some code =>
          .ok (.handler code (.bool (((Table.get? entries "block").map truth).getD false)))
        | none =>
          match Table.get? entries "$object" with
          | some type => ((fieldsUnder "properties" entries).getD (.ok [])).map (.object type)
          | none => .ok (.record entries)
  | v => .ok v

/-- The fields in the record under a name, if the name is present. -/
def fieldsUnder (name : String) : List (String × Value) → Option (Except Fault Fields)
  | [] => none
  | (k, v) :: entries => if k = name then some v.fieldsIn else fieldsUnder name entries

/-- The fields in a record. -/
def fieldsIn : Value → Except Fault Fields
  | .record entries => fieldsOfData entries
  | _ => .error .lacking

/-- The fields that plain data stand for. -/
def fieldsOfData : List (String × Value) → Except Fault Fields
  | [] => .ok []
  | (k, v) :: entries => do
    let first ← v.ofData
    let others ← fieldsOfData entries
    return (k, first) :: others

end

end Value

namespace Node

mutual

/-- The node and its subtree as plain data. -/
def toData : Node → Value
  | ⟨type, id, x, y, width, height, properties, children⟩ =>
    .record
      [("id", id), ("type", type), ("x", x), ("y", y), ("width", width), ("height", height),
       ("properties", .record (Value.fieldsToData properties)), ("children", .list (allToData children))]

/-- The nodes of a forest as plain data. -/
def allToData : List Node → List Value
  | [] => []
  | n :: ns => n.toData :: allToData ns

end

/-- The node that the members of a record describe, with given children. -/
def ofEntries (entries : Fields) (children : Except Fault Forest) : Except Fault Node := do
  let member := fun (name : String) (usual : Value) => (entries.get? name).getD usual
  let type := (member "type" (.text "Item")).plain
  let (width, height) := Catalog.defaultSize type
  let id := member "id" .null
  let properties ← (member "properties" (.record [])).fieldsIn
  let children ← children
  return {
    type := .text type
    id := .text (if id.truth then id.safeId else "")
    x := member "x" (.int 0)
    y := member "y" (.int 0)
    width := member "width" (.int width)
    height := member "height" (.int height)
    properties, children }

mutual

/-- The node that plain data describe. -/
def ofData : Value → Except Fault Node
  | .record entries => ofEntries entries ((forestUnder "children" entries).getD (.ok []))
  | _ => .error .lacking

/-- The nodes under a name, if the name is present. -/
def forestUnder (name : String) : List (String × Value) → Option (Except Fault Forest)
  | [] => none
  | (k, v) :: entries => if k = name then some (forestIn v) else forestUnder name entries

/-- The nodes that the elements of a value describe. No node is described by a name
    or a character. -/
def forestIn : Value → Except Fault Forest
  | .list items => forestOfData items
  | .record entries => if entries.isEmpty then .ok [] else .error .lacking
  | .text s => if s.isEmpty then .ok [] else .error .lacking
  | .raw s => if s.isEmpty then .ok [] else .error .lacking
  | _ => .error .unsuited

/-- The nodes that plain data describe. -/
def forestOfData : List Value → Except Fault Forest
  | [] => .ok []
  | v :: vs => do
    let first ← ofData v
    let others ← forestOfData vs
    return first :: others

end

end Node

namespace Window

/-- The window as plain data. Properties are left out if there are none. -/
def toData (w : Window) : Value :=
  let attributes :=
    [("width", w.width), ("height", w.height), ("title", w.title), ("visible", w.visible)]
  .record (attributes ++
    if w.properties.isEmpty then []
    else [("properties", .record (Value.fieldsToData w.properties))])

/-- The members of a record for a window, and the properties among them. -/
def parts (data : Value) : Except Fault (Fields × Fields) := do
  let entries ← data.entries
  let properties ← ((entries.get? "properties").getD (.record [])).fieldsIn
  return (entries, properties)

/-- The window that the members of a record describe. -/
def ofData (s : Settings) (data : Value) : Except Fault Window := do
  let (entries, properties) ← parts data
  let member := fun (name : String) (usual : Value) => (entries.get? name).getD usual
  make s (member "width" (.int (-1))) (member "height" (.int (-1))) (member "title" .null)
    (.bool (member "visible" (.bool true)).truth) properties

end Window

namespace Document

/-- The document as plain data. -/
def toData (d : Document) : Value :=
  .record [("window", d.window.toData), ("nodes", .list (Node.allToData d.nodes))]

/-- The data of the window in the members of a record. -/
def windowData (entries : Fields) : Value :=
  let given := (entries.get? "window").getD .null
  if given.truth then given else .record []

/-- The document that plain data describe: a record with a window and nodes, or the
    list of the nodes alone. -/
def ofData (s : Settings) : Value → Except Fault Document
  | .list items => do
    let nodes ← Node.forestOfData items
    return ⟨.usual s, nodes⟩
  | .record entries => do
    let window ← Window.ofData s (windowData entries)
    let nodes ← (Node.forestUnder "nodes" entries).getD (.ok [])
    return ⟨window, nodes⟩
  | _ => .error .unsuited

end Document

end WidgetSync
