import WidgetSync.Node.Ids
import WidgetSync.Node.Surgery

/-!
# Changes

What a host does to a tree: it adds a widget, moves or resizes one, sets a
property, deletes a widget, or sends a new forest.

A change names its target by id and may be incomplete, since hosts are free to
send anything. Applying it gives a new forest. A target that is not there is no
fault: the forest stays as it is and a notice is left. Every id that a change
brings in is made safe and unique.

## Main definitions

* `Change`: The changes.
* `Change.apply`: A forest after a change.
-/

namespace WidgetSync

/-- What a host does to a tree. Parts that are needed and may still be missing are
    optional. -/
inductive Change where
  /-- A new subtree under a parent, or beside the roots, at a place among its
      siblings, or behind them. -/
  | add (node : Option Node) (parent index : Value)
  /-- A new place. -/
  | move (id : Value) (x y : Option Value)
  /-- A new size. -/
  | resize (id : Value) (width height : Option Value)
  /-- A new value for a property. No value removes it. -/
  | property (id : Value) (key value : Option Value)
  /-- A subtree goes. -/
  | delete (id : Value)
  /-- A new forest. -/
  | replace (nodes : Option Forest)
deriving Inhabited

namespace Change

/-- The word for the kind of change. -/
def kind : Change → String
  | .add .. => "add"
  | .move .. => "move"
  | .resize .. => "resize"
  | .property .. => "property"
  | .delete .. => "delete"
  | .replace .. => "replace"

/-- A part that the change cannot do without. -/
def required {α : Type} (name : String) : Option α → Except Fault α
  | some a => .ok a
  | none => .error (.missing name)

/-- A notice on a change. -/
def warning (text : String) : Notice :=
  ⟨.warning, "qmlsync.edits", text⟩

/-- The notice that a change had no effect since there is no such node. -/
def unknown (kind role : String) (id : Value) : Notice :=
  warning s!"{kind}: unknown {role} {id.spelled}, change ignored"

/-- The id that a new node should get. -/
def wishedId (n : Node) : Except Fault String :=
  if n.id.truth then .ok n.id.safeId
  else
    match n.type.asText? with
    | some type => .ok (typeName type 1)
    | none => .error .lacking

/-- The subtree with ids that are safe, unique and not taken. -/
def withFreshIds (taken : List String) (n : Node) : Except Fault Node :=
  let (state, fresh) := n.relabel (fun (s : Except Fault (List String)) m =>
    match s, wishedId m with
    | .ok taken, .ok wished =>
      let id := uniqueId wished taken
      (.ok (id :: taken), .text id)
    | .ok _, .error fault => (.error fault, m.id)
    | .error fault, _ => (.error fault, m.id)) (.ok taken)
  state.map fun _ => fresh

/-- The number of different places that a list can have, below and above zero. -/
def indexBound : Int :=
  0x8000000000000000

/-- The place that a value asks for; none means behind the others. -/
def placeWanted : Value → Except Fault (Option Int)
  | .null => .ok none
  | .bool b => .ok (some (Value.ofTruth b))
  | .int n => if -indexBound ≤ n ∧ n < indexBound then .ok (some n) else .error .overflow
  | _ => .error .unsuited

/-- The siblings with a new one at the place asked for. -/
def graft (n : Node) (place : Option Int) (siblings : Forest) : Forest :=
  match place with
  | none => siblings ++ [n]
  | some index => insertAt index n siblings

/-- The node has the id. -/
def hasId (id : Value) (n : Node) : Bool :=
  n.id.same id

/-- The forest with a new subtree. -/
def applyAdd (node : Option Node) (parent index : Value) (nodes : Forest) :
    Except Fault (Forest × List Notice) := do
  let given ← required "node" node
  let ids ← Forest.ids nodes
  let fresh ← withFreshIds (ids.filterMap Value.asText?) given
  match parent with
  | .null =>
    let place ← placeWanted index
    return (graft fresh place nodes, [])
  | id =>
    match Forest.find? nodes id with
    | none => return (nodes, [unknown "add" "parent id" id])
    | some _ =>
      let place ← placeWanted index
      let grafted := Forest.alterFirst? (hasId id)
        (fun p => { p with children := graft fresh place p.children }) nodes
      return (grafted.getD nodes, [])

/-- The ids of all nodes but the first with the id, as names. -/
def otherIds (nodes : Forest) (id : Value) : Except Fault (List String) :=
  let others := (Forest.walk nodes).eraseP (hasId id)
  if others.all fun n => n.id.canName then .ok (others.filterMap fun n => n.id.asText?)
  else .error .unsuited

/-- A number that a coordinate or a size can be: an integer or a double. -/
def isNumber : Value → Bool
  | .int _ => true
  | .float _ => true
  | _ => false

/-- The node with a value in one of its four places for geometry. -/
def setGeometry (key : String) (value : Value) (n : Node) : Node :=
  match key with
  | "x" => { n with x := value }
  | "y" => { n with y := value }
  | "width" => { n with width := value }
  | "height" => { n with height := value }
  | _ => n

/-- The node without some properties. -/
def dropProperties (keys : List String) (n : Node) : Node :=
  { n with properties := keys.foldl Table.erase n.properties }

/-- How a property change alters its target. Taking away a property that cannot
    have a name is a fault only if there are properties at all. -/
def propertyChange (key value : Value) (target : Node) : Except Fault (Node → Node) :=
  match key.asText? with
  | some name =>
    if Catalog.geometry.contains name && isNumber value then
      .ok fun n => dropProperties [name] (setGeometry name value n)
    else
      match value with
      | .null => .ok (dropProperties [name])
      | v => .ok fun n => { n with properties := n.properties.set name v }
  | none =>
    match value with
    | .null => if key.canName || target.properties.isEmpty then .ok id else .error .unsuited
    | _ => .error .unsuited

/-- How a change alters its target, and what there is to say. -/
def alteration (nodes : Forest) (target : Node) : Change → Except Fault ((Node → Node) × List Notice)
  | .move _ x y => do
    let x ← required "x" x
    let y ← required "y" y
    return (fun n => dropProperties ["x", "y"] { n with x, y }, [])
  | .resize _ width height => do
    let width ← required "width" width
    let height ← required "height" height
    return (fun n => dropProperties ["width", "height"] { n with width, height }, [])
  | .property id key value => do
    let key ← required "key" key
    let value ← required "value" value
    if key.asText? = some "id" then
      if !value.truth then
        return (fun n => n, [warning s!"property: empty id for {target.id.spelled}, change ignored"])
      let taken ← otherIds nodes id
      let fresh := uniqueId value.safeId taken
      return (fun n => { n with id := .text fresh }, [])
    let alter ← propertyChange key value target
    return (alter, [])
  | _ => .ok (fun n => n, [])

/-- The forest with the target of a change altered. -/
def applyTo (id : Value) (change : Change) (nodes : Forest) :
    Except Fault (Forest × List Notice) :=
  match Forest.find? nodes id with
  | none => .ok (nodes, [unknown change.kind "id" id])
  | some target => do
    let (alter, notices) ← alteration nodes target change
    return ((Forest.alterFirst? (hasId id) alter nodes).getD nodes, notices)

/-- The forest after a change, and what there is to say. -/
def apply (change : Change) (nodes : Forest) : Except Fault (Forest × List Notice) :=
  match change with
  | .add node parent index => applyAdd node parent index nodes
  | .move id .. => applyTo id change nodes
  | .resize id .. => applyTo id change nodes
  | .property id .. => applyTo id change nodes
  | .delete id =>
    match Forest.eraseFirst? (hasId id) nodes with
    | some rest => .ok (rest, [])
    | none => .ok (nodes, [unknown "delete" "id" id])
  | .replace given => do
    let snapshot ← required "nodes" given
    let assigned := Forest.assignIds snapshot
    match assigned.fault with
    | some fault => throw fault
    | none => return (assigned.nodes, assigned.notices)

end Change

end WidgetSync
