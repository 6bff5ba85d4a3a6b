import WidgetSync.Catalog
import WidgetSync.Value.Kind

/-!
# Widget Trees

The structural side of a document: nodes with a type, an id, a place, a size,
properties and children, and forests of them.

Types, ids and geometry are values, since a host may send anything there. The
order of a forest is the pre-order: a node stands before its children, and these
stand before its next sibling. Ids are given out in that order by `relabel`,
which can change nothing else.

## Main definitions

* `Node`: A widget with its subtree.
* `Node.ofType`: A widget of a type in its usual size.
* `Node.depthFirst`, `Forest.walk`: The pre-order.
* `Node.breadthFirst`: The order by depth.
* `Forest.relabel`: New ids, node by node, in pre-order.
* `Forest.find?`: The first node with an id.

## Theorems

* `Forest.size_append`: The number of nodes is additive.
-/

namespace WidgetSync

/-- A widget with its subtree. -/
structure Node where
  /-- The type of the widget. -/
  type : Value
  /-- The name by which text and hosts refer to it. -/
  id : Value := .text ""
  /-- The distance from the left. -/
  x : Value := .int 0
  /-- The distance from the top. -/
  y : Value := .int 0
  /-- The width. -/
  width : Value := .int Catalog.fallbackSize.1
  /-- The height. -/
  height : Value := .int Catalog.fallbackSize.2
  /-- All other properties. -/
  properties : Fields := []
  /-- The widgets inside. -/
  children : List Node := []
deriving Inhabited

/-- Trees side by side. -/
abbrev Forest := List Node

/-- The usual size of a widget, by a value that should name its type. -/
def usualSize (type : Value) : Except Fault (Int × Int) :=
  match type.asText? with
  | some name => .ok (Catalog.defaultSize name)
  | none => if type.canName then .ok Catalog.fallbackSize else .error .unsuited

namespace Node

/-- A widget of a type in its usual size. -/
def ofType (type : String) : Node :=
  let (width, height) := Catalog.defaultSize type
  { type := .text type, width := .int width, height := .int height }

end Node

mutual

/-- The number of nodes of a tree. -/
def Node.size : Node → Nat
  | ⟨_, _, _, _, _, _, _, children⟩ => 1 + Forest.size children

/-- The number of nodes of a forest. -/
def Forest.size : List Node → Nat
  | [] => 0
  | n :: ns => n.size + Forest.size ns

end

/-- Forests side by side have as many nodes as both together. -/
theorem Forest.size_append (a b : Forest) :
    Forest.size (a ++ b) = Forest.size a + Forest.size b := by
  induction a with
  | nil => simp [Forest.size]
  | cons n a ih => simp only [List.cons_append, Forest.size, ih]; omega

/-- A tree has one node more than its children together. -/
theorem Node.size_eq (n : Node) : n.size = 1 + Forest.size n.children := by
  cases n
  rfl

mutual

/-- The nodes of a tree, each before its children. -/
def Node.depthFirst : Node → List Node
  | ⟨type, id, x, y, width, height, properties, children⟩ =>
    ⟨type, id, x, y, width, height, properties, children⟩ :: Forest.walk children

/-- The nodes of a forest in pre-order. -/
def Forest.walk : List Node → List Node
  | [] => []
  | n :: ns => n.depthFirst ++ Forest.walk ns

end

/-- The nodes of the trees in a queue: the first tree gives up its root, and its
    children go to the end. -/
def Forest.byDepth : List Node → List Node
  | [] => []
  | n :: queue => n :: Forest.byDepth (queue ++ n.children)
termination_by queue => Forest.size queue
decreasing_by
  rw [Forest.size_append, Forest.size, Node.size_eq]
  omega

/-- The nodes of a tree, level by level. -/
def Node.breadthFirst (n : Node) : List Node :=
  Forest.byDepth [n]

mutual

/-- The tree with new ids, chosen node by node in pre-order. The choice sees the
    node as it was and a state that it hands on. -/
def Node.relabel {σ : Type} (choose : σ → Node → σ × Value) (s : σ) : Node → σ × Node
  | ⟨type, id, x, y, width, height, properties, children⟩ =>
    let chosen := choose s ⟨type, id, x, y, width, height, properties, children⟩
    let below := Forest.relabel choose chosen.1 children
    (below.1, ⟨type, chosen.2, x, y, width, height, properties, below.2⟩)

/-- The forest with new ids, chosen node by node in pre-order. -/
def Forest.relabel {σ : Type} (choose : σ → Node → σ × Value) (s : σ) : List Node → σ × List Node
  | [] => (s, [])
  | n :: ns =>
    let first := n.relabel choose s
    let others := Forest.relabel choose first.1 ns
    (others.1, first.2 :: others.2)

end

namespace Forest

/-- The first node in pre-order that has the id. -/
def find? (nodes : Forest) (id : Value) : Option Node :=
  (walk nodes).find? fun n => Value.same n.id id

/-- Ids in order of arrival, each once. Ids that are empty do not count; one that
    cannot serve as a name is a fault. -/
def ids (nodes : Forest) : Except Fault (List Value) :=
  (walk nodes).foldlM (fun found n =>
    if !n.id.truth then .ok found
    else if !n.id.canName then .error .unsuited
    else if found.any fun v => Value.same v n.id then .ok found
    else .ok (found ++ [n.id])) []

end Forest

end WidgetSync
