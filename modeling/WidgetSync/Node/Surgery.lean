import WidgetSync.Node

/-!
# Cutting and Grafting

Changes to one place of a forest: the first node in pre-order that fits is taken
out with its subtree or altered in place, and all others stay what they are.

## Main definitions

* `Forest.eraseFirst?`: The forest without the first node that fits.
* `Forest.alterFirst?`: The forest with the first node that fits altered.
* `insertAt`: A list with one more element at a place.
-/

namespace WidgetSync

mutual

/-- The tree without the first node that fits, which is not its root. -/
def Node.eraseBelow? (fits : Node → Bool) : Node → Option Node
  | ⟨type, id, x, y, width, height, properties, children⟩ =>
    (Forest.eraseFirst? fits children).map fun rest =>
      ⟨type, id, x, y, width, height, properties, rest⟩

/-- The forest without the first node that fits and what is below it, if there is
    such a node. -/
def Forest.eraseFirst? (fits : Node → Bool) : List Node → Option (List Node)
  | [] => none
  | n :: ns =>
    if fits n then some ns
    else
      match n.eraseBelow? fits with
      | some rest => some (rest :: ns)
      | none => (Forest.eraseFirst? fits ns).map (n :: ·)

end

mutual

/-- The tree with the first node that fits altered, if there is such a node. -/
def Node.alterFirst? (fits : Node → Bool) (alter : Node → Node) : Node → Option Node
  | ⟨type, id, x, y, width, height, properties, children⟩ =>
    let n := ⟨type, id, x, y, width, height, properties, children⟩
    if fits n then some (alter n)
    else
      (Forest.alterFirst? fits alter children).map fun below =>
        ⟨type, id, x, y, width, height, properties, below⟩

/-- The forest with the first node that fits altered, if there is such a node. -/
def Forest.alterFirst? (fits : Node → Bool) (alter : Node → Node) : List Node → Option (List Node)
  | [] => none
  | n :: ns =>
    match n.alterFirst? fits alter with
    | some altered => some (altered :: ns)
    | none => (Forest.alterFirst? fits alter ns).map (n :: ·)

end

/-- The place in a list of some length that an index means. An index below zero
    counts from the end; one that is out of range means the nearer end. -/
def placeOf (index : Int) (length : Nat) : Nat :=
  if index < 0 then (index + length).toNat else min index.toNat length

/-- The list with one more element at the place that an index means. -/
def insertAt {α : Type} (index : Int) (a : α) (as : List α) : List α :=
  let place := placeOf index as.length
  as.take place ++ a :: as.drop place

end WidgetSync
