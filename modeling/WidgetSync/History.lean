import WidgetSync.Fault

/-!
# Undo and Redo

A line of snapshots of the whole text with a place in it.

Recording drops everything after the place, since those snapshots belong to a
branch that was left, and puts the new snapshot behind it. Beyond its capacity a
history forgets its oldest snapshots. Going back and forth moves the place only.

## Main definitions

* `History`: Snapshots, capacity and place.
* `History.make`: An empty history.
* `History.record`, `History.undo`, `History.redo`, `History.clear`: Its operations.
* `History.current?`, `History.canUndo`, `History.canRedo`: What can be asked.
-/

namespace WidgetSync

/-- A line of snapshots with a place in it. -/
structure History where
  /-- How many snapshots are kept. -/
  capacity : Int
  /-- The snapshots, the oldest first. -/
  entries : List String := []
  /-- The place of the current snapshot; below zero if there is none. -/
  index : Int := -1
deriving DecidableEq, Repr

namespace History

/-- An empty history. A history has room for at least one snapshot. -/
def make (capacity : Int) : Except Fault History :=
  if capacity < 1 then .error (.invalid s!"History capacity must be >= 1, got {capacity}")
  else .ok { capacity }

/-- The current snapshot. -/
def current? (h : History) : Option String :=
  if h.index < 0 then none else h.entries[h.index.toNat]?

/-- There is an older snapshot to go back to. -/
def canUndo (h : History) : Bool :=
  0 < h.index

/-- There is a newer snapshot to go forward to. -/
def canRedo (h : History) : Bool :=
  h.index < h.entries.length - 1

/-- The history with a new snapshot behind the current one. -/
def record (h : History) (text : String) : History :=
  let entries := h.entries.take (h.index + 1).toNat ++ [text]
  let surplus := entries.length - h.capacity
  if 0 < surplus then
    { h with entries := entries.drop surplus.toNat, index := h.index + 1 - surplus }
  else { h with entries, index := h.index + 1 }

/-- One snapshot back, and the snapshot to restore. -/
def undo (h : History) : History × Option String :=
  if h.canUndo then
    let h := { h with index := h.index - 1 }
    (h, h.current?)
  else (h, none)

/-- One snapshot forward, and the snapshot to restore. -/
def redo (h : History) : History × Option String :=
  if h.canRedo then
    let h := { h with index := h.index + 1 }
    (h, h.current?)
  else (h, none)

/-- The history without snapshots. -/
def clear (h : History) : History :=
  { h with entries := [], index := -1 }

end History

end WidgetSync
