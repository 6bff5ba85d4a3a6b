import WidgetSync.Document
import WidgetSync.Timing.Debouncer

/-!
# The Arbiter

What joins a text to its tree and keeps both in step.

The arbiter has two sides. Changes of the text are read and pushed to the
consumers of the tree; changes of the tree are folded into the current tree and
written as text. Each side collects its changes for a while. While one side is
passed on, the arbiter is in a phase in which it does not listen to the other
one, so that what it writes itself is not taken for a new change. When both sides
changed, the later change wins: events are numbered across the sides.

This module holds the state alone. What happens to it is told in `Serve`, and
what surrounds it in `Host`.

## Main definitions

* `Phase`, `Side`: What the arbiter is doing, and for whom.
* `Arbiter`: The state.
-/

namespace WidgetSync

/-- What the arbiter is doing. -/
inductive Phase where
  /-- It waits. -/
  | idle
  /-- It passes the text on to the consumers of the tree. -/
  | textToTree
  /-- It writes the tree as text. -/
  | treeToText
deriving DecidableEq, Repr

/-- The word for a phase. -/
def Phase.name : Phase → String
  | .idle => "idle"
  | .textToTree => "text_to_tree"
  | .treeToText => "tree_to_text"

/-- The two sides of the arbiter. -/
inductive Side where
  /-- The text. -/
  | text
  /-- The tree. -/
  | tree
deriving DecidableEq, Repr

/-- The state of the arbiter, with delays of a type and consumers named by another. -/
structure Arbiter (δ κ : Type) where
  /-- What it is doing. -/
  phase : Phase := .idle
  /-- It listens to events. -/
  enabled : Bool := true
  /-- It has been shut down. -/
  disposed : Bool := false
  /-- The current tree. -/
  nodes : Forest := []
  /-- The current window. -/
  window : Window
  /-- The tree with the changes that have not been written yet. -/
  pendingNodes : Option Forest := none
  /-- The text that both sides are believed to agree on. -/
  lastText : Option String := none
  /-- The number of the last event. -/
  events : Nat := 0
  /-- The number of the last event on the side of the text. -/
  textEvent : Nat := 0
  /-- The number of the last event on the side of the tree. -/
  treeEvent : Nat := 0
  /-- The last failure, unless something has succeeded since. -/
  lastFault : Option Fault := none
  /-- Who is told about new trees, in order. -/
  consumers : List κ := []
  /-- The timer of the text. -/
  textTimer : Debouncer δ Unit
  /-- The timer of the tree. -/
  treeTimer : Debouncer δ Unit

namespace Arbiter

variable {δ κ : Type}

/-- An arbiter that has seen nothing yet. -/
def fresh (window : Window) (delay : δ) (consumers : List κ) : Arbiter δ κ where
  window := window
  consumers := consumers
  textTimer := { delay }
  treeTimer := { delay }

/-- The arbiter listens to events. -/
def listens (a : Arbiter δ κ) : Bool :=
  a.enabled && !a.disposed

/-- The timer of a side. -/
def timer (a : Arbiter δ κ) : Side → Debouncer δ Unit
  | .text => a.textTimer
  | .tree => a.treeTimer

/-- The arbiter with the timer of a side changed. -/
def setTimer (a : Arbiter δ κ) (d : Debouncer δ Unit) : Side → Arbiter δ κ
  | .text => { a with textTimer := d }
  | .tree => { a with treeTimer := d }

/-- Something waits to be passed on. -/
def pending (a : Arbiter δ κ) : Bool :=
  a.textTimer.pending || a.treeTimer.pending

/-- The arbiter after one more event on a side. -/
def count (a : Arbiter δ κ) : Side → Arbiter δ κ
  | .text => { a with events := a.events + 1, textEvent := a.events + 1 }
  | .tree => { a with events := a.events + 1, treeEvent := a.events + 1 }

/-- The tree to which the next change applies. -/
def base (a : Arbiter δ κ) : Forest :=
  a.pendingNodes.getD a.nodes

end Arbiter

end WidgetSync
