import WidgetSync.Arbiter
import WidgetSync.Change

/-!
# Hosts

What surrounds an arbiter: the text document, the consumers of the tree, the
format, and the timers.

All of them work on a world of their own, of which the arbiter knows nothing. A
document and a consumer may call the arbiter back while it calls them. Such a
reaction is data: the world as they leave it, the calls that they make in order,
and the failure that ends it, if there is one. They see the state of the arbiter
at the moment of the call.

## Main definitions

* `Call`: What can be asked of an arbiter.
* `Reaction`: What a collaborator does when it is called.
* `Host`: The collaborators.
* `Session`: An arbiter and the world around it.
-/

namespace WidgetSync

/-- What can be asked of an arbiter, with consumers named by a type. -/
inductive Call (κ : Type) where
  /-- The text changed: to the one given, or to what the document holds. -/
  | textChanged (text : Option String)
  /-- The tree changed. -/
  | treeChanged (change : Change)
  /-- The tree changed as a whole. -/
  | treeSent (nodes : Forest)
  /-- The text should be passed on for the first time. -/
  | start
  /-- What waits should be passed on now. -/
  | flush
  /-- Both sides should become a tree, perhaps with a window. -/
  | loadTree (nodes : Forest) (window : Option Window)
  /-- Both sides should become a text. -/
  | restore (text : String)
  /-- The arbiter should listen to events or stop doing so. -/
  | enable (on : Bool)
  /-- A consumer joins. -/
  | join (consumer : κ)
  /-- A consumer leaves. -/
  | leave (consumer : κ)
  /-- The arbiter should shut down. -/
  | dispose
  /-- The timer of a side has gone off. -/
  | goOff (side : Side)

/-- What a collaborator does when it is called. -/
structure Reaction (κ σ : Type) where
  /-- The world as it leaves it. -/
  outside : σ
  /-- The calls that it makes, in order; none after one that fails. -/
  calls : List (Call κ) := []
  /-- Why it failed after its calls, if it did. -/
  fault : Option Fault := none

/-- The collaborators of an arbiter in a world. -/
structure Host (δ κ σ : Type) where
  /-- The text that the document holds. -/
  text : σ → Except Fault String
  /-- Replaces the text of the document. -/
  replace : Arbiter δ κ → String → σ → Reaction κ σ
  /-- Shows a tree to a consumer. -/
  consume : κ → Arbiter δ κ → Forest → σ → Reaction κ σ
  /-- Reads a text. -/
  read : String → σ → Except Fault Document × σ
  /-- Writes a document as text. -/
  write : Document → σ → Except Fault String × σ
  /-- The timers. -/
  timers : Scheduler δ Side σ

/-- An arbiter and the world around it. -/
structure Session (δ κ σ : Type) where
  /-- The arbiter. -/
  arbiter : Arbiter δ κ
  /-- The world. -/
  outside : σ

/-- A session after an operation, and why the operation failed if it did. -/
abbrev Served (δ κ σ : Type) := Session δ κ σ × Option Fault

end WidgetSync
