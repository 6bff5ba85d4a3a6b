import WidgetSync.Node
import WidgetSync.Notice
import WidgetSync.Text.Case
import WidgetSync.Value.Kind

/-!
# Ids

Ids join the text to the tree, so every id has to be safe to write in a text and
different from all others.

An id is safe when it consists of basic letters, digits and underscores and does
not start with a digit. Making an id safe replaces every other character by an
underscore; making it unique puts a number behind it. Nodes without an id are
named after their type, with numbers counted through the whole forest.

## Main definitions

* `safeId`: A text as a safe id.
* `isSafeId`: The ids that need no change.
* `firstFree`: The first number whose name is not taken.
* `uniqueId`: An id that is not taken.
* `Forest.assignIds`: A forest with safe and unique ids.

## Theorems

* `safeId_of_isSafeId`: A safe id stays as it is.
-/

namespace WidgetSync

/-- The characters of a safe id: basic letters, digits and the underscore. -/
def isIdChar (c : Char) : Bool :=
  c.isAlphanum || c == '_'

/-- The text is a safe id. -/
def isSafeId (s : String) : Bool :=
  match s.toList with
  | [] => false
  | c :: cs => isIdChar c && !c.isDigit && cs.all isIdChar

/-- The text as a safe id. Every character that may not stand in one becomes an
    underscore, and an underscore goes before a leading digit or stands alone. -/
def safeId (s : String) : String :=
  match s.toList.map fun c => if isIdChar c then c else '_' with
  | [] => "_"
  | c :: cs => String.ofList (if c.isDigit then '_' :: c :: cs else c :: cs)

/-- A safe id stays as it is. -/
theorem safeId_of_isSafeId {s : String} (h : isSafeId s = true) : safeId s = s := by
  unfold isSafeId at h
  split at h
  · exact absurd h (by simp)
  · rename_i c cs hs
    simp only [Bool.and_eq_true, Bool.not_eq_true', List.all_eq_true] at h
    obtain ⟨⟨hc, hd⟩, hcs⟩ := h
    have hmap : (cs.map fun c => if isIdChar c = true then c else '_') = cs := by
      rw [List.map_congr_left (g := id) fun a ha => by simp [hcs a ha]]
      simp
    unfold safeId
    rw [hs]
    simp only [List.map_cons, hc, if_true, hmap, hd]
    rw [← hs]
    simp

/-- A value as a safe id. -/
def Value.safeId (v : Value) : String :=
  WidgetSync.safeId v.plain

/-- The first number from `n` on whose name is not taken, of at most `tries`
    numbers. As many tries as there are taken names always suffice for names that
    differ from number to number. -/
def firstFree (name : Nat → String) (taken : List String) : Nat → Nat → Nat
  | 0, n => n
  | tries + 1, n => if taken.contains (name n) then firstFree name taken tries (n + 1) else n

/-- The id itself if it is free, else the first free one with a number from two
    on behind it. -/
def uniqueId (candidate : String) (taken : List String) : String :=
  if taken.contains candidate then
    let name := fun n : Nat => s!"{candidate}_{n}"
    name (firstFree name taken taken.length 2)
  else candidate

/-- What the second pass of `assignIds` carries along. -/
structure Naming where
  /-- The last number given out. -/
  counter : Nat
  /-- The ids in use. -/
  taken : List String
  /-- Why a node could not be named, once that has happened. -/
  fault : Option Fault := none

/-- The name of a new node of a type, by number. -/
def typeName (type : String) (n : Nat) : String :=
  safeId (String.ofList (Text.lowerCase type.toList) ++ toString n)

namespace Forest

/-- The notice that an id was changed. -/
def renamed (old : Value) (new : String) : Notice :=
  ⟨.warning, "qmlsync.dom", s!"id {old.spelled} renamed to {quoted new}"⟩

/-- Makes the ids that are there safe and unique, in pre-order. -/
def settleIds (nodes : Forest) : (List String × List Notice) × Forest :=
  relabel (fun (taken, notices) n =>
    if !n.id.truth then ((taken, notices), n.id)
    else
      let unique := uniqueId n.id.safeId taken
      if n.id.same (.text unique) then ((taken ++ [unique], notices), n.id)
      else ((taken ++ [unique], notices ++ [renamed n.id unique]), .text unique)) ([], []) nodes

/-- Names the nodes without an id after their types, in pre-order. Naming stops at
    a node whose type is no text. -/
def nameNodes (taken : List String) (nodes : Forest) : Naming × Forest :=
  relabel (fun s n =>
    if n.id.truth || s.fault.isSome then (s, n.id)
    else
      match n.type.asText? with
      | none => ({ s with fault := some .lacking }, n.id)
      | some type =>
        let counter := firstFree (typeName type) s.taken s.taken.length (s.counter + 1)
        let id := typeName type counter
        ({ s with counter := counter, taken := s.taken ++ [id] }, .text id))
    { counter := 0, taken := taken } nodes

/-- A forest after ids were given out. -/
structure Assigned where
  /-- The forest; if giving out ids failed, as far as it went. -/
  nodes : Forest
  /-- The notices on changed ids. -/
  notices : List Notice
  /-- Why it failed. -/
  fault : Option Fault

/-- Makes every id of the forest safe and unique. Ids that are there are settled
    first, then the other nodes are named. -/
def assignIds (nodes : Forest) : Assigned :=
  let ((taken, notices), settled) := settleIds nodes
  let (naming, named) := nameNodes taken settled
  ⟨named, notices, naming.fault⟩

end Forest

namespace Node

/-- A new widget in the usual size of its type, with an id made safe. -/
def create (type id x y : Value) (properties : Fields) : Except Fault Node := do
  let (width, height) ← usualSize type
  return {
    type, x, y, properties
    id := .text (if id.truth then id.safeId else "")
    width := .int width
    height := .int height }

end Node

end WidgetSync
