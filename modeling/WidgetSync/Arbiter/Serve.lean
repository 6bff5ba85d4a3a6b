import WidgetSync.Arbiter.Host

/-!
# Serving Calls

What an arbiter does when it is called.

A failure of a collaborator never leaves the arbiter while it passes something
on: it is remembered, and the arbiter is idle again. A consumer that fails does
not keep the others from being told. Where no timer can be had, a change is
passed on at once.

Collaborators may call back, so serving a call may serve further calls inside.
The operations are defined for a given way to serve these inner calls, and
`serve` joins them up to a depth.

## Main definitions

* `Session.push`, `Session.writeTree`: Telling consumers and document.
* `Session.propagate`: Passing a side on.
* `Session.call`: An operation, given how inner calls are served.
* `Session.serve`: An operation.
-/

namespace WidgetSync

namespace Session

variable {δ κ σ : Type}

/-- The session with the arbiter changed. -/
def update (f : Arbiter δ κ → Arbiter δ κ) (s : Session δ κ σ) : Session δ κ σ :=
  { s with arbiter := f s.arbiter }

/-- The session in a phase. -/
def enter (phase : Phase) : Session δ κ σ → Session δ κ σ :=
  update fun a => { a with phase }

/-- The session after a failure that is remembered. -/
def remember (fault : Option Fault) : Session δ κ σ → Session δ κ σ :=
  update fun a => { a with lastFault := fault }

/-- The session with another text on which both sides are believed to agree. -/
def agreeOn (text : String) : Session δ κ σ → Session δ κ σ :=
  update fun a => { a with lastText := some text }

/-- The session with another tree that has not been written yet. -/
def setPending (nodes : Option Forest) : Session δ κ σ → Session δ κ σ :=
  update fun a => { a with pendingNodes := nodes }

/-- The arbiter is idle again; a failure is remembered. -/
def settle : Served δ κ σ → Session δ κ σ
  | (s, none) => s.enter .idle
  | (s, some fault) => (s.remember (some fault)).enter .idle

variable (host : Host δ κ σ)

/-- Stops the timer of a side. -/
def cancel (side : Side) (s : Session δ κ σ) : Session δ κ σ :=
  let (d, outside) := (s.arbiter.timer side).cancel host.timers s.outside
  ⟨s.arbiter.setTimer d side, outside⟩

/-- Stops both timers and drops what waits. -/
def cancelAll (s : Session δ κ σ) : Session δ κ σ :=
  setPending none (cancel host .tree (cancel host .text s))

variable (inner : Call κ → Session δ κ σ → Served δ κ σ)

/-- Serves calls until one fails. -/
def serveAll : List (Call κ) → Session δ κ σ → Served δ κ σ
  | [], s => (s, none)
  | c :: cs, s =>
    match inner c s with
    | (s, none) => serveAll cs s
    | stopped => stopped

/-- Lets a collaborator react. -/
def react (r : Reaction κ σ) (s : Session δ κ σ) : Served δ κ σ :=
  match serveAll inner r.calls { s with outside := r.outside } with
  | (s, none) => (s, r.fault)
  | stopped => stopped

/-- Shows a tree to a consumer. Its failure is remembered. -/
def showTo (nodes : Forest) (s : Session δ κ σ) (consumer : κ) : Session δ κ σ :=
  match react inner (host.consume consumer s.arbiter nodes s.outside) s with
  | (s, none) => s
  | (s, some fault) => s.remember (some fault)

/-- Shows a tree to all who are consumers now. -/
def push (nodes : Forest) (s : Session δ κ σ) : Session δ κ σ :=
  s.arbiter.consumers.foldl (showTo host inner nodes) s

/-- Reads a text as the current document and shows its tree. -/
def loadText (text : String) (s : Session δ κ σ) : Served δ κ σ :=
  match host.read text s.outside with
  | (.error fault, outside) => ({ s with outside }, some fault)
  | (.ok d, outside) =>
    let s := update (fun a => { a with nodes := d.nodes, window := d.window }) { s with outside }
    (push host inner d.nodes s, none)

/-- Writes a tree into the document. The text counts as agreed on before it is
    written, so that a late echo of it is no change. -/
def writeTree (nodes : Forest) (s : Session δ κ σ) : Served δ κ σ :=
  match host.write ⟨s.arbiter.window, nodes⟩ s.outside with
  | (.error fault, outside) => ({ s with outside }, some fault)
  | (.ok text, outside) =>
    let s := agreeOn text { s with outside }
    react inner (host.replace s.arbiter text s.outside) s

/-- Passes the text on, unless a newer change of the tree waits. -/
def propagateText (s : Session δ κ σ) : Session δ κ σ :=
  let a := s.arbiter
  if a.treeTimer.pending && a.textEvent < a.treeEvent then s
  else
    let s := enter .textToTree (setPending none (cancel host .tree s))
    match host.text s.outside with
    | .error fault => settle (s, some fault)
    | .ok text => settle (loadText host inner text (remember none (agreeOn text s)))

/-- Passes the tree on, unless a newer change of the text waits; then the tree is
    dropped. -/
def propagateTree (s : Session δ κ σ) : Session δ κ σ :=
  let a := s.arbiter
  if a.textTimer.pending && a.treeEvent < a.textEvent then setPending none s
  else
    let s := cancel host .text s
    match s.arbiter.pendingNodes with
    | none => s
    | some nodes =>
      let s := enter .treeToText (setPending none s)
      let s := remember none (update (fun a => { a with nodes }) s)
      settle (writeTree host inner nodes s)

/-- Passes a side on. -/
def propagate : Side → Session δ κ σ → Session δ κ σ
  | .text => propagateText host inner
  | .tree => propagateTree host inner

/-- Lets a side wait for further changes. Where no timer can be had, the side is
    passed on at once. -/
def schedule (side : Side) (s : Session δ κ σ) : Served δ κ σ :=
  let ((d, outside), fault) := (s.arbiter.timer side).schedule host.timers side () s.outside
  let s : Session δ κ σ := ⟨s.arbiter.setTimer d side, outside⟩
  match fault with
  | none => (s, none)
  | some (.refused _) => (propagate host inner side s, none)
  | some fault => (s, some fault)

/-- Passes a side on at once if it waits. -/
def flushSide (side : Side) (s : Session δ κ σ) : Session δ κ σ :=
  let ((d, outside), waiting) := (s.arbiter.timer side).flush host.timers s.outside
  let s : Session δ κ σ := ⟨s.arbiter.setTimer d side, outside⟩
  match waiting with
  | some () => propagate host inner side s
  | none => s

/-- Passes a side on now that its timer has gone off. -/
def goOff (side : Side) (s : Session δ κ σ) : Session δ κ σ :=
  let (d, waiting) := (s.arbiter.timer side).goOff
  let s := s.update fun a => a.setTimer d side
  match waiting with
  | some () => propagate host inner side s
  | none => s

/-- A text is new: it is remembered, and its side waits. -/
def acceptText (text : String) (s : Session δ κ σ) : Served δ κ σ :=
  if s.arbiter.lastText = some text then (s, none)
  else schedule host inner .text (update (·.count .text) (agreeOn text s))

/-- The text changed. While the tree is being written, that is no event. -/
def textChanged (text : Option String) (s : Session δ κ σ) : Served δ κ σ :=
  if !s.arbiter.listens || s.arbiter.phase = .treeToText then (s, none)
  else
    match text with
    | some text => acceptText host inner text s
    | none =>
      match host.text s.outside with
      | .error fault => (s, some fault)
      | .ok text => acceptText host inner text s

/-- The tree changed to another one: its side waits. -/
def acceptTree (nodes : Forest) (s : Session δ κ σ) : Served δ κ σ :=
  schedule host inner .tree (update (·.count .tree) (setPending (some nodes) s))

/-- The tree changed. While the text is being passed on, that is no event. A change
    that cannot be applied is remembered as a failure. -/
def treeChanged (change : Change) (s : Session δ κ σ) : Served δ κ σ :=
  if !s.arbiter.listens || s.arbiter.phase = .textToTree then (s, none)
  else
    match change.apply s.arbiter.base with
    | .error fault => (s.remember (some fault), none)
    | .ok (nodes, _) => acceptTree host inner nodes s

/-- The tree changed as a whole. If its ids cannot be settled, the tree waits as far
    as they could be. -/
def treeSent (nodes : Forest) (s : Session δ κ σ) : Served δ κ σ :=
  if !s.arbiter.listens || s.arbiter.phase = .textToTree then (s, none)
  else
    let assigned := Forest.assignIds nodes
    match assigned.fault with
    | some fault => ((setPending (some assigned.nodes) s).remember (some fault), none)
    | none => acceptTree host inner assigned.nodes s

/-- Passes the text on for the first time. -/
def start (s : Session δ κ σ) : Served δ κ σ :=
  let s := cancelAll host s
  match host.text s.outside with
  | .error fault => (s, some fault)
  | .ok text => (propagateText host inner (update (·.count .text) (agreeOn text s)), none)

/-- Passes on what waits. -/
def flush (s : Session δ κ σ) : Session δ κ σ :=
  flushSide host inner .tree (flushSide host inner .text s)

/-- Makes a tree the current one on both sides. -/
def loadTree (nodes : Forest) (window : Option Window) (s : Session δ κ σ) : Session δ κ σ :=
  let assigned := Forest.assignIds nodes
  let s := remember none (cancelAll host s)
  let s := s.update fun a => { a with nodes := assigned.nodes }
  match assigned.fault with
  | some fault => settle (s, some fault)
  | none =>
    let s := s.update fun a => { a with window := window.getD a.window }
    let s := enter .treeToText (push host inner s.arbiter.nodes (enter .textToTree s))
    settle (writeTree host inner s.arbiter.nodes s)

/-- Makes a text the current one on both sides. -/
def restore (text : String) (s : Session δ κ σ) : Session δ κ σ :=
  let s := enter .treeToText (remember none (cancelAll host s))
  let s := agreeOn text s
  match react inner (host.replace s.arbiter text s.outside) s with
  | (s, none) => settle (loadText host inner text (enter .textToTree s))
  | failed => settle failed

/-- Listens to events or stops doing so; then nothing waits any longer. -/
def enable (on : Bool) (s : Session δ κ σ) : Session δ κ σ :=
  let s := s.update fun a => { a with enabled := on }
  if on then s else cancelAll host s

/-- Shuts the arbiter down. -/
def dispose (s : Session δ κ σ) : Session δ κ σ :=
  (cancelAll host s).update fun a => { a with consumers := [], disposed := true }

variable [BEq κ]

/-- The session with one more consumer, unless it is one already. -/
def join (consumer : κ) : Session δ κ σ → Session δ κ σ :=
  update fun a =>
    if a.consumers.contains consumer then a
    else { a with consumers := a.consumers ++ [consumer] }

/-- The session without a consumer. -/
def leave (consumer : κ) : Session δ κ σ → Session δ κ σ :=
  update fun a => { a with consumers := a.consumers.erase consumer }

/-- Does what a call asks for, given how inner calls are served. -/
def call : Call κ → Session δ κ σ → Served δ κ σ
  | .textChanged text, s => textChanged host inner text s
  | .treeChanged change, s => treeChanged host inner change s
  | .treeSent nodes, s => treeSent host inner nodes s
  | .start, s => start host inner s
  | .flush, s => (flush host inner s, none)
  | .loadTree nodes window, s => (loadTree host inner nodes window s, none)
  | .restore text, s => (restore host inner text s, none)
  | .enable on, s => (enable host on s, none)
  | .join consumer, s => (s.join consumer, none)
  | .leave consumer, s => (s.leave consumer, none)
  | .dispose, s => (dispose host s, none)
  | .goOff side, s => (goOff host inner side s, none)

/-- Does what a call asks for, with calls inside calls no deeper than `depth`. -/
def serveWithin : Nat → Call κ → Session δ κ σ → Served δ κ σ
  | 0, _, s => (s, some (.refused "maximum recursion depth exceeded"))
  | depth + 1, c, s => call host (serveWithin depth) c s

/-- The greatest depth of calls inside calls. -/
def depthLimit : Nat := 200

/-- Does what a call asks for. -/
def serve (c : Call κ) (s : Session δ κ σ) : Served δ κ σ :=
  serveWithin host depthLimit c s

end Session

end WidgetSync
