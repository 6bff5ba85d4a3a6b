import WidgetSync.Arbiter.Clockwork
import WidgetSync.Format
import WidgetSync.Text.Replace
import WidgetSync.Timing.Delay

/-!
# Rehearsals

An arbiter among actors, to see what it does with a document and consumers of any
temper.

The document keeps a text and may fail to show or to take one. Asked to take a
text, it may echo it to the arbiter in several ways. Consumers write down the
trees they are shown, and then some of them fail, edit, type, leave, or interfere
with the arbiter. The timers are a clock moved by hand, or there are none.

## Main definitions

* `Rehearsal.Stage`: The document, the actors and the clock.
* `Rehearsal.host`: What the arbiter sees of them.
* `Rehearsal.Deed`: What can be done from outside.
* `Rehearsal.perform`: Doing it.
-/

namespace WidgetSync

namespace Rehearsal

/-- How the document echoes a text that it takes. -/
inductive Echo where
  /-- Not at all. -/
  | silent
  /-- It tells the arbiter the text. -/
  | text
  /-- It tells the arbiter that its text changed. -/
  | document
  /-- Once, it moves the first widget of the tree. -/
  | tree
deriving DecidableEq, Repr

/-- What a consumer does with a tree, having written it down. -/
inductive Temper where
  /-- Nothing. -/
  | quiet
  /-- It fails. -/
  | failing
  /-- It moves the first widget. -/
  | moving
  /-- It puts a text into the document. -/
  | typing
  /-- It leaves. -/
  | leaving
  /-- It stops the arbiter from listening. -/
  | disabling
  /-- It shuts the arbiter down. -/
  | disposing
  /-- It has what waits passed on. -/
  | flushing
deriving DecidableEq, Repr

/-- A consumer. -/
structure Actor where
  /-- Its name. -/
  name : String
  /-- What it does with a tree. -/
  temper : Temper := .quiet
  /-- The text that it types. -/
  text : String := ""
  /-- What it wrote down: the phase of the arbiter and the ids of the tree. -/
  notes : List (Phase × List Value) := []

/-- The document, the actors and the clock. -/
structure Stage where
  /-- The clock, if there are timers. -/
  clock : Option (Clock Float Side)
  /-- The text of the document. -/
  text : String
  /-- The document fails to show its text. -/
  hidesText : Bool := false
  /-- The document fails to take a text. -/
  refusesText : Bool := false
  /-- How many texts the document took. -/
  writes : Nat := 0
  /-- The phases of the arbiter when it took them. -/
  seen : List Phase := []
  /-- How the document echoes. -/
  echo : Echo := .silent
  /-- All consumers there ever were, in order of their first appearance. -/
  actors : List Actor := []

/-- The failure of the document. -/
def closed : Fault :=
  .unavailable "document closed"

/-- The actor of a name. -/
def Stage.actor (st : Stage) (name : String) : Actor :=
  (st.actors.find? fun a => a.name == name).getD { name }

/-- The stage with an actor changed. -/
def Stage.setActor (st : Stage) (actor : Actor) : Stage :=
  { st with actors := st.actors.map fun a => if a.name == actor.name then actor else a }

/-- The stage with an actor, unless there is one of its name. -/
def Stage.addActor (st : Stage) (actor : Actor) : Stage :=
  if st.actors.any fun a => a.name == actor.name then st
  else { st with actors := st.actors ++ [actor] }

/-- A change that moves the first widget of a forest. -/
def moveFirst (nodes : Forest) (x y : Int) : Option Change :=
  nodes.head?.map fun n => .move n.id (some (.int x)) (some (.int y))

/-- The document takes a text. -/
def replace (arbiter : Arbiter Value String) (text : String) (st : Stage) :
    Reaction String Stage :=
  if st.refusesText then { outside := st, fault := some closed }
  else
    let st := { st with text, writes := st.writes + 1, seen := st.seen ++ [arbiter.phase] }
    match st.echo with
    | .silent => { outside := st }
    | .text => { outside := st, calls := [.textChanged (some text)] }
    | .document => { outside := st, calls := [.textChanged none] }
    | .tree =>
      let st := { st with echo := .silent }
      match moveFirst arbiter.nodes 77 78 with
      | some change => { outside := st, calls := [.treeChanged change] }
      | none => { outside := st, fault := some .outOfRange }

/-- A consumer is shown a tree. -/
def consume (name : String) (arbiter : Arbiter Value String) (nodes : Forest) (st : Stage) :
    Reaction String Stage :=
  let actor := st.actor name
  let note := (arbiter.phase, (Forest.walk nodes).map (·.id))
  let st := st.setActor { actor with notes := actor.notes ++ [note] }
  match actor.temper with
  | .quiet => { outside := st }
  | .failing => { outside := st, fault := some (.refused s!"consumer {name}") }
  | .moving => { outside := st, calls := ((moveFirst nodes 1 1).map Call.treeChanged).toList }
  | .typing => { outside := { st with text := actor.text }, calls := [.textChanged none] }
  | .leaving => { outside := st, calls := [.leave name] }
  | .disabling => { outside := st, calls := [.enable false] }
  | .disposing => { outside := st, calls := [.dispose] }
  | .flushing => { outside := st, calls := [.flush] }

/-- Starts a timer at the clock. -/
def startTimer (delay : Value) (side : Side) (st : Stage) : Except Fault (Nat × Stage) :=
  match st.clock with
  | none => .error (.refused "no running event loop")
  | some clock => delay.delay.map fun t =>
      let (number, clock) := clock.after t side
      (number, { st with clock := some clock })

/-- Cancels a timer at the clock. -/
def cancelTimer (number : Nat) (st : Stage) : Stage :=
  { st with clock := st.clock.map (·.cancel number) }

/-- What the arbiter sees of the stage, with a format. -/
def host (settings : Settings) (format : Format) : Host Value String Stage where
  text st := if st.hidesText then .error closed else .ok st.text
  replace := replace
  consume := consume
  read text st := (.ok (format.read settings text).1, st)
  write d st := (format.write d, st)
  timers := { after := startTimer, cancel := cancelTimer }

/-- The arbiter on its stage. -/
abbrev Play := Session Value String Stage

/-- What can be done from outside. -/
inductive Deed where
  /-- The arbiter is called. -/
  | call (c : Call String)
  /-- The document gets a text, and nobody is told. -/
  | edit (text : String)
  /-- The document gets a text, and the arbiter is told the text. -/
  | type (text : String)
  /-- A part of the document's text is replaced, and the arbiter is told. -/
  | substitute (part new : String)
  /-- The clock is moved. -/
  | advance (span : Value)
  /-- The clock is moved until nothing waits. -/
  | runAll
  /-- An actor becomes a consumer. -/
  | join (actor : Actor)
  /-- An actor is one no longer. -/
  | leave (name : String)
  /-- The document echoes in another way. -/
  | echo (echo : Echo)
  /-- The document begins or ceases to fail. -/
  | fail (hides refuses : Bool)

/-- The play with its stage changed. -/
def onStage (f : Stage → Stage) (p : Play) : Play :=
  { p with outside := f p.outside }

/-- The clock on the stage. -/
def dial : Dial Float Stage where
  read st := st.clock.getD { now := 0.0 }
  set clock st := { st with clock := some clock }

/-- A deed that has a result, or failed. -/
abbrev Done := Play × Except Fault Value

/-- A deed without a result. -/
def done : Served Value String Stage → Done
  | (p, none) => (p, .ok .null)
  | (p, some fault) => (p, .error fault)

variable (settings : Settings) (format : Format)

/-- Moves the clock of a play, if it has one. -/
def moveClock (p : Play) (move : World Float Side Play → Movement Float Side Play) : Done :=
  if p.outside.clock.isNone then (p, .error .lacking)
  else
    let m := Session.moveClock dial move p
    match m.ending with
    | .failed fault => (m.world.rest, .error fault)
    | _ => (m.world.rest, .ok (.int m.ran.length))

/-- The greatest number of timers that go off in one movement of the clock. -/
def timerLimit : Nat := 100000

/-- Calls the arbiter. -/
def callArbiter (c : Call String) (p : Play) : Done :=
  done (Session.serve (host settings format) c p)

/-- Does a deed. -/
def perform (deed : Deed) (p : Play) : Done :=
  match deed with
  | .call c => callArbiter settings format c p
  | .edit text => (onStage (fun st => { st with text }) p, .ok .null)
  | .type text =>
    callArbiter settings format (.textChanged (some text))
      (onStage (fun st => { st with text }) p)
  | .substitute part new =>
    let replaced := Text.replaceAll part.toList new.toList p.outside.text.toList
    callArbiter settings format (.textChanged none)
      (onStage (fun st => { st with text := String.ofList replaced }) p)
  | .advance span =>
    match p.outside.clock, span.seconds with
    | some _, .error fault => (p, .error fault)
    | _, seconds =>
      moveClock p
        (Clock.advance (Session.goOffAt (host settings format) dial) timerLimit
          (seconds.toOption.getD 0.0))
  | .runAll =>
    moveClock p
      (Clock.runAll (Session.goOffAt (host settings format) dial) timerLimit timerLimit)
  | .join actor =>
    callArbiter settings format (.join actor.name) (onStage (·.addActor actor) p)
  | .leave name =>
    callArbiter settings format (.leave name) (onStage (·.addActor { name }) p)
  | .echo echo => (onStage (fun st => { st with echo }) p, .ok .null)
  | .fail hides refuses =>
    (onStage (fun st => { st with hidesText := hides, refusesText := refuses }) p, .ok .null)

/-- The play before the first deed. -/
def opening (delay : Value) (clock : Bool) (text : String) (echo : Echo) (actors : List Actor) :
    Play where
  arbiter := .fresh (.usual settings) delay (actors.map (·.name))
  outside :=
    actors.foldl Stage.addActor
      { clock := if clock then some { now := 0.0 } else none, text, echo }

/-- The delay that the settings name, in seconds. -/
def usualDelay (settings : Settings) : Except Fault Value :=
  match Decimal.ofInteger? settings.debounceMs with
  | some ms => .ok (.float (ms / 1000.0))
  | none => .error .overflow

end Rehearsal

end WidgetSync
