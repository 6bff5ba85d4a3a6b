import WidgetSync.Table
import WidgetSync.Timing.Clock
import WidgetSync.Timing.Debouncer
import WidgetSync.Timing.Delay

/-!
# Timer Scripts

Timers and debouncers put to work by a script.

A script is a list of steps on a stage: calls that run later, cancellations,
movements of the clock, debouncers. A callback is written as data too. When it
runs it leaves an entry in the log, and then it fails or performs steps of its
own. The same script can be given to any of the timer services: the clock, a
service of a host that counts thousandths of a second, an event loop, or an
event loop that is not there.

## Main definitions

* `Script.Step`, `Script.Callback`: Scripts.
* `Script.Service`: The timer services.
* `Script.Stage`: What a script works on.
* `Script.perform`: A step.
-/

namespace WidgetSync

namespace Script

/-- A step of a script. -/
inductive Step where
  /-- Runs a callback after a delay. The callback has a name, and fails or performs
      steps. -/
  | call (name : String) (delay : Value) (fails : Bool) (steps : List Step)
  /-- Cancels the last call of a name. -/
  | cancel (name : String)
  /-- Moves the clock. -/
  | advance (span : Value)
  /-- Moves the clock until nothing waits. -/
  | runAll
  /-- Lets the timer of a number go off. -/
  | goOff (number : Nat)
  /-- Sets up a debouncer. -/
  | debouncer (name : String) (delay : Value)
  /-- Lets a callback wait at a debouncer. -/
  | schedule (debouncer name : String) (fails : Bool) (steps : List Step)
  /-- Forgets what waits at a debouncer. -/
  | drop (debouncer : String)
  /-- Runs at once what waits at a debouncer. -/
  | flush (debouncer : String)

/-- A callback: it logs its name, then it fails or performs steps. -/
structure Callback where
  /-- Its name. -/
  name : String
  /-- It fails. -/
  fails : Bool
  /-- The steps that it performs if it does not fail. -/
  steps : List Step

/-- What a timer does. -/
inductive Job where
  /-- Runs a callback. -/
  | callback (c : Callback)
  /-- Runs what waits at a debouncer, by its number. -/
  | debounced (place : Nat)

/-- The timer services. -/
inductive Service where
  /-- The clock that is moved by hand. -/
  | clock
  /-- A service of a host that counts whole thousandths of a second. -/
  | milliseconds
  /-- An event loop, which takes delays as they are. -/
  | eventLoop
  /-- No event loop is running. -/
  | absent
deriving DecidableEq, Repr

/-- What a host's timer service was asked to do. -/
inductive Request where
  /-- Start a timer. -/
  | after (number : Nat) (delay : Value)
  /-- Cancel a timer. -/
  | cancel (number : Nat)

/-- What a script works on, beside the clock. -/
structure Stage where
  /-- The timer service in use. -/
  service : Service
  /-- The timers of the host that have not gone off. -/
  timers : List (Nat × Job) := []
  /-- The number of timers that the host has started. -/
  started : Nat := 0
  /-- What the host was asked to do. -/
  requests : List Request := []
  /-- The debouncers, in the order in which they were set up. -/
  debouncers : List (Debouncer Value Callback) := []
  /-- The numbers of the debouncers by name. -/
  names : Table Nat := []
  /-- The numbers of the last timers by name of the call. -/
  handles : Table Nat := []
  /-- The callbacks that ran, with the time at the clock. -/
  log : List (String × Float) := []

/-- The clock and the stage. -/
abbrev Scene := World Float Job Stage

/-- The stage after its host has started a timer. -/
def Stage.start (s : Stage) (delay : Value) (job : Job) : Nat × Stage :=
  let number := s.started + 1
  (number,
   { s with
     started := number
     timers := s.timers ++ [(number, job)]
     requests := s.requests ++ [.after number delay] })

/-- The stage without a timer of its host. -/
def Stage.stop (s : Stage) (number : Nat) : Stage :=
  { s with timers := s.timers.filter fun t => t.1 != number }

/-- Starts a timer at the service in use. -/
def startTimer (delay : Value) (job : Job) (w : Scene) : Except Fault (Nat × Scene) :=
  match w.rest.service with
  | .clock => delay.delay.map fun t =>
      let (number, clock) := w.clock.after t job
      (number, { w with clock })
  | .milliseconds => delay.milliseconds.map fun ms =>
      let (number, rest) := w.rest.start (.int ms) job
      (number, { w with rest })
  | .eventLoop =>
    let (number, rest) := w.rest.start delay job
    .ok (number, { w with rest })
  | .absent => .error (.refused "no running event loop")

/-- Cancels a timer at the service in use. -/
def cancelTimer (number : Nat) (w : Scene) : Scene :=
  match w.rest.service with
  | .clock => { w with clock := w.clock.cancel number }
  | _ =>
    let rest := w.rest.stop number
    { w with rest := { rest with requests := rest.requests ++ [.cancel number] } }

/-- The service in use. -/
def scheduler : Scheduler Value Job Scene where
  after := startTimer
  cancel := cancelTimer

/-- A performance: what it leaves behind, and its result or why it failed. -/
abbrev Performance := Scene × Except Fault Value

/-- Performs steps until one fails. -/
def performAll (perform : Step → Scene → Performance) : List Step → Scene → Scene × Option Fault
  | [], w => (w, none)
  | s :: ss, w =>
    match perform s w with
    | (w, .ok _) => performAll perform ss w
    | (w, .error fault) => (w, some fault)

/-- Runs a callback. -/
def runCallback (perform : Step → Scene → Performance) (c : Callback) (w : Scene) :
    Scene × Option Fault :=
  let w := { w with rest := { w.rest with log := w.rest.log ++ [(c.name, w.clock.now)] } }
  if c.fails then (w, some (.refused s!"callback {c.name}"))
  else performAll perform c.steps w

/-- Runs a callback if there is one. -/
def runCallback? (perform : Step → Scene → Performance) (c : Option Callback) (w : Scene) :
    Scene × Option Fault :=
  match c with
  | some c => runCallback perform c w
  | none => (w, none)

/-- The scene with a debouncer changed. -/
def setDebouncer (place : Nat) (d : Debouncer Value Callback) (w : Scene) : Scene :=
  { w with rest := { w.rest with debouncers := w.rest.debouncers.set place d } }

/-- Does what a timer does when it goes off. -/
def runJob (perform : Step → Scene → Performance) (job : Job) (w : Scene) :
    Scene × Option Fault :=
  match job with
  | .callback c => runCallback perform c w
  | .debounced place =>
    match w.rest.debouncers[place]? with
    | none => (w, none)
    | some d =>
      let (d, c) := d.goOff
      runCallback? perform c (setDebouncer place d w)

/-- A performance from what was left behind and a fault or a result. -/
def ended (result : Value) : Scene × Option Fault → Performance
  | (w, none) => (w, .ok result)
  | (w, some fault) => (w, .error fault)

/-- A performance from a movement of the clock. -/
def moved (m : Movement Float Job Stage) : Performance :=
  match m.ending with
  | .failed fault => (m.world, .error fault)
  | _ => (m.world, .ok (.int m.ran.length))

/-- The greatest number of callbacks of one movement of the clock. -/
def callbackLimit : Nat := 1000000

/-- The number of a debouncer and the debouncer. -/
def debouncer? (w : Scene) (name : String) : Option (Nat × Debouncer Value Callback) :=
  (w.rest.names.get? name).bind fun place =>
    (w.rest.debouncers[place]?).map fun d => (place, d)

/-- Performs a step, given how the steps of callbacks are performed. -/
def performWith (perform : Step → Scene → Performance) (step : Step) (w : Scene) : Performance :=
  match step with
  | .call name delay fails steps =>
    match scheduler.after delay (.callback ⟨name, fails, steps⟩) w with
    | .error fault => (w, .error fault)
    | .ok (number, w) =>
      ({ w with rest := { w.rest with handles := w.rest.handles.set name number } }, .ok .null)
  | .cancel name =>
    match w.rest.handles.get? name with
    | some number => (scheduler.cancel number w, .ok .null)
    | none => (w, .ok .null)
  | .advance span =>
    match span.seconds with
    | .ok t => moved (Clock.advance (runJob perform) callbackLimit t w)
    | .error fault => (w, .error fault)
  | .runAll => moved (Clock.runAll (runJob perform) callbackLimit callbackLimit w)
  | .goOff number =>
    match w.rest.timers.find? fun t => t.1 == number with
    | some (_, job) =>
      ended .null (runJob perform job { w with rest := w.rest.stop number })
    | none => (w, .ok .null)
  | .debouncer name delay =>
    let place := w.rest.debouncers.length
    ({ w with
       rest := { w.rest with
         debouncers := w.rest.debouncers ++ [{ delay }]
         names := w.rest.names.set name place } },
     .ok .null)
  | .schedule name callback fails steps =>
    match debouncer? w name with
    | none => (w, .ok .null)
    | some (place, d) =>
      let ((d, w), fault) :=
        d.schedule scheduler (.debounced place) ⟨callback, fails, steps⟩ w
      ended .null (setDebouncer place d w, fault)
  | .drop name =>
    match debouncer? w name with
    | none => (w, .ok .null)
    | some (place, d) =>
      let (d, w) := d.cancel scheduler w
      (setDebouncer place d w, .ok .null)
  | .flush name =>
    match debouncer? w name with
    | none => (w, .ok (.bool false))
    | some (place, d) =>
      let ((d, w), c) := d.flush scheduler w
      ended (.bool c.isSome) (runCallback? perform c (setDebouncer place d w))

/-- Performs a step in which callbacks perform steps no deeper than `depth`. -/
def performWithin : Nat → Step → Scene → Performance
  | 0, _, w => (w, .error (.refused "maximum recursion depth exceeded"))
  | depth + 1, step, w => performWith (performWithin depth) step w

/-- The greatest depth to which callbacks run inside callbacks. -/
def depthLimit : Nat := 1000

/-- Performs a step. -/
def perform (step : Step) (w : Scene) : Performance :=
  performWithin depthLimit step w

/-- The scene before a script. -/
def opening (service : Service) : Scene where
  clock := { now := 0.0 }
  rest := { service }

end Script

end WidgetSync
