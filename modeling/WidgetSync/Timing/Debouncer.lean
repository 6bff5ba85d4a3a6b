import WidgetSync.Fault

/-!
# Debouncing

Of a burst of callbacks only the last one runs, some time after the burst.

A debouncer asks a scheduler for a timer and remembers the callback that should
run when the timer goes off. A new callback cancels the timer of the former one
and starts its own. Whether a scheduler is a clock moved by hand or a service of
a host does not matter: it starts timers, which it may refuse, and cancels them.

The debouncer never runs a callback itself. Where one is to run, the operation
answers with it.

## Main definitions

* `Scheduler`: A service that runs actions later.
* `Debouncer`: A delay, and the callback that waits.
* `Debouncer.schedule`, `Debouncer.cancel`, `Debouncer.flush`, `Debouncer.goOff`: Its
  operations.
-/

namespace WidgetSync

/-- A service that runs actions of a type later, in a world of another. -/
structure Scheduler (δ α ω : Type) where
  /-- Starts a timer for an action and answers with its number. -/
  after : δ → α → ω → Except Fault (Nat × ω)
  /-- Cancels a timer. -/
  cancel : Nat → ω → ω

/-- A delay, and the callback that waits. -/
structure Debouncer (δ κ : Type) where
  /-- How long a callback waits for a newer one. -/
  delay : δ
  /-- The callback that waits and the number of its timer. -/
  waiting : Option (Nat × κ) := none

namespace Debouncer

variable {δ κ α ω : Type}

/-- A callback waits. -/
def pending (d : Debouncer δ κ) : Bool :=
  d.waiting.isSome

/-- The debouncer without a callback. -/
def idle (d : Debouncer δ κ) : Debouncer δ κ :=
  { d with waiting := none }

/-- Forgets the callback that waits and cancels its timer. -/
def cancel (s : Scheduler δ α ω) (d : Debouncer δ κ) (w : ω) : Debouncer δ κ × ω :=
  match d.waiting with
  | some (number, _) => (d.idle, s.cancel number w)
  | none => (d, w)

/-- Lets a callback wait in place of the former one. The action is what the timer
    will do. If the scheduler refuses, no callback waits. -/
def schedule (s : Scheduler δ α ω) (action : α) (callback : κ) (d : Debouncer δ κ) (w : ω) :
    (Debouncer δ κ × ω) × Option Fault :=
  let (d, w) := d.cancel s w
  match s.after d.delay action w with
  | .ok (number, w) => (({ d with waiting := some (number, callback) }, w), none)
  | .error fault => ((d, w), some fault)

/-- The callback that should run now that its timer has gone off. -/
def goOff (d : Debouncer δ κ) : Debouncer δ κ × Option κ :=
  (d.idle, d.waiting.map (·.2))

/-- The callback that should run at once instead of later, if one waits. -/
def flush (s : Scheduler δ α ω) (d : Debouncer δ κ) (w : ω) : (Debouncer δ κ × ω) × Option κ :=
  (d.cancel s w, d.waiting.map (·.2))

end Debouncer

end WidgetSync
