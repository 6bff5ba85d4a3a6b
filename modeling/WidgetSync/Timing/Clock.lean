import WidgetSync.Fault

/-!
# A Clock Moved by Hand

Callbacks that wait for their time, and a clock that moves only when told to.

Moving the clock runs every callback that becomes due, the earliest first and of
those due together the one that was scheduled first. While a callback runs, the
clock shows its time. A callback may schedule and cancel others; what it
schedules runs too if it is due within the same movement. A callback that fails
stops the movement where it is.

The clock does not know what its callbacks do. It is part of a world whose other
part belongs to them, and running a callback is a function on that world. Times
are of any type with an addition and an order, so that a clock can be exact or
made of doubles.

## Main definitions

* `Waiting`: A callback that waits.
* `Clock`: The time and the callbacks that wait.
* `Clock.after`, `Clock.cancel`: Scheduling.
* `Clock.take?`: The next callback that is due.
* `Clock.drain`, `Clock.advance`, `Clock.runAll`: Moving the clock.
-/

namespace WidgetSync

/-- A callback that waits for its time. -/
structure Waiting (τ α : Type) where
  /-- When it is due. -/
  deadline : τ
  /-- The number under which it was scheduled; later ones have greater numbers. -/
  number : Nat
  /-- What runs then. -/
  action : α
deriving Repr

/-- The time and the callbacks that wait. -/
structure Clock (τ α : Type) where
  /-- The time. -/
  now : τ
  /-- The callbacks that wait, in the order in which they were scheduled. -/
  queue : List (Waiting τ α) := []
  /-- The number for the next callback. -/
  next : Nat := 0
deriving Repr

/-- A clock and what its callbacks work on. -/
structure World (τ α σ : Type) where
  /-- The clock. -/
  clock : Clock τ α
  /-- Everything else. -/
  rest : σ

/-- How a movement of the clock ended. -/
inductive Ending where
  /-- Nothing more is due. -/
  | done
  /-- A callback failed. -/
  | failed (fault : Fault)
  /-- The movement was cut short. -/
  | unfinished
deriving DecidableEq, Repr

/-- A movement of the clock. -/
structure Movement (τ α σ : Type) where
  /-- The world after it. -/
  world : World τ α σ
  /-- The callbacks that ran, in order. -/
  ran : List (Waiting τ α)
  /-- How it ended. -/
  ending : Ending

namespace Clock

variable {τ α σ : Type}

/-- The number of callbacks that wait. -/
def pending (c : Clock τ α) : Nat :=
  c.queue.length

/-- The clock without a callback, by number. -/
def cancel (c : Clock τ α) (number : Nat) : Clock τ α :=
  { c with queue := c.queue.filter fun w => w.number != number }

variable [Add τ] [Sub τ] [OfNat τ 0] [LT τ] [DecidableLT τ] [LE τ] [DecidableLE τ]

/-- A length of time, where below zero counts as zero. -/
def notNegative (t : τ) : τ :=
  if 0 < t then t else 0

/-- The clock with a callback that is due after a delay, and its number. -/
def after (c : Clock τ α) (delay : τ) (action : α) : Nat × Clock τ α :=
  (c.next,
   { c with
     queue := c.queue ++ [⟨c.now + notNegative delay, c.next, action⟩]
     next := c.next + 1 })

/-- The callback that is due first, up to a time; of several the one that was
    scheduled first. -/
def earliest? (target : τ) : List (Waiting τ α) → Option (Waiting τ α)
  | [] => none
  | w :: ws =>
    match earliest? target ws with
    | none => if w.deadline ≤ target then some w else none
    | some best =>
      if w.deadline ≤ target ∧ w.deadline ≤ best.deadline then some w else some best

/-- The next callback that is due up to a time, and the clock at its time without
    it. -/
def take? (c : Clock τ α) (target : τ) : Option (Waiting τ α × Clock τ α) :=
  (earliest? target c.queue).map fun w => (w, { c.cancel w.number with now := w.deadline })

/-- Runs callbacks until none is due up to a time, then shows that time. No more than
    `fuel` callbacks are run. -/
def drain (run : α → World τ α σ → World τ α σ × Option Fault) (target : τ) :
    Nat → World τ α σ → Movement τ α σ
  | fuel, w =>
    match w.clock.take? target with
    | none => ⟨{ w with clock := { w.clock with now := target } }, [], .done⟩
    | some (waiting, clock) =>
      match fuel with
      | 0 => ⟨w, [], .unfinished⟩
      | fuel + 1 =>
        match run waiting.action { w with clock } with
        | (w, some fault) => ⟨w, [waiting], .failed fault⟩
        | (w, none) =>
          let others := drain run target fuel w
          { others with ran := waiting :: others.ran }

/-- Moves the clock by a length of time. -/
def advance (run : α → World τ α σ → World τ α σ × Option Fault) (fuel : Nat) (span : τ)
    (w : World τ α σ) : Movement τ α σ :=
  drain run (w.clock.now + span) fuel w

/-- The latest time at which a callback is due. -/
def latest? (c : Clock τ α) : Option τ :=
  match c.queue with
  | [] => none
  | w :: ws => some (ws.foldl (fun t v => if t < v.deadline then v.deadline else t) w.deadline)

/-- Moves the clock until no callback waits, as far as that takes. The clock is moved
    no more than `rounds` times. -/
def runAll (run : α → World τ α σ → World τ α σ × Option Fault) (fuel : Nat) :
    Nat → World τ α σ → Movement τ α σ
  | rounds, w =>
    match w.clock.latest? with
    | none => ⟨w, [], .done⟩
    | some latest =>
      match rounds with
      | 0 => ⟨w, [], .unfinished⟩
      | rounds + 1 =>
        let first := advance run fuel (notNegative (latest - w.clock.now)) w
        match first.ending with
        | .done =>
          let others := runAll run fuel rounds first.world
          { others with ran := first.ran ++ others.ran }
        | _ => first

end Clock

end WidgetSync
