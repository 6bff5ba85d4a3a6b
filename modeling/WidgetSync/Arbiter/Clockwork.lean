import WidgetSync.Arbiter.Serve
import WidgetSync.Timing.Clock

/-!
# Clockwork

An arbiter whose timers are a clock moved by hand.

The clock is a part of the arbiter's world, and a dial says where. To be moved, the
clock is taken out of the world. A timer that goes off puts it back, set to the time of
the timer, before the arbiter hears of it, and takes it out again afterwards with
the timers that the arbiter has started and cancelled.

## Main definitions

* `Dial`: Where the clock of a world is.
* `Session.goOffAt`: A timer goes off.
* `Session.moveClock`, `Session.advance`: Moving the clock.
-/

namespace WidgetSync

/-- Where the clock of a world is. -/
structure Dial (τ σ : Type) where
  /-- The clock. -/
  read : σ → Clock τ Side
  /-- The world with another clock. -/
  set : Clock τ Side → σ → σ

namespace Session

variable {δ κ σ τ : Type}

/-- The session with another clock in its world. -/
def setClock (dial : Dial τ σ) (clock : Clock τ Side) (s : Session δ κ σ) : Session δ κ σ :=
  { s with outside := dial.set clock s.outside }

/-- Moves the clock of a session. -/
def moveClock (dial : Dial τ σ)
    (move : World τ Side (Session δ κ σ) → Movement τ Side (Session δ κ σ))
    (s : Session δ κ σ) : Movement τ Side (Session δ κ σ) :=
  let m := move ⟨dial.read s.outside, s⟩
  { m with world := { m.world with rest := setClock dial m.world.clock m.world.rest } }

variable [BEq κ] (host : Host δ κ σ) (dial : Dial τ σ)

/-- The timer of a side goes off, in a world that shows the clock. -/
def goOffAt (side : Side) (w : World τ Side (Session δ κ σ)) :
    World τ Side (Session δ κ σ) × Option Fault :=
  let (s, fault) := serve host (.goOff side) (setClock dial w.clock w.rest)
  (⟨dial.read s.outside, s⟩, fault)

variable [Add τ] [LE τ] [DecidableLE τ]

/-- The session when its clock has been moved by a length of time. -/
def advance (fuel : Nat) (span : τ) (s : Session δ κ σ) : Session δ κ σ :=
  (moveClock dial (Clock.advance (goOffAt host dial) fuel span) s).world.rest

end Session

end WidgetSync
