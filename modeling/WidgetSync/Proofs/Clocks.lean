import WidgetSync.Arbiter.Rehearsal
import WidgetSync.Proofs.Timers

/-!
# Clocks as Rosters

A clock moved by hand keeps a roster of timers.

The timers that run are the callbacks that wait in the clock, under their numbers. So
whatever is true of all that may happen to an arbiter is true when its clock is
moved: each callback that runs is a timer that goes off, and then time passes. The
rehearsal's clock is such a clock, whoever is on the stage.

## Main definitions

* `Dial.roster`: The callbacks that wait, as a roster.
* `Host.Clocked`: Timers are callbacks of a clock that nobody else touches.

## Theorems

* `Host.Clocked.timed`: Such a clock is a service of timers.
* `Clock.earliest?_cons_cases`: Which callback is taken.
* `Clock.earliest?_mem`, `Clock.take?_spec`: A callback that is taken has waited.
* `Clock.drain_keeps`: What time and callbacks keep, moving the clock keeps.
* `Session.Leads.drain`, `Session.Leads.advance`: Moving the clock is something that may
  happen.
* `Rehearsal.host_clocked`: The rehearsal has such a clock.
-/

namespace WidgetSync

variable {δ κ σ τ : Type}

/-- The callbacks of a clock that wait, by number. -/
def Dial.roster (dial : Dial τ σ) : Roster σ where
  running w := (dial.read w).queue.map fun waiting => (waiting.number, waiting.action)
  next w := (dial.read w).next

/-- A reaction that does not touch the clock. -/
structure Reaction.Unclocked (dial : Dial τ σ) (w : σ) (r : Reaction κ σ) : Prop where
  clock : dial.read r.outside = dial.read w
  calls : ∀ c ∈ r.calls, c.Asked

/-- Where the clock is the same, the same timers run. -/
theorem Dial.same_roster {dial : Dial τ σ} {w w' : σ} (h : dial.read w' = dial.read w) :
    dial.roster.Same w w' where
  running := by simp only [roster, h]
  next := by simp only [roster, h, Nat.le_refl]

theorem Reaction.Unclocked.spares {dial : Dial τ σ} {w : σ}
    {r : Reaction κ σ} (h : r.Unclocked dial w) :
    r.Spares dial.roster w :=
  ⟨Dial.same_roster h.clock, h.calls⟩

/-- A callback that is taken out of the queue is struck out of the roster. -/
theorem Dial.roster_cancel (queue : List (Waiting τ Side)) (number : Nat) :
    (queue.filter fun w => w.number != number).map (fun w => (w.number, w.action))
      = (queue.map fun w => (w.number, w.action)).filter fun timer => timer.1 != number := by
  rw [List.filter_map]
  rfl

namespace Clock

variable {α : Type} [LE τ] [DecidableLE τ]

/-- What can be taken is the first callback, if it is due and no other that is due comes
    before it, or else it is what can be taken of the others. -/
theorem earliest?_cons_cases {target : τ} {queue : List (Waiting τ α)} {first w : Waiting τ α}
    (h : earliest? target (first :: queue) = some w) :
    (w = first ∧ first.deadline ≤ target ∧
        ∀ best, earliest? target queue = some best → first.deadline ≤ best.deadline) ∨
      earliest? target queue = some w ∧
        ¬ (first.deadline ≤ target ∧ first.deadline ≤ w.deadline) := by
  rw [earliest?] at h
  cases hrest : earliest? target queue with
  | none =>
      simp only [hrest, Option.ite_none_right_eq_some, Option.some.injEq] at h
      exact .inl ⟨h.2.symm, h.1, fun best hbest => absurd hbest.symm (Option.some_ne_none _)⟩
  | some best =>
      simp only [hrest] at h
      split at h
      · rename_i hdue
        exact .inl ⟨(Option.some.inj h).symm, hdue.1, fun best' hbest =>
          Option.some.inj hbest ▸ hdue.2⟩
      · rename_i hlate
        exact .inr ⟨h, Option.some.inj h ▸ hlate⟩

theorem earliest?_mem {target : τ} {queue : List (Waiting τ α)} {w : Waiting τ α}
    (h : earliest? target queue = some w) : w ∈ queue := by
  induction queue with
  | nil => exact nomatch h
  | cons first queue ih =>
      rcases earliest?_cons_cases h with ⟨rfl, -, -⟩ | ⟨h, -⟩
      · exact List.mem_cons_self
      · exact List.mem_cons_of_mem _ (ih h)

/-- A callback that is taken has waited, and the clock shows its time without it. -/
theorem take?_spec {clock clock' : Clock τ α} {target : τ} {w : Waiting τ α}
    (h : clock.take? target = some (w, clock')) :
    w ∈ clock.queue ∧ clock' = { clock.cancel w.number with now := w.deadline } := by
  rw [take?, Option.map_eq_some_iff] at h
  rcases h with ⟨w', hearliest, hpair⟩
  rcases Prod.mk.inj hpair with ⟨rfl, rfl⟩
  exact ⟨earliest?_mem hearliest, rfl⟩

variable {run : α → World τ α σ → World τ α σ × Option Fault} {target : τ} {w w' : World τ α σ}
  {waiting : Waiting τ α} {clock : Clock τ α}

/-- Where nothing is due any longer, time passes. -/
theorem drain_of_none (fuel : Nat) (h : w.clock.take? target = none) :
    drain run target fuel w = ⟨{ w with clock := { w.clock with now := target } }, [], .done⟩ := by
  unfold drain
  rw [h]

/-- Without fuel, nothing that is due can run. -/
theorem drain_zero_of_some (h : w.clock.take? target = some (waiting, clock)) :
    drain run target 0 w = ⟨w, [], .unfinished⟩ := by
  rw [drain, h]

/-- Where something is due, it runs. -/
theorem drain_succ_of_some (fuel : Nat) (h : w.clock.take? target = some (waiting, clock))
    (hrun : run waiting.action { w with clock } = (w', none)) :
    drain run target (fuel + 1) w =
      { drain run target fuel w' with ran := waiting :: (drain run target fuel w').ran } := by
  rw [drain, h]
  simp only [hrun]

/-- What holds of a world, holds again when time has passed and when a callback that was due
    has run, holds when the clock has been moved, however that ended. -/
theorem drain_keeps {P : World τ α σ → Prop}
    (hpass : ∀ w, P w → w.clock.take? target = none →
      P { w with clock := { w.clock with now := target } })
    (hrun : ∀ w waiting clock, P w → w.clock.take? target = some (waiting, clock) →
      P (run waiting.action { w with clock }).1)
    (fuel : Nat) (hw : P w) : P (drain run target fuel w).world := by
  induction fuel generalizing w with
  | zero =>
      cases htake : w.clock.take? target with
      | none =>
          rw [drain_of_none 0 htake]
          exact hpass w hw htake
      | some taken =>
          rw [drain_zero_of_some htake]
          exact hw
  | succ fuel ih =>
      cases htake : w.clock.take? target with
      | none =>
          rw [drain_of_none (fuel + 1) htake]
          exact hpass w hw htake
      | some taken =>
          have hran := hrun w taken.1 taken.2 hw htake
          rw [drain, htake]
          dsimp only
          generalize run taken.1.action { w with clock := taken.2 } = after at hran ⊢
          rcases after with ⟨w', fault⟩
          cases fault with
          | none => exact ih hran
          -- A failure stops the clock where it is.
          | some fault => exact hran

end Clock

section Clocked

variable [Add τ] [OfNat τ 0] [LT τ] [DecidableLT τ]

/-- Collaborators among which timers are callbacks of a clock, with one delay, and nobody
    else touches the clock. -/
structure Host.Clocked (host : Host δ κ σ) (dial : Dial τ σ) (delay : δ) (span : τ) : Prop where
  /-- A clock that is put into the world is there. -/
  read_set : ∀ clock w, dial.read (dial.set clock w) = clock
  /-- A timer that is started is a callback of the clock. -/
  after : ∀ side w number w', host.timers.after delay side w = .ok (number, w') →
    (number, dial.read w') = (dial.read w).after span side
  /-- A timer that is cancelled is a callback that does not wait. -/
  cancel : ∀ number w, dial.read (host.timers.cancel number w) = (dial.read w).cancel number
  /-- The document does not touch the clock. -/
  replace : ∀ arbiter text w, (host.replace arbiter text w).Unclocked dial w
  /-- Neither do the consumers. -/
  consume : ∀ consumer arbiter nodes w, (host.consume consumer arbiter nodes w).Unclocked dial w
  /-- Neither does the format. -/
  read : ∀ text w, dial.read (host.read text w).2 = dial.read w
  write : ∀ d w, dial.read (host.write d w).2 = dial.read w

variable {host : Host δ κ σ} {dial : Dial τ σ} {delay : δ} {span : τ}

/-- A clock that nobody else touches is a service of timers. -/
theorem Host.Clocked.timed (h : host.Clocked dial delay span) :
    host.Timed dial.roster delay where
  after side w number w' hafter := by
    rcases Prod.mk.inj (h.after side w number w' hafter) with ⟨rfl, hclock⟩
    simp only [Dial.roster, hclock, List.map_append, List.map_cons, List.map_nil]
    exact ⟨trivial, Nat.le_refl _, Nat.lt_succ_self _⟩
  cancel number w := by
    simp only [Dial.roster, h.cancel]
    exact ⟨Dial.roster_cancel _ number, Nat.le_refl _⟩
  replace arbiter text w := (h.replace arbiter text w).spares
  consume consumer arbiter nodes w := (h.consume consumer arbiter nodes w).spares
  read text w := Dial.same_roster (h.read text w)
  write d w := Dial.same_roster (h.write d w)

namespace Session

variable [BEq κ] {s t : Session δ κ σ} {ran : List Nat}

/-- The clock shows another time, while the same callbacks wait. -/
theorem Leads.setClock (h : host.Clocked dial delay span)
    (hleads : Leads host dial.roster s ran t) {clock : Clock τ Side}
    (hqueue : clock.queue = (dial.read t.outside).queue)
    (hnext : clock.next = (dial.read t.outside).next) :
    Leads host dial.roster s ran (setClock dial clock t) := by
  refine hleads.turned _ ⟨?_, ?_⟩
  · simp only [Dial.roster, h.read_set, hqueue]
  · simp only [Dial.roster, h.read_set, hnext, Nat.le_refl]

variable [LE τ] [DecidableLE τ]

/-- A callback that is due is a timer that goes off. -/
theorem Leads.goOff (h : host.Clocked dial delay span)
    (hleads : Leads host dial.roster s ran t) {target : τ} {waiting : Waiting τ Side}
    {clock : Clock τ Side} (htake : (dial.read t.outside).take? target = some (waiting, clock)) :
    Leads host dial.roster s (ran ++ [waiting.number])
      (serve host (.goOff waiting.action) (Session.setClock dial clock t)).1 := by
  rcases Clock.take?_spec htake with ⟨hwaiting, rfl⟩
  refine hleads.fired waiting.number waiting.action _ (List.mem_map_of_mem hwaiting) ?_ ?_
  · simp only [Dial.roster, h.read_set]
    exact Dial.roster_cancel _ _
  · simp only [Dial.roster, h.read_set, Clock.cancel, Nat.le_refl]

/-- Each callback that runs is a timer that goes off, and time passes after the last one. -/
theorem Leads.drain (h : host.Clocked dial delay span) {target : τ} {fuel : Nat}
    (hleads : Leads host dial.roster s ran t) {m : Movement τ Side (Session δ κ σ)}
    (hm : Clock.drain (goOffAt host dial) target fuel ⟨dial.read t.outside, t⟩ = m) :
    Leads host dial.roster s (ran ++ m.ran.map (·.number))
      (Session.setClock dial m.world.clock m.world.rest) := by
  -- On the fuel. A callback leaves its clock in the world, and there the next one is taken.
  induction fuel generalizing t ran m with
  | zero =>
      cases htake : (dial.read t.outside).take? target with
      | none =>
          rw [Clock.drain_of_none 0 htake] at hm
          rw [← hm, List.map_nil, List.append_nil]
          exact hleads.setClock h rfl rfl
      | some taken =>
          rw [Clock.drain_zero_of_some htake] at hm
          rw [← hm, List.map_nil, List.append_nil]
          exact hleads.setClock h rfl rfl
  | succ fuel ih =>
      cases htake : (dial.read t.outside).take? target with
      | none =>
          rw [Clock.drain_of_none (fuel + 1) htake] at hm
          rw [← hm, List.map_nil, List.append_nil]
          exact hleads.setClock h rfl rfl
      | some taken =>
          rw [Clock.drain_succ_of_some fuel htake rfl] at hm
          rw [← hm, List.map_cons, List.append_cons]
          exact ih (hleads.goOff h htake) rfl

/-- So moving the clock is something that may happen. -/
theorem Leads.advance (h : host.Clocked dial delay span) (fuel : Nat) (span : τ)
    (hleads : Leads host dial.roster s ran t) :
    ∃ gone, Leads host dial.roster s (ran ++ gone) (t.advance host dial fuel span) :=
  ⟨_, hleads.drain h rfl⟩

end Session

end Clocked

namespace Rehearsal

/-- The clock of the rehearsal is one that nobody else touches, if the delay is one for a
    clock. Where the stage has no clock, no timer can be had. -/
theorem host_clocked (settings : Settings) (format : Format) {delay : Value} {span : Float}
    (hdelay : delay.delay = .ok span) :
    (host settings format).Clocked dial delay span where
  read_set clock st := rfl
  after side st number st' h := by
    have hstart : startTimer delay side st = .ok (number, st') := h
    rw [startTimer] at hstart
    cases hclock : st.clock with
    | none =>
        rw [hclock] at hstart
        exact nomatch hstart
    | some clock =>
        rw [hclock, hdelay] at hstart
        rcases Prod.mk.inj (Except.ok.inj hstart) with ⟨rfl, rfl⟩
        simp only [dial, hclock, Option.getD_some]
        rfl
  cancel number st := by
    cases hclock : st.clock with
    | none =>
        simp only [host, cancelTimer, dial, hclock, Option.map_none, Option.getD_none]
        rfl
    | some clock => simp only [host, cancelTimer, dial, hclock, Option.map_some, Option.getD_some]
  replace arbiter text st := by
    simp only [host, replace]
    split
    · exact ⟨rfl, fun _ hc => absurd hc List.not_mem_nil⟩
    · split
      · exact ⟨rfl, fun _ hc => absurd hc List.not_mem_nil⟩
      · exact ⟨rfl, fun _ hc => List.mem_singleton.mp hc ▸ trivial⟩
      · exact ⟨rfl, fun _ hc => List.mem_singleton.mp hc ▸ trivial⟩
      · split
        · exact ⟨rfl, fun _ hc => List.mem_singleton.mp hc ▸ trivial⟩
        · exact ⟨rfl, fun _ hc => absurd hc List.not_mem_nil⟩
  consume name arbiter nodes st := by
    simp only [host, consume]
    split
    · exact ⟨rfl, fun _ hc => absurd hc List.not_mem_nil⟩
    · exact ⟨rfl, fun _ hc => absurd hc List.not_mem_nil⟩
    · refine ⟨rfl, fun c hc => ?_⟩
      rcases Option.map_eq_some_iff.mp (Option.mem_toList.mp hc) with ⟨change, -, rfl⟩
      trivial
    all_goals exact ⟨rfl, fun _ hc => List.mem_singleton.mp hc ▸ trivial⟩
  read text st := rfl
  write d st := rfl

end Rehearsal

end WidgetSync
