import Mathlib.Algebra.Order.Group.Int
import Mathlib.Data.List.Nodup
import WidgetSync.Proofs.Clocks

/-!
# Punctual Clocks

Which callbacks a movement of the clock runs, in which order, and what time it is then.

While the clock moves, its callbacks act on it: they schedule and cancel. What a callback
does may depend on all of the world. To say what it found, each callback writes down its
turn, which changes nothing else. Turns and callbacks together are the history of the
movement, in which each event is a callback that runs, one that is scheduled or one that is
cancelled.

The history is a course of events on the clock. In a course, the clock is free to
run what is due next or to be acted on, whoever acts, and it is over when nothing is due any
longer. What holds of a movement is shown for courses, event by event. All of
it rests on three facts about a clock: the callbacks that wait are numbered in their
order, below the next number, and none of them is overdue. They hold of a clock however
it got where it is, even if callbacks have moved it.

Times are exact here: they form an ordered group. Among doubles, a time plus a delay may
be rounded.

## Main definitions

* `Clock.Act`, `Clock.Deeds`: What callbacks do.
* `Clock.Turn`, `Clock.noting`: What callbacks find.
* `Clock.Event`, `Clock.history`: The history of a movement.
* `Clock.Reached`: A clock to which anything has happened that can happen to a clock.
* `Clock.Course`: A course of events.
* `Clock.Standing`: A callback waits and has not been cancelled.
* `Clock.Punctual`: What is to be said about a movement.

## Theorems

* `Clock.Reached.drain`: Moving a clock leaves it one that can be reached.
* `Clock.Reached.sound`: The callbacks that wait are in order, and none is overdue.
* `Clock.Sound.first`: What is taken is due before all that is left.
* `Clock.drain_course`: The history of a movement is a course.
* `Clock.Course.ordered`, `Clock.Course.standing`, `Clock.Course.kept`,
  `Clock.Course.scheduled_kept`: What holds of courses.
* `Clock.advance_punctual`: A clock is punctual.
-/

namespace WidgetSync

variable {τ α σ : Type}

/-- One callback is due before the other, or they are due together and it was scheduled
    first. -/
def Waiting.Before [LT τ] (v w : Waiting τ α) : Prop :=
  v.deadline < w.deadline ∨ v.deadline = w.deadline ∧ v.number < w.number

namespace Clock

/-- What a callback can do to the clock. -/
inductive Act (τ α : Type) where
  /-- Schedule a callback. -/
  | after (delay : τ) (action : α)
  /-- Cancel a callback, by number. -/
  | cancel (number : Nat)

/-- What a callback does. -/
structure Deeds (τ α σ : Type) where
  /-- What it does to the clock, in order. -/
  acts : List (Act τ α)
  /-- What it makes of everything else. -/
  rest : σ
  /-- Why it fails, if it does. -/
  fault : Option Fault := none

/-- A turn of a callback. -/
structure Turn (τ α : Type) where
  /-- The callback. -/
  action : α
  /-- The clock that it finds. -/
  clock : Clock τ α
  /-- What it does to the clock. -/
  acts : List (Act τ α)

/-- Something that happens to a clock. -/
inductive Event (τ α : Type) where
  /-- A callback runs. -/
  | ran (w : Waiting τ α)
  /-- A callback is scheduled. -/
  | scheduled (w : Waiting τ α)
  /-- A callback is cancelled, by number. -/
  | cancelled (number : Nat)

/-- The callback that runs. -/
def Event.ran? : Event τ α → Option (Waiting τ α)
  | .ran w => some w
  | _ => none

theorem Event.mem_ran? {es : List (Event τ α)} {w : Waiting τ α} :
    w ∈ es.filterMap Event.ran? ↔ .ran w ∈ es := by
  rw [List.mem_filterMap]
  constructor
  · rintro ⟨e, he, hran⟩
    cases e with
    | ran v => exact Option.some.inj hran ▸ he
    | scheduled v => exact nomatch hran
    | cancelled number => exact nomatch hran
  · intro hw
    exact ⟨_, hw, rfl⟩

/-- A callback waits from the start or has been scheduled, and has not been cancelled
    since. -/
def Standing (queue : List (Waiting τ α)) (before : List (Event τ α)) (w : Waiting τ α) : Prop :=
  w ∈ queue ∧ .cancelled w.number ∉ before ∨
    ∃ earlier later, before = earlier ++ .scheduled w :: later ∧ .cancelled w.number ∉ later

/-- What stands after an event stood before it, or is scheduled in it. -/
theorem Standing.cons {queue queue' : List (Waiting τ α)} {before : List (Event τ α)}
    {e : Event τ α} {w : Waiting τ α} (h : Standing queue' before w)
    (hcame : w ∈ queue' → w ∈ queue ∧ e ≠ .cancelled w.number ∨ e = .scheduled w) :
    Standing queue (e :: before) w := by
  rcases h with ⟨hw, hnot⟩ | ⟨earlier, later, rfl, hnot⟩
  · rcases hcame hw with ⟨hw, hne⟩ | rfl
    · exact .inl ⟨hw, List.not_mem_cons_of_ne_of_not_mem hne.symm hnot⟩
    · exact .inr ⟨[], before, rfl, hnot⟩
  · exact .inr ⟨e :: earlier, later, rfl, hnot⟩

section Acts

variable [Add τ] [OfNat τ 0] [LT τ] [DecidableLT τ]

/-- The clock after an act. -/
def Act.perform (c : Clock τ α) : Act τ α → Clock τ α
  | .after delay action => (c.after delay action).2
  | .cancel number => c.cancel number

/-- What happens to a clock in an act. -/
def Act.event (c : Clock τ α) : Act τ α → Event τ α
  | .after delay action => .scheduled ⟨c.now + notNegative delay, c.next, action⟩
  | .cancel number => .cancelled number

/-- What happens to a clock in several acts. -/
def Act.events : Clock τ α → List (Act τ α) → List (Event τ α)
  | _, [] => []
  | c, act :: acts => act.event c :: Act.events (act.perform c) acts

/-- A callback does its deeds. -/
def obey (deeds : α → World τ α σ → Deeds τ α σ) (action : α) (w : World τ α σ) :
    World τ α σ × Option Fault :=
  let d := deeds action w
  (⟨d.acts.foldl Act.perform w.clock, d.rest⟩, d.fault)

/-- A callback does its deeds, and writes down its turn. -/
def noting (deeds : α → World τ α σ → Deeds τ α σ) (action : α)
    (w : World τ α (σ × List (Turn τ α))) :
    World τ α (σ × List (Turn τ α)) × Option Fault :=
  let d := deeds action ⟨w.clock, w.rest.1⟩
  (⟨d.acts.foldl Act.perform w.clock, d.rest, w.rest.2 ++ [⟨action, w.clock, d.acts⟩]⟩, d.fault)

theorem obey_eq {deeds : α → World τ α σ → Deeds τ α σ} {action : α} {c : Clock τ α}
    {rest rest' : σ} {acts : List (Act τ α)} {fault : Option Fault}
    (h : deeds action ⟨c, rest⟩ = ⟨acts, rest', fault⟩) :
    obey deeds action ⟨c, rest⟩ = (⟨acts.foldl Act.perform c, rest'⟩, fault) := by
  rw [obey, h]

theorem noting_eq {deeds : α → World τ α σ → Deeds τ α σ} {action : α} {c : Clock τ α}
    {rest rest' : σ} {acts : List (Act τ α)} {fault : Option Fault}
    (h : deeds action ⟨c, rest⟩ = ⟨acts, rest', fault⟩) (notes : List (Turn τ α)) :
    noting deeds action ⟨c, rest, notes⟩
      = (⟨acts.foldl Act.perform c, rest', notes ++ [⟨action, c, acts⟩]⟩, fault) := by
  rw [noting, h]

/-- The history of a movement, from the callbacks that ran and their turns. -/
def history : List (Waiting τ α) → List (Turn τ α) → List (Event τ α)
  | w :: ran, t :: turns => .ran w :: (Act.events t.clock t.acts ++ history ran turns)
  | _, _ => []

theorem Act.events_ran? (c : Clock τ α) (acts : List (Act τ α)) :
    (Act.events c acts).filterMap Event.ran? = [] := by
  induction acts generalizing c with
  | nil => rfl
  | cons act acts ih =>
      cases act with
      | after delay action => exact ih _
      | cancel number => exact ih _

/-- In a history, those callbacks run that ran. -/
theorem history_ran? {ran : List (Waiting τ α)} {turns : List (Turn τ α)}
    (h : turns.length = ran.length) : (history ran turns).filterMap Event.ran? = ran := by
  induction ran generalizing turns with
  | nil => rfl
  | cons w ran ih =>
      cases turns with
      | nil => exact nomatch h
      | cons t turns =>
          have hhead : Event.ran? (.ran w) = some w := rfl
          rw [history, List.filterMap_cons_some hhead, List.filterMap_append, Act.events_ran?,
            List.nil_append, ih (Nat.succ.inj h)]

variable [LE τ] [DecidableLE τ]

/-- A clock to which anything has happened that can happen to a clock. -/
inductive Reached : Clock τ α → Prop where
  /-- At first no callback waits. -/
  | fresh (now : τ) : Reached { now }
  /-- A callback is scheduled or cancelled, by whomever. -/
  | acted {c : Clock τ α} (act : Act τ α) : Reached c → Reached (act.perform c)
  /-- The clock is being moved, and a callback is due. -/
  | took {c c' : Clock τ α} {target : τ} {w : Waiting τ α} :
      Reached c → c.take? target = some (w, c') → Reached c'
  /-- The clock has been moved, and none is due. -/
  | passed {c : Clock τ α} {target : τ} :
      Reached c → c.take? target = none → Reached { c with now := target }

variable {c c' last : Clock τ α} {target : τ} {es : List (Event τ α)}

/-- A clock that is moved is still one to which such things have happened, if the same is
    true when one of its callbacks has run. -/
theorem Reached.drain {run : α → World τ α σ → World τ α σ × Option Fault}
    (hrun : ∀ action w, w.clock.Reached → (run action w).1.clock.Reached) (fuel : Nat)
    {w : World τ α σ} (hw : w.clock.Reached) :
    (Clock.drain run target fuel w).world.clock.Reached :=
  drain_keeps (P := fun w => w.clock.Reached) (fun _ hw htake => hw.passed htake)
    (fun w waiting clock hw htake => hrun waiting.action { w with clock } (hw.took htake)) fuel hw

/-- One event on a clock that is moved to a time. -/
inductive Step (target : τ) : Clock τ α → Event τ α → Clock τ α → Prop where
  /-- The callback that is due next runs. -/
  | ran {c c' : Clock τ α} {w : Waiting τ α} (htake : c.take? target = some (w, c')) :
      Step target c (.ran w) c'
  /-- A callback is scheduled or cancelled. -/
  | acted {c : Clock τ α} (act : Act τ α) : Step target c (act.event c) (act.perform c)

/-- A course of events on a clock that is moved to a time, until nothing is due. -/
inductive Course (target : τ) : Clock τ α → List (Event τ α) → Clock τ α → Prop where
  /-- Nothing is due any longer, and the time has come. -/
  | finished {c : Clock τ α} (htake : c.take? target = none) :
      Course target c [] { c with now := target }
  /-- Something happens first. -/
  | next {c c' last : Clock τ α} {e : Event τ α} {es : List (Event τ α)}
      (hstep : Step target c e c') (hrest : Course target c' es last) :
      Course target c (e :: es) last

theorem Step.reached {e : Event τ α} (h : Step target c e c') (hc : c.Reached) : c'.Reached := by
  cases h with
  | ran htake => exact hc.took htake
  | acted act => exact hc.acted act

theorem Course.acts (acts : List (Act τ α))
    (h : Course target (acts.foldl Act.perform c) es last) :
    Course target c (Act.events c acts ++ es) last := by
  induction acts generalizing c with
  | nil => exact h
  | cons act acts ih => exact .next (.acted act) (ih h)

/-- Writing down the turns changes nothing else. Each callback that ran has had its turn,
    when the clock showed its time, and if the movement is done, what has happened is a
    course of events. -/
theorem drain_course (deeds : α → World τ α σ → Deeds τ α σ) (fuel : Nat) (c : Clock τ α)
    (rest : σ) (notes : List (Turn τ α)) {m : Movement τ α σ}
    (hm : drain (obey deeds) target fuel ⟨c, rest⟩ = m) :
    ∃ turns : List (Turn τ α),
      drain (noting deeds) target fuel ⟨c, rest, notes⟩
        = ⟨⟨m.world.clock, m.world.rest, notes ++ turns⟩, m.ran, m.ending⟩ ∧
      (turns.map fun t => (t.action, t.clock.now)) = (m.ran.map fun w => (w.action, w.deadline)) ∧
      (m.ending = .done → Course target c (history m.ran turns) m.world.clock) := by
  induction fuel generalizing c rest notes m with
  | zero =>
      cases htake : c.take? target with
      | none =>
          rw [drain_of_none 0 htake] at hm
          rw [drain_of_none 0 htake, ← hm]
          exact ⟨[], by rw [List.append_nil], rfl, fun _ => .finished htake⟩
      | some taken =>
          rw [drain_zero_of_some htake] at hm
          rw [drain_zero_of_some htake, ← hm]
          exact ⟨[], by rw [List.append_nil], rfl, fun hdone => Ending.noConfusion hdone⟩
  | succ fuel ih =>
      cases htake : c.take? target with
      | none =>
          rw [drain_of_none (fuel + 1) htake] at hm
          rw [drain_of_none (fuel + 1) htake, ← hm]
          exact ⟨[], by rw [List.append_nil], rfl, fun _ => .finished htake⟩
      | some taken =>
          rcases taken with ⟨w, c'⟩
          have htime : c'.now = w.deadline := by rw [(take?_spec htake).2]
          cases hdeeds : deeds w.action ⟨c', rest⟩ with
          | mk acts rest' fault =>
              have hobey := obey_eq hdeeds
              have hnote := noting_eq hdeeds notes
              cases fault with
              | some fault =>
                  -- The movement ends here, after the turn has been written down.
                  rw [drain, htake] at hm ⊢
                  simp only [hobey] at hm
                  simp only [hnote]
                  rw [← hm]
                  have hturn := congrArg (fun t => [(w.action, t)]) htime
                  exact ⟨[⟨w.action, c', acts⟩], rfl, hturn, fun hdone => Ending.noConfusion hdone⟩
              | none =>
                  rw [drain_succ_of_some fuel htake hobey] at hm
                  rw [drain_succ_of_some fuel htake hnote, ← hm]
                  rcases ih (acts.foldl Act.perform c') rest'
                    (notes ++ [⟨w.action, c', acts⟩]) rfl with ⟨turns, hnoting, hturns, hcourse⟩
                  refine ⟨⟨w.action, c', acts⟩ :: turns, ?_, ?_, fun hdone => ?_⟩
                  · rw [hnoting, List.append_assoc, List.singleton_append]
                  · rw [List.map_cons, List.map_cons, hturns, htime]
                  · exact .next (.ran htake) (.acts acts (hcourse hdone))

end Acts

section Due

variable [LinearOrder τ] {target : τ} {queue : List (Waiting τ α)} {v w : Waiting τ α}

theorem before_of_le (hdeadline : v.deadline ≤ w.deadline) (hnumber : v.number < w.number) :
    v.Before w :=
  hdeadline.lt_or_eq.imp_right fun h => ⟨h, hnumber⟩

theorem le_of_before (h : v.Before w) : v.deadline ≤ w.deadline :=
  h.elim le_of_lt fun h => h.1.le

/-- If nothing can be taken, neither the first callback is due nor any other. -/
theorem late_of_earliest?_cons {first : Waiting τ α}
    (h : earliest? target (first :: queue) = none) :
    target < first.deadline ∧ earliest? target queue = none := by
  rw [earliest?] at h
  cases hrest : earliest? target queue with
  | none =>
      simp only [hrest, ite_eq_right_iff, reduceCtorEq, imp_false] at h
      exact ⟨lt_of_not_ge h, rfl⟩
  | some best =>
      simp only [hrest] at h
      split at h <;> exact absurd h (Option.some_ne_none _)

theorem due_of_earliest? (h : earliest? target queue = some w) : w.deadline ≤ target := by
  induction queue with
  | nil => exact nomatch h
  | cons first queue ih =>
      rcases earliest?_cons_cases h with ⟨rfl, hdue, -⟩ | ⟨h, -⟩
      · exact hdue
      · exact ih h

/-- If nothing can be taken, nothing is due. -/
theorem late_of_earliest? (h : earliest? target queue = none) (hv : v ∈ queue) :
    target < v.deadline := by
  induction queue with
  | nil => exact nomatch hv
  | cons first queue ih =>
      rcases late_of_earliest?_cons h with ⟨hlate, h⟩
      rcases List.mem_cons.mp hv with rfl | hv
      · exact hlate
      · exact ih h hv

/-- What is taken is due before all others that wait. -/
theorem before_of_earliest? (hqueue : queue.Pairwise (·.number < ·.number))
    (h : earliest? target queue = some w) (hv : v ∈ queue) (hne : v ≠ w) : w.Before v := by
  induction queue generalizing w with
  | nil => exact nomatch hv
  | cons first queue ih =>
      rcases List.pairwise_cons.mp hqueue with ⟨hfirst, hothers⟩
      rcases earliest?_cons_cases h with ⟨rfl, hdue, hearly⟩ | ⟨h, hlate⟩
      · have hv := (List.mem_cons.mp hv).resolve_left hne
        cases hrest : earliest? target queue with
        | none => exact .inl (hdue.trans_lt (late_of_earliest? hrest hv))
        | some best =>
            -- The next best is due no later than the others, and the first no later than it.
            refine before_of_le ((hearly best hrest).trans ?_) (hfirst v hv)
            by_cases hbest : v = best
            · rw [hbest]
            · exact le_of_before (ih hothers hrest hv hbest)
      · rcases List.mem_cons.mp hv with rfl | hv
        · rw [not_and_or, not_le, not_le] at hlate
          exact .inl (hlate.elim (due_of_earliest? h).trans_lt id)
        · exact ih hothers h hv hne

/-- What a clock is always like. -/
structure Sound (c : Clock τ α) : Prop where
  /-- The callbacks that wait are numbered in their order. -/
  numbered : c.queue.Pairwise (·.number < ·.number)
  /-- Their numbers have been given. -/
  given : ∀ w ∈ c.queue, w.number < c.next
  /-- None is overdue. -/
  punctual : ∀ w ∈ c.queue, c.now ≤ w.deadline

variable {c c' : Clock τ α}

theorem due_of_take? (h : c.take? target = some (w, c')) : w.deadline ≤ target := by
  rw [take?, Option.map_eq_some_iff] at h
  rcases h with ⟨w', hearliest, hpair⟩
  exact (Prod.mk.inj hpair).1 ▸ due_of_earliest? hearliest

theorem late_of_take? (h : c.take? target = none) (hw : w ∈ c.queue) : target < w.deadline :=
  late_of_earliest? (Option.map_eq_none_iff.mp h) hw

namespace Sound

theorem eq_of_number (hc : c.Sound) (hv : v ∈ c.queue) (hw : w ∈ c.queue)
    (h : v.number = w.number) : v = w :=
  List.inj_on_of_nodup_map (List.pairwise_map.mpr (hc.numbered.imp Nat.ne_of_lt)) hv hw h

/-- Each callback that waits is the one that is taken, or is left. -/
theorem taken_or_left (hc : c.Sound) (h : c.take? target = some (w, c')) (hv : v ∈ c.queue) :
    v = w ∨ v ∈ c'.queue := by
  rcases take?_spec h with ⟨hw, rfl⟩
  refine or_iff_not_imp_left.mpr fun hne => List.mem_filter.mpr ⟨hv, bne_iff_ne.mpr fun heq => ?_⟩
  exact hne (hc.eq_of_number hv hw heq)

/-- What is left has waited too, and is due after the one that is taken. -/
theorem left (hc : c.Sound) (h : c.take? target = some (w, c')) (hv : v ∈ c'.queue) :
    v ∈ c.queue ∧ v.number ≠ w.number ∧ w.Before v := by
  rw [take?, Option.map_eq_some_iff] at h
  rcases h with ⟨w', hearliest, hpair⟩
  rcases Prod.mk.inj hpair with ⟨rfl, rfl⟩
  rcases List.mem_filter.mp hv with ⟨hv, hnumber⟩
  have hne : v.number ≠ w'.number := bne_iff_ne.mp hnumber
  exact ⟨hv, hne, before_of_earliest? hc.numbered hearliest hv fun heq => hne (heq ▸ rfl)⟩

theorem cancel (hc : c.Sound) (number : Nat) : (c.cancel number).Sound where
  numbered := hc.numbered.sublist List.filter_sublist
  given v hv := hc.given v (List.mem_filter.mp hv).1
  punctual v hv := hc.punctual v (List.mem_filter.mp hv).1

theorem take (hc : c.Sound) (h : c.take? target = some (w, c')) : c'.Sound where
  numbered := by
    rw [(take?_spec h).2]
    exact (hc.cancel w.number).numbered
  given v hv := by
    rw [(take?_spec h).2]
    exact hc.given v (hc.left h hv).1
  punctual v hv := by
    rw [(take?_spec h).2]
    exact le_of_before (hc.left h hv).2.2

/-- When nothing is due any longer, time may pass. -/
theorem pass (hc : c.Sound) (h : c.take? target = none) : Sound { c with now := target } :=
  ⟨hc.numbered, hc.given, fun _ hw => (late_of_take? h hw).le⟩

end Sound

theorem notNegative_nonneg [OfNat τ 0] (t : τ) : 0 ≤ notNegative t := by
  rw [notNegative]
  split
  · rename_i hpos
    exact hpos.le
  · exact le_rfl

end Due

section Exact

variable [AddCommGroup τ] [LinearOrder τ] {c c' last : Clock τ α} {target : τ} {v w : Waiting τ α}
  {e : Event τ α} {es : List (Event τ α)}

/-- A callback waits, or it may still be scheduled. -/
def Ahead (c : Clock τ α) (v : Waiting τ α) : Prop :=
  v ∈ c.queue ∨ c.next ≤ v.number ∧ c.now ≤ v.deadline

namespace Step

/-- What waits after an event has waited before it and has not been cancelled, or is
    scheduled in it. -/
theorem came (h : Step target c e c') (hw : w ∈ c'.queue) :
    w ∈ c.queue ∧ e ≠ .cancelled w.number ∨ e = .scheduled w := by
  cases h with
  | ran htake =>
      rw [(take?_spec htake).2] at hw
      exact .inl ⟨(List.mem_filter.mp hw).1, nofun⟩
  | acted act =>
      cases act with
      | after delay action =>
          rcases List.mem_append.mp hw with hw | hw
          · exact .inl ⟨hw, nofun⟩
          · exact .inr (congrArg _ (List.mem_singleton.mp hw).symm)
      | cancel number =>
          rcases List.mem_filter.mp hw with ⟨hw, hnumber⟩
          exact .inl ⟨hw, fun heq => bne_iff_ne.mp hnumber (Event.cancelled.inj heq).symm⟩

/-- What has waited before an event still waits, or it runs or is cancelled. -/
theorem went (hc : c.Sound) (h : Step target c e c') (hw : w ∈ c.queue) :
    w ∈ c'.queue ∨ e = .ran w ∨ e = .cancelled w.number := by
  cases h with
  | ran htake =>
      rcases hc.taken_or_left htake hw with rfl | hw
      · exact .inr (.inl rfl)
      · exact .inl hw
  | acted act =>
      cases act with
      | after delay action => exact .inl (List.mem_append_left _ hw)
      | cancel number =>
          by_cases heq : w.number = number
          · exact .inr (.inr (congrArg _ heq.symm))
          · exact .inl (List.mem_filter.mpr ⟨hw, bne_iff_ne.mpr heq⟩)

theorem waited (h : Step target c (.ran w) c') : w ∈ c.queue ∧ w.deadline ≤ target := by
  generalize he : Event.ran w = e at h
  cases h with
  | ran htake =>
      rcases Event.ran.inj he with rfl
      exact ⟨(take?_spec htake).1, due_of_take? htake⟩
  | acted act => cases act <;> exact nomatch he

theorem waits (h : Step target c (.scheduled w) c') : w ∈ c'.queue := by
  generalize he : Event.scheduled w = e at h
  cases h with
  | ran htake => exact nomatch he
  | acted act =>
      cases act with
      | after delay action =>
          rcases Event.scheduled.inj he with rfl
          exact List.mem_append_right _ List.mem_cons_self
      | cancel number => exact nomatch he

/-- What is ahead when a callback runs is due after it. -/
theorem before (hc : c.Sound) (h : Step target c (.ran w) c') (hv : c'.Ahead v) :
    w.Before v ∧ w.number ≠ v.number := by
  generalize he : Event.ran w = e at h
  cases h with
  | ran htake =>
      rcases Event.ran.inj he with rfl
      rcases hv with hv | ⟨hnumber, htime⟩
      · rcases hc.left htake hv with ⟨-, hne, hbefore⟩
        exact ⟨hbefore, hne.symm⟩
      · -- It is not scheduled yet, so its number is higher and its time not before now.
        rcases take?_spec htake with ⟨hw, rfl⟩
        have hlt : w.number < v.number := Nat.lt_of_lt_of_le (hc.given w hw) hnumber
        exact ⟨before_of_le htime hlt, Nat.ne_of_lt hlt⟩
  | acted act => cases act <;> exact nomatch he

end Step

/-- What runs stands. -/
theorem Course.standing (h : Course target c es last) {before after : List (Event τ α)}
    (hes : es = before ++ .ran w :: after) : Standing c.queue before w := by
  induction h generalizing before with
  | finished htake =>
      exact absurd hes.symm (List.append_ne_nil_of_right_ne_nil _ (List.cons_ne_nil _ _))
  | next hstep _ ih =>
      cases before with
      | nil =>
          rcases List.cons.inj hes with ⟨rfl, -⟩
          exact .inl ⟨hstep.waited.1, List.not_mem_nil⟩
      | cons e before =>
          rcases List.cons.inj hes with ⟨rfl, htail⟩
          exact (ih htail).cons hstep.came

theorem Course.ended (h : Course target c es last) :
    last.now = target ∧ ∀ w ∈ last.queue, target < w.deadline := by
  induction h with
  | finished htake => exact ⟨rfl, fun w hw => late_of_take? htake hw⟩
  | next _ _ ih => exact ih

variable [IsOrderedAddMonoid τ]

theorem Sound.after (hc : c.Sound) (delay : τ) (action : α) : (c.after delay action).2.Sound where
  numbered := by
    refine List.pairwise_append.mpr ⟨hc.numbered, List.pairwise_singleton _ _, fun v hv w hw => ?_⟩
    rcases List.mem_singleton.mp hw with rfl
    exact hc.given v hv
  given v hv := by
    rcases List.mem_append.mp hv with hv | hv
    · exact Nat.lt_succ_of_lt (hc.given v hv)
    · rcases List.mem_singleton.mp hv with rfl
      exact Nat.lt_succ_self _
  punctual v hv := by
    rcases List.mem_append.mp hv with hv | hv
    · exact hc.punctual v hv
    · rcases List.mem_singleton.mp hv with rfl
      exact le_add_of_nonneg_right (notNegative_nonneg delay)

theorem Reached.sound (hc : c.Reached) : c.Sound := by
  induction hc with
  | fresh now => exact ⟨List.Pairwise.nil, nofun, nofun⟩
  | acted act _ ih =>
      cases act with
      | after delay action => exact ih.after delay action
      | cancel number => exact ih.cancel number
  | took _ htake ih => exact ih.take htake
  | passed _ htake ih => exact ih.pass htake

/-- What is ahead after an event was ahead before it. -/
theorem Step.ahead (hc : c.Sound) (h : Step target c e c') (hv : c'.Ahead v) : c.Ahead v := by
  cases h with
  | ran htake =>
      rcases hv with hv | ⟨hnumber, htime⟩
      · exact .inl (hc.left htake hv).1
      · rcases take?_spec htake with ⟨hw, rfl⟩
        exact .inr ⟨hnumber, (hc.punctual _ hw).trans htime⟩
  | acted act =>
      cases act with
      | after delay action =>
          rcases hv with hv | ⟨hnumber, htime⟩
          · rcases List.mem_append.mp hv with hv | hv
            · exact .inl hv
            · rcases List.mem_singleton.mp hv with rfl
              exact .inr ⟨Nat.le_refl _, le_add_of_nonneg_right (notNegative_nonneg delay)⟩
          · exact .inr ⟨Nat.le_of_succ_le hnumber, htime⟩
      | cancel number => exact hv.imp_left fun hv => (List.mem_filter.mp hv).1

namespace Course

theorem ahead (h : Course target c es last) (hc : c.Reached) (hv : .ran v ∈ es) :
    c.Ahead v ∧ v.deadline ≤ target := by
  induction h with
  | finished htake => exact nomatch hv
  | next hstep _ ih =>
      rcases List.mem_cons.mp hv with rfl | hv
      · exact ⟨.inl hstep.waited.1, hstep.waited.2⟩
      · rcases ih (hstep.reached hc) hv with ⟨hahead, hdue⟩
        exact ⟨hstep.ahead hc.sound hahead, hdue⟩

/-- Callbacks run in order, and each one once. -/
theorem ordered (h : Course target c es last) (hc : c.Reached) :
    (es.filterMap Event.ran?).Pairwise fun v w => v.Before w ∧ v.number ≠ w.number := by
  induction h with
  | finished htake => exact List.Pairwise.nil
  | @next c c' last e es hstep hrest ih =>
      have hrest' := ih (hstep.reached hc)
      cases e with
      | ran w =>
          refine List.pairwise_cons.mpr ⟨fun v hv => ?_, hrest'⟩
          exact hstep.before hc.sound (hrest.ahead (hstep.reached hc) (Event.mem_ran?.mp hv)).1
      | scheduled w => exact hrest'
      | cancelled number => exact hrest'

/-- What waits and is due runs, or is cancelled. -/
theorem kept (h : Course target c es last) (hc : c.Reached) (hw : w ∈ c.queue)
    (hdue : w.deadline ≤ target) : .ran w ∈ es ∨ .cancelled w.number ∈ es := by
  induction h with
  | finished htake =>
      -- It is over only when nothing that waits is due.
      exact absurd hdue (late_of_take? htake hw).not_ge
  | next hstep _ ih =>
      rcases hstep.went hc.sound hw with hw | rfl | rfl
      · exact (ih (hstep.reached hc) hw).imp (List.mem_cons_of_mem _) (List.mem_cons_of_mem _)
      · exact .inl List.mem_cons_self
      · exact .inr List.mem_cons_self

/-- What is scheduled and is due runs later, or is cancelled. -/
theorem scheduled_kept (h : Course target c es last) (hc : c.Reached)
    {before after : List (Event τ α)} (hes : es = before ++ .scheduled w :: after)
    (hdue : w.deadline ≤ target) : .ran w ∈ after ∨ .cancelled w.number ∈ after := by
  induction h generalizing before with
  | finished htake =>
      exact absurd hes.symm (List.append_ne_nil_of_right_ne_nil _ (List.cons_ne_nil _ _))
  | next hstep hrest ih =>
      cases before with
      | nil =>
          rcases List.cons.inj hes with ⟨rfl, rfl⟩
          exact hrest.kept (hstep.reached hc) hstep.waits hdue
      | cons e before =>
          exact ih (hstep.reached hc) (List.cons.inj hes).2

end Course

/-- What is to be said about a movement of the clock: which callbacks ran, which turns they
    had, and which clock is left. -/
structure Punctual (start : Clock τ α) (span : τ) (ran : List (Waiting τ α))
    (turns : List (Turn τ α)) (last : Clock τ α) : Prop where
  /-- Each callback that ran had its turn, at its time. -/
  timely : (turns.map fun t => (t.action, t.clock.now)) = ran.map fun w => (w.action, w.deadline)
  /-- They ran in order. -/
  ordered : ran.Pairwise Waiting.Before
  /-- Each of them ran once. -/
  once : (ran.map (·.number)).Nodup
  /-- None ran that is due later. -/
  due : ∀ w ∈ ran, w.deadline ≤ start.now + span
  /-- None had been cancelled when it ran. -/
  standing : ∀ before w after, history ran turns = before ++ .ran w :: after →
    Standing start.queue before w
  /-- What was due and waited at the start has run, unless it was cancelled. -/
  kept : ∀ w ∈ start.queue, w.deadline ≤ start.now + span →
    w ∈ ran ∨ .cancelled w.number ∈ history ran turns
  /-- What was due and was scheduled in between ran afterwards, unless it was cancelled. -/
  scheduled : ∀ before w after, history ran turns = before ++ .scheduled w :: after →
    w.deadline ≤ start.now + span → .ran w ∈ after ∨ .cancelled w.number ∈ after
  /-- Time did not run backwards. -/
  forward : (start.now :: turns.map (·.clock.now) ++ [last.now]).Pairwise (· ≤ ·)
  /-- It has come as far as it should. -/
  ended : last.now = start.now + span
  /-- Nothing that waits is due. -/
  left : ∀ w ∈ last.queue, last.now < w.deadline

/-- The times at which callbacks have run lie in between. -/
theorem Course.forward (h : Course target c es last) (hc : c.Reached) (htarget : c.now ≤ target) :
    (c.now :: (es.filterMap Event.ran?).map (·.deadline) ++ [last.now]).Pairwise (· ≤ ·) := by
  have hran : ∀ t ∈ (es.filterMap Event.ran?).map (·.deadline), c.now ≤ t ∧ t ≤ target := by
    intro t ht
    rcases List.mem_map.mp ht with ⟨v, hv, rfl⟩
    rcases h.ahead hc (Event.mem_ran?.mp hv) with ⟨hwaits | hlater, hdue⟩
    · exact ⟨hc.sound.punctual v hwaits, hdue⟩
    · exact ⟨hlater.2, hdue⟩
  rw [h.ended.1]
  refine List.pairwise_append.mpr ⟨List.pairwise_cons.mpr ⟨fun t ht => (hran t ht).1, ?_⟩,
    List.pairwise_singleton _ _, fun t ht t' ht' => ?_⟩
  · exact List.pairwise_map.mpr ((h.ordered hc).imp fun h => le_of_before h.1)
  · rcases List.mem_singleton.mp ht' with rfl
    rcases List.mem_cons.mp ht with rfl | ht
    · exact htarget
    · exact (hran t ht).2

/-- When a movement of the clock is done, whatever its callbacks schedule and cancel, it has run
    what was due, in order, each callback at its time and nothing else. -/
theorem advance_punctual (deeds : α → World τ α σ → Deeds τ α σ) {w : World τ α σ}
    (hreached : w.clock.Reached) {span : τ} (hspan : 0 ≤ span) {fuel : Nat}
    (hdone : (advance (obey deeds) fuel span w).ending = .done) :
    ∃ turns, advance (noting deeds) fuel span ⟨w.clock, w.rest, []⟩
        = ⟨⟨(advance (obey deeds) fuel span w).world.clock,
              (advance (obey deeds) fuel span w).world.rest, turns⟩,
            (advance (obey deeds) fuel span w).ran, .done⟩ ∧
      turns.length = (advance (obey deeds) fuel span w).ran.length ∧
      Punctual w.clock span (advance (obey deeds) fuel span w).ran turns
        (advance (obey deeds) fuel span w).world.clock := by
  generalize hm : advance (obey deeds) fuel span w = m at hdone
  rcases drain_course deeds fuel w.clock w.rest [] hm with ⟨turns, hnoting, hturns, hcourse⟩
  have hcourse := hcourse hdone
  -- What the course says of its events is said of the timers that ran, one for each turn.
  have hcount : turns.length = m.ran.length := by
    simpa only [List.length_map] using congrArg List.length hturns
  have htimes : turns.map (·.clock.now) = m.ran.map (·.deadline) := by
    have hsnd := congrArg (List.map Prod.snd) hturns
    rwa [List.map_map, List.map_map] at hsnd
  have hran := history_ran? hcount
  rw [hdone] at hnoting
  refine ⟨turns, hnoting, hcount, hturns, ?_, ?_, ?_, fun before v after => hcourse.standing,
    ?_, fun before v after hes hdue => hcourse.scheduled_kept hreached hes hdue, ?_,
    hcourse.ended.1, hcourse.ended.1 ▸ hcourse.ended.2⟩
  · exact hran ▸ (hcourse.ordered hreached).imp And.left
  · exact hran ▸ List.pairwise_map.mpr ((hcourse.ordered hreached).imp And.right)
  · intro v hv
    rw [← hran] at hv
    exact (hcourse.ahead hreached (Event.mem_ran?.mp hv)).2
  · intro v hv hdue
    exact (hcourse.kept hreached hv hdue).imp_left fun hv => hran ▸ Event.mem_ran?.mpr hv
  · have hforward := hcourse.forward hreached (le_add_of_nonneg_right hspan)
    rwa [hran, ← htimes] at hforward

end Exact

/-- A clock on which four callbacks wait, two of them for the same time. -/
def fourWaiting : Clock Int String :=
  [.after 10 "first", .after 10 "second", .after 12 "third", .after 40 "last"].foldl
    Act.perform { now := 0 }

/-- The first callback cancels the second and schedules two more, one with a delay below
    zero. -/
def interfere (action : String) (_ : World Int String Unit) : Deeds Int String Unit where
  acts := if action = "first" then [.cancel 1, .after (-3) "at once", .after 20 "later"] else []
  rest := ()

/-- The one that is scheduled with no delay runs before the third. -/
theorem fourWaiting_punctual :
    fourWaiting.Reached ∧ (0 : Int) ≤ 15 ∧
      (advance (obey interfere) 9 15 ⟨fourWaiting, ()⟩).ending = .done ∧
      (advance (obey interfere) 9 15 ⟨fourWaiting, ()⟩).ran.map (·.action)
        = ["first", "at once", "third"] ∧
      ∃ turns, turns.length = 3 ∧
        Punctual fourWaiting 15 (advance (obey interfere) 9 15 ⟨fourWaiting, ()⟩).ran turns
          (advance (obey interfere) 9 15 ⟨fourWaiting, ()⟩).world.clock := by
  have hreached : fourWaiting.Reached :=
    .acted (.after 40 "last") <| .acted (.after 12 "third") <| .acted (.after 10 "second") <|
      .acted (.after 10 "first") (.fresh 0)
  have hdone : (advance (obey interfere) 9 15 ⟨fourWaiting, ()⟩).ending = .done := by decide
  have hran : (advance (obey interfere) 9 15 ⟨fourWaiting, ()⟩).ran.map (·.action)
      = ["first", "at once", "third"] := by decide
  rcases advance_punctual interfere hreached (by decide) hdone with ⟨turns, -, hcount, hpunctual⟩
  have hlength := congrArg List.length hran
  rw [List.length_map, ← hcount] at hlength
  exact ⟨hreached, by decide, hdone, hran, turns, hlength, hpunctual⟩

end Clock

end WidgetSync
