import WidgetSync.Proofs.Punctual

/-!
# Debouncers Coalesce

Which of the callbacks that are handed to a debouncer run, and when.

A debouncer stands at a clock that nobody else uses. Callbacks are handed to it, what waits is
cancelled or flushed, and the clock is moved, in any order. A callback that runs may do the
same to the debouncer, as often as it likes, and what it does next may depend on all that it
finds: it is a tree of wishes, in which the answer to one wish decides on the next. A callback
that flushes runs another one inside. The clock may refuse a timer at any call.

Everything that happens is entered in a record, with the debouncer and the clock as they are
then. The place of an entry tells the calls apart, so the same callback can be handed over
twice. The record is written and never read by the debouncer; that callbacks may read it only
means that they may do anything.

The invariant, `Sound`, is about the last callback that was handed over. As long as nothing
has called it and nothing has taken its place, it waits, and the clock has one timer for it,
set to the delay after the call. Every entry is then one step, in which the callback that waits
goes on waiting, or runs, or is dropped; what was said of all earlier ones stays true, since
none of them waits.

## Main definitions

* `Debouncer.Wish`, `Debouncer.Routine`: What callbacks do.
* `Debouncer.Entry`: What happened, and how things stood then.
* `Debouncer.grant`, `Debouncer.strike`, `Debouncer.move`: What users, the timer and the clock do.
* `Debouncer.Called`: A callback is called before another one takes its place.
* `Debouncer.Coalesced`: What is to be said about a record.
* `Debouncer.Fate`, `Debouncer.Sound`: What has become of a call, and the invariant.
* `Debouncer.Fitting`: What an entry has to be.

## Theorems

* `Debouncer.cancel_of_stands`: After cancelling nothing waits, and no timer runs.
* `Debouncer.Sound.noted`: An entry keeps the invariant.
* `Debouncer.Sound.grant`, `Debouncer.Sound.strike`: So do wishes, and timers that go off.
* `Debouncer.Sound.move`: So does a move.
* `Debouncer.bursts_coalesce`: A debouncer coalesces.
-/

namespace WidgetSync

namespace Debouncer

variable {τ κ : Type}

/-- A callback that is handed over in a call. -/
structure Occurrence (κ : Type) where
  /-- The callback. -/
  callback : κ
  /-- The place of the call in the record. -/
  place : Nat

/-- Something that happens to a debouncer at its clock. -/
inductive Event (κ : Type) where
  /-- A callback is handed over. -/
  | scheduled (o : Occurrence κ)
  /-- A callback is handed over, and the clock refuses its timer. -/
  | refused
  /-- What waits is cancelled. -/
  | cancelled
  /-- The debouncer is flushed, and what waits is run. -/
  | flushed (runs : Option (Occurrence κ))
  /-- The clock comes to a new time. If it is that of the timer, what waits is run. -/
  | reached (runs : Option (Occurrence κ))

/-- An entry of the record: what happened, and how the debouncer and its clock stood after it,
    before the callback that it runs did anything. -/
structure Entry (τ κ : Type) where
  /-- What happened. -/
  event : Event κ
  /-- The debouncer then. -/
  debouncer : Debouncer τ (Occurrence κ)
  /-- The clock then. -/
  clock : Clock τ Unit

/-- A debouncer and the record of what happened to it. -/
structure Desk (τ κ : Type) where
  /-- The debouncer. -/
  debouncer : Debouncer τ (Occurrence κ)
  /-- The record. -/
  record : List (Entry τ κ) := []

/-- A debouncer at a clock. -/
abbrev Site (τ κ : Type) := World τ Unit (Desk τ κ)

/-- A debouncer with a delay at a new clock. -/
def Site.fresh (delay now : τ) : Site τ κ :=
  ⟨{ now }, ⟨{ delay }, []⟩⟩

/-- What can be asked of a debouncer. -/
inductive Wish (κ : Type) where
  /-- Let a callback wait. The clock may refuse the timer. -/
  | schedule (callback : κ) (refusal : Option Fault)
  /-- Cancel what waits. -/
  | cancel
  /-- Run at once what waits. -/
  | flush

/-- What a callback does. -/
inductive Routine (τ κ : Type) where
  /-- It ends, or fails. -/
  | ends (fault : Option Fault)
  /-- It has a wish, and goes on as it finds things then. -/
  | asks (wish : Wish κ) (next : Site τ κ → Option Fault → Routine τ κ)

/-- What a move of a user is. -/
inductive Move (τ κ : Type) where
  /-- To ask something of the debouncer. -/
  | ask (wish : Wish κ)
  /-- To move the clock, with no more than so many callbacks. -/
  | advance (fuel : Nat) (span : τ)

/-- The callback that runs in an event. -/
def Event.runs? : Event κ → Option (Occurrence κ)
  | .flushed runs => runs
  | .reached runs => runs
  | _ => none

/-- The event is a later call or a cancellation. -/
def Event.renews : Event κ → Bool
  | .scheduled _ => true
  | .refused => true
  | .cancelled => true
  | _ => false

/-- Enters something into the record. -/
def note (event : Event κ) (debouncer : Debouncer τ (Occurrence κ)) (clock : Clock τ Unit)
    (w : Site τ κ) : Site τ κ :=
  ⟨clock, ⟨debouncer, w.rest.record ++ [⟨event, debouncer, clock⟩]⟩⟩

/-- Runs a callback, if there is one to run. -/
def hand (run : κ → Site τ κ → Site τ κ × Option Fault) :
    Option (Occurrence κ) → Site τ κ → Site τ κ × Option Fault
  | none, w => (w, none)
  | some o, w => run o.callback w

section Moves

variable [Add τ] [OfNat τ 0] [LT τ] [DecidableLT τ]

/-- The clock as a service for debouncers, which may refuse a timer. -/
def service (refusal : Option Fault) : Scheduler τ Unit (Clock τ Unit) where
  after delay action clock :=
    match refusal with
    | some fault => .error fault
    | none => .ok (clock.after delay action)
  cancel number clock := clock.cancel number

/-- Does what is asked of the debouncer, given how callbacks run. -/
def grant (run : κ → Site τ κ → Site τ κ × Option Fault) (w : Site τ κ) :
    Wish κ → Site τ κ × Option Fault
  | .schedule callback refusal =>
    let o := ⟨callback, w.rest.record.length⟩
    match w.rest.debouncer.schedule (service refusal) () o w.clock with
    | ((debouncer, clock), none) => (note (.scheduled o) debouncer clock w, none)
    | ((debouncer, clock), some fault) => (note .refused debouncer clock w, some fault)
  | .cancel =>
    let (debouncer, clock) := w.rest.debouncer.cancel (service none) w.clock
    (note .cancelled debouncer clock w, none)
  | .flush =>
    let ((debouncer, clock), runs) := w.rest.debouncer.flush (service none) w.clock
    hand run runs (note (.flushed runs) debouncer clock w)

/-- Goes through a routine. -/
def follow (run : κ → Site τ κ → Site τ κ × Option Fault) :
    Routine τ κ → Site τ κ → Site τ κ × Option Fault
  | .ends fault, w => (w, fault)
  | .asks wish next, w =>
    let (w, fault) := grant run w wish
    follow run (next w fault) w

/-- Runs a callback in which callbacks run no deeper than `depth`. -/
def perform (routine : κ → Site τ κ → Routine τ κ) :
    Nat → κ → Site τ κ → Site τ κ × Option Fault
  | 0, _, w => (w, some (.refused "maximum recursion depth exceeded"))
  | depth + 1, callback, w => follow (perform routine depth) (routine callback w) w

/-- The timer of the debouncer goes off, at the time that the clock shows. -/
def strike (run : κ → Site τ κ → Site τ κ × Option Fault) (_ : Unit) (w : Site τ κ) :
    Site τ κ × Option Fault :=
  let (debouncer, runs) := w.rest.debouncer.goOff
  hand run runs (note (.reached runs) debouncer w.clock w)

variable [LE τ] [DecidableLE τ]

/-- What a move of a user does. -/
def move (run : κ → Site τ κ → Site τ κ × Option Fault) (w : Site τ κ) : Move τ κ → Site τ κ
  | .ask wish => (grant run w wish).1
  | .advance fuel span =>
    match Clock.advance (strike run) fuel span w with
    | ⟨w, _, .done⟩ => note (.reached none) w.rest.debouncer w.clock w
    | ⟨w, _, _⟩ => w

end Moves

/-- The places of the calls whose callbacks have run. -/
def ranPlaces (record : List (Entry τ κ)) : List Nat :=
  (record.filterMap fun e => e.event.runs?).map (·.place)

theorem ranPlaces_concat (record : List (Entry τ κ)) (e : Entry τ κ) :
    ranPlaces (record ++ [e]) = ranPlaces record ++ (e.event.runs?.map (·.place)).toList := by
  rw [ranPlaces, List.filterMap_append, List.map_append, ← ranPlaces]
  cases hruns : e.event.runs? with
  | none => simp only [List.filterMap_cons, hruns, List.filterMap_nil, List.map_nil,
      Option.map_none, Option.toList_none]
  | some o => simp only [List.filterMap_cons, hruns, List.filterMap_nil, List.map_cons,
      List.map_nil, Option.map_some, Option.toList_some]

theorem getElem?_concat {record : List (Entry τ κ)} {i : Nat} {e : Entry τ κ} (x : Entry τ κ)
    (h : record[i]? = some e) : (record ++ [x])[i]? = some e := by
  rw [List.getElem?_append_left (List.getElem?_eq_some_iff.mp h).1, h]

theorem getElem?_concat_cases {record : List (Entry τ κ)} {e x : Entry τ κ} {i : Nat}
    (h : (record ++ [e])[i]? = some x) :
    record[i]? = some x ∧ i < record.length ∨ x = e ∧ i = record.length := by
  rcases Nat.lt_or_ge i record.length with hlt | hge
  · rw [List.getElem?_append_left hlt] at h
    exact .inl ⟨h, hlt⟩
  · rw [List.getElem?_append_right hge, List.getElem?_singleton] at h
    split at h
    · rename_i hzero
      exact .inr ⟨(Option.some.inj h).symm, by omega⟩
    · exact nomatch h

section Said

variable [LE τ]

/-- The entry is one at which a callback with this deadline is called, if it waits. -/
def Entry.Calls (deadline : τ) (e : Entry τ κ) : Prop :=
  match e.event with
  | .flushed _ => True
  | .reached _ => deadline ≤ e.clock.now
  | _ => False

/-- Before any later call or cancellation, the clock comes to the deadline or the debouncer is
    flushed. -/
def Called (deadline : τ) : List (Entry τ κ) → Prop
  | [] => False
  | e :: es => e.Calls deadline ∨ e.event.renews = false ∧ Called deadline es

theorem called_append {deadline : τ} {es new : List (Entry τ κ)} :
    Called deadline (es ++ new) ↔
      Called deadline es ∨ (∀ x ∈ es, x.event.renews = false) ∧ Called deadline new := by
  induction es with
  | nil => simp only [List.nil_append, Called, List.not_mem_nil, false_implies, implies_true,
      true_and, false_or]
  | cons e es ih =>
      simp only [List.cons_append, Called, ih, List.forall_mem_cons]
      tauto

/-- A debouncer waits just if the clock has a timer, and it never has two. -/
def InStep (d : Debouncer τ (Occurrence κ)) (clock : Clock τ Unit) : Prop :=
  (d.pending = true ↔ clock.pending = 1) ∧ clock.pending ≤ 1

/-- What is to be said about a record. -/
structure Coalesced [Add τ] (delay : τ) (record : List (Entry τ κ)) : Prop where
  /-- A call is entered at its place. -/
  placed : ∀ (i : Nat) (e : Entry τ κ) (o : Occurrence κ), record[i]? = some e →
    e.event = .scheduled o → o.place = i
  /-- What runs was handed over before. -/
  known : ∀ (i : Nat) (e : Entry τ κ) (o : Occurrence κ), record[i]? = some e →
    e.event.runs? = some o → o.place < i ∧ ∃ s, record[o.place]? = some s ∧ s.event = .scheduled o
  /-- It runs once. -/
  once : ((record.filterMap fun e => e.event.runs?).map (·.place)).Nodup
  /-- What is handed over runs if and only if it is called before another call or a
      cancellation. -/
  runs_iff : ∀ (i : Nat) (e : Entry τ κ) (o : Occurrence κ), record[i]? = some e →
    e.event = .scheduled o →
    ((∃ x ∈ record.drop (i + 1), x.event.runs? = some o) ↔
      Called (e.clock.now + delay) (record.drop (i + 1)))
  /-- When its timer runs it, it is just the time for that. -/
  timely : ∀ (i : Nat) (e : Entry τ κ) (o : Occurrence κ), record[i]? = some e →
    e.event = .scheduled o → ∀ x ∈ record, x.event = .reached (some o) →
    x.clock.now = e.clock.now + delay
  /-- At all times the debouncer and its clock agree. -/
  inStep : ∀ e ∈ record, InStep e.debouncer e.clock
  /-- After a call that is refused, nothing waits and no timer runs. -/
  refused : ∀ e ∈ record, e.event = .refused → e.debouncer.pending = false ∧ e.clock.pending = 0

end Said

/-! ### What waits -/

theorem waiting_iff {d : Debouncer τ (Occurrence κ)} {o : Occurrence κ} :
    d.waiting.map (·.2) = some o ↔ ∃ number, d.waiting = some (number, o) := by
  rw [Option.map_eq_some_iff]
  constructor
  · rintro ⟨⟨number, o'⟩, hwaiting, rfl⟩
    exact ⟨number, hwaiting⟩
  · rintro ⟨number, hwaiting⟩
    exact ⟨_, hwaiting, rfl⟩

section Invariant

variable [LT τ]

/-- A callback waits, and the clock has one timer, which is for it. -/
def Waits (d : Debouncer τ (Occurrence κ)) (clock : Clock τ Unit) (o : Occurrence κ)
    (deadline : τ) : Prop :=
  ∃ number, d.waiting = some (number, o) ∧ clock.queue = [⟨deadline, number, ()⟩] ∧
    clock.now < deadline

/-- Nothing waits and no timer runs, or just one callback waits for just one timer. -/
inductive Stands (d : Debouncer τ (Occurrence κ)) (clock : Clock τ Unit) : Prop where
  | idle (hwaiting : d.waiting = none) (hqueue : clock.queue = [])
  | waits (o : Occurrence κ) (deadline : τ) (h : Waits d clock o deadline)

variable {d : Debouncer τ (Occurrence κ)} {clock : Clock τ Unit} {o : Occurrence κ} {deadline : τ}

theorem Stands.inStep (h : Stands d clock) : InStep d clock := by
  rw [InStep, pending, Clock.pending]
  cases h with
  | idle hwaiting hqueue =>
      rw [hwaiting, hqueue]
      exact ⟨iff_of_false Bool.false_ne_true Nat.zero_ne_one, Nat.zero_le 1⟩
  | waits o deadline h =>
      rcases h with ⟨number, hwaiting, hqueue, -⟩
      rw [hwaiting, hqueue]
      exact ⟨by simp only [Option.isSome_some, List.length_singleton], Nat.le_refl _⟩

/-- After cancelling nothing waits, and no timer runs. -/
theorem cancel_of_stands [Add τ] [OfNat τ 0] [DecidableLT τ] (h : Stands d clock)
    (refusal : Option Fault) :
    d.cancel (service refusal) clock = (d.idle, { clock with queue := [] }) := by
  cases h with
  | idle hwaiting hqueue =>
      have hidle : d.idle = d := idle_of_pending (by rw [pending, hwaiting, Option.isSome_none])
      rw [cancel, hwaiting, hidle, ← hqueue]
  | waits o deadline h =>
      rcases h with ⟨number, hwaiting, hqueue, -⟩
      rw [cancel, hwaiting]
      simp only [service, Clock.cancel, hqueue, List.filter_cons, bne_self_eq_false,
        Bool.false_eq_true, if_false, List.filter_nil]

/-- So it is after a call that is refused. -/
theorem schedule_refused [Add τ] [OfNat τ 0] [DecidableLT τ] (h : Stands d clock)
    (o : Occurrence κ) (fault : Fault) :
    d.schedule (service (some fault)) () o clock
      = ((d.idle, { clock with queue := [] }), some fault) := by
  rw [schedule, cancel_of_stands h]
  rfl

/-- After another call its callback waits, in place of what waited before. -/
theorem schedule_granted [Add τ] [OfNat τ 0] [DecidableLT τ] (h : Stands d clock)
    (hdelay : 0 < d.delay) (o : Occurrence κ) :
    d.schedule (service none) () o clock
      = (({ d with waiting := some (clock.next, o) },
          { clock with
            queue := [⟨clock.now + d.delay, clock.next, ()⟩], next := clock.next + 1 }), none) := by
  rw [schedule, cancel_of_stands h]
  simp only [service, Clock.after, Clock.notNegative, idle, if_pos hdelay, List.nil_append]

variable [LE τ]

/-- What has become of a call, by what happened after it and by how things stand now. -/
structure Fate (d : Debouncer τ (Occurrence κ)) (clock : Clock τ Unit) (o : Occurrence κ)
    (deadline : τ) (after : List (Entry τ κ)) : Prop where
  /-- The callback has run if it was called. -/
  runs_iff : (∃ x ∈ after, x.event.runs? = some o) ↔ Called deadline after
  /-- When it ran because of its timer, it was just the time. -/
  timely : ∀ x ∈ after, x.event = .reached (some o) → x.clock.now = deadline
  /-- If it was not called and nothing has taken its place, it waits. -/
  waits : ¬ Called deadline after → (∀ x ∈ after, x.event.renews = false) → Waits d clock o deadline
  /-- Else it does not. -/
  closed : (Called deadline after ∨ ∃ x ∈ after, x.event.renews = true) →
    ∀ number, d.waiting ≠ some (number, o)

variable {d' : Debouncer τ (Occurrence κ)} {clock' : Clock τ Unit} {after new : List (Entry τ κ)}
  {event : Event κ}

/-- As long as nothing has happened, a callback waits. -/
theorem Fate.nil (h : Waits d clock o deadline) : Fate d clock o deadline [] where
  runs_iff := iff_of_false (fun ⟨x, hx, _⟩ => nomatch hx) id
  timely x hx := nomatch hx
  waits _ _ := h
  closed hend := by
    rcases hend with hcalled | ⟨x, hx, -⟩
    · exact hcalled.elim
    · exact nomatch hx

/-- What happens later matters only for the callback that waits. -/
theorem Fate.append (h : Fate d clock o deadline after)
    (hwaits : Waits d clock o deadline → Fate d' clock' o deadline new)
    (hover : (∀ number, d.waiting ≠ some (number, o)) →
      (∀ x ∈ new, x.event.runs? ≠ some o) ∧ ∀ number, d'.waiting ≠ some (number, o)) :
    Fate d' clock' o deadline (after ++ new) := by
  by_cases hended : Called deadline after ∨ ∃ x ∈ after, x.event.renews = true
  · -- It ran or was dropped before, so that it runs no more.
    rcases hover (h.closed hended) with ⟨hnew, hgone⟩
    have hrenewed : ¬ Called deadline after → ¬ ∀ x ∈ after, x.event.renews = false := by
      intro hnot hall
      rcases hended.resolve_left hnot with ⟨x, hx, hrenews⟩
      exact absurd ((hall x hx).symm.trans hrenews) (by decide)
    refine ⟨?_, ?_, ?_, fun _ => hgone⟩
    · have hold : (∃ x ∈ after ++ new, x.event.runs? = some o) ↔
          ∃ x ∈ after, x.event.runs? = some o := by
        simp only [List.mem_append, or_and_right, exists_or]
        exact or_iff_left fun ⟨x, hx, hruns⟩ => hnew x hx hruns
      rw [hold, h.runs_iff, called_append]
      tauto
    · intro x hx hevent
      rcases List.mem_append.mp hx with hx | hx
      · exact h.timely x hx hevent
      · exact absurd (congrArg Event.runs? hevent) (hnew x hx)
    · intro hnot hall
      rw [called_append, not_or] at hnot
      exact absurd (fun x hx => hall x (List.mem_append_left _ hx)) (hrenewed hnot.1)
  · -- It waits until now, and its fate is decided by what is new, if at all.
    rw [not_or] at hended
    have hall : ∀ x ∈ after, x.event.renews = false := fun x hx =>
      Bool.eq_false_iff.mpr fun hrenews => hended.2 ⟨x, hx, hrenews⟩
    have hnew := hwaits (h.waits hended.1 hall)
    have hnot : ¬ ∃ x ∈ after, x.event.runs? = some o := fun hruns => hended.1 (h.runs_iff.mp hruns)
    have hcalled : Called deadline (after ++ new) ↔ Called deadline new := by
      rw [called_append]
      tauto
    refine ⟨?_, ?_, fun hnot hall => ?_, fun hend => hnew.closed (hend.imp hcalled.mp ?_)⟩
    · rw [hcalled, ← hnew.runs_iff]
      simp only [List.mem_append, or_and_right, exists_or]
      exact or_iff_right hnot
    · intro x hx hevent
      rcases List.mem_append.mp hx with hx | hx
      · exact absurd ⟨x, hx, congrArg Event.runs? hevent⟩ hnot
      · exact hnew.timely x hx hevent
    · exact hnew.waits (fun hcall => hnot (hcalled.mpr hcall))
        fun x hx => hall x (List.mem_append_right _ hx)
    · rintro ⟨x, hx, hrenews⟩
      rcases List.mem_append.mp hx with hx | hx
      · exact absurd ⟨x, hx, hrenews⟩ hended.2
      · exact ⟨x, hx, hrenews⟩

/-- The fate of a callback stays the same while only time passes. -/
theorem Fate.pass (h : Fate d clock o deadline after)
    (hpass : Waits d clock o deadline → Waits d clock' o deadline) :
    Fate d clock' o deadline after :=
  ⟨h.runs_iff, h.timely, fun hnot hall => hpass (h.waits hnot hall), h.closed⟩

/-- A later call or a cancellation drops what waits. -/
theorem Fate.dropped (hrenews : event.renews = true)
    (hgone : ∀ number, d.waiting ≠ some (number, o)) :
    Fate d clock o deadline [⟨event, d, clock⟩] := by
  have hnot : ¬ Called deadline [(⟨event, d, clock⟩ : Entry τ κ)] ∧ event.runs? = none := by
    cases event with
    | flushed runs => exact nomatch hrenews
    | reached runs => exact nomatch hrenews
    | _ => exact ⟨fun hcalled => hcalled.elim id fun h => h.2, rfl⟩
  refine ⟨iff_of_false ?_ hnot.1, ?_, fun _ hall => ?_, fun _ => hgone⟩
  · rintro ⟨x, hx, hruns⟩
    rcases List.mem_singleton.mp hx with rfl
    exact nomatch hnot.2.symm.trans hruns
  · intro x hx hevent
    rcases List.mem_singleton.mp hx with rfl
    exact nomatch hnot.2.symm.trans (congrArg Event.runs? hevent)
  · exact nomatch hrenews.symm.trans (hall _ List.mem_cons_self)

/-- What is called runs. -/
theorem Fate.called (hruns : event.runs? = some o)
    (hcalls : Entry.Calls deadline ⟨event, d, clock⟩)
    (htimely : event = .reached (some o) → clock.now = deadline)
    (hgone : ∀ number, d.waiting ≠ some (number, o)) :
    Fate d clock o deadline [⟨event, d, clock⟩] := by
  have hcalled : Called deadline [(⟨event, d, clock⟩ : Entry τ κ)] := .inl hcalls
  refine ⟨iff_of_true ⟨_, List.mem_cons_self, hruns⟩ hcalled, ?_, fun hnot => absurd hcalled hnot,
    fun _ => hgone⟩
  intro x hx hevent
  rcases List.mem_singleton.mp hx with rfl
  exact htimely hevent

/-- What is not called goes on waiting. -/
theorem Fate.left (hcalls : ¬ deadline ≤ clock.now) (h : Waits d clock o deadline) :
    Fate d clock o deadline [⟨.reached none, d, clock⟩] := by
  have hnot : ¬ Called deadline [(⟨.reached none, d, clock⟩ : Entry τ κ)] :=
    fun hcalled => hcalled.elim hcalls fun h => h.2
  refine ⟨iff_of_false ?_ hnot, ?_, fun _ _ => h, fun hend => absurd hend ?_⟩
  · rintro ⟨x, hx, hruns⟩
    rcases List.mem_singleton.mp hx with rfl
    exact nomatch hruns
  · intro x hx hevent
    rcases List.mem_singleton.mp hx with rfl
    exact nomatch hevent
  · rintro (hcalled | ⟨x, hx, hrenews⟩)
    · exact hnot hcalled
    · rcases List.mem_singleton.mp hx with rfl
      exact nomatch hrenews

/-- How a debouncer, its clock and the record are at any time. -/
structure Sound [Add τ] (delay : τ) (w : Site τ κ) : Prop where
  /-- The delay stays the same. -/
  constant : w.rest.debouncer.delay = delay
  /-- Timer and callback are in step. -/
  stands : Stands w.rest.debouncer w.clock
  /-- What waits was handed over. -/
  called : ∀ number o, w.rest.debouncer.waiting = some (number, o) →
    ∃ s, w.rest.record[o.place]? = some s ∧ s.event = .scheduled o
  /-- It has not run. -/
  fresh : ∀ number o, w.rest.debouncer.waiting = some (number, o) →
    o.place ∉ ranPlaces w.rest.record
  /-- Every call has its place and its fate. -/
  fates : ∀ (i : Nat) (e : Entry τ κ) (o : Occurrence κ), w.rest.record[i]? = some e →
    e.event = .scheduled o →
    o.place = i ∧
      Fate w.rest.debouncer w.clock o (e.clock.now + delay) (w.rest.record.drop (i + 1))
  /-- What has run was handed over. -/
  known : ∀ (i : Nat) (e : Entry τ κ) (o : Occurrence κ), w.rest.record[i]? = some e →
    e.event.runs? = some o →
    o.place < i ∧ ∃ s, w.rest.record[o.place]? = some s ∧ s.event = .scheduled o
  /-- It ran once. -/
  once : (ranPlaces w.rest.record).Nodup
  /-- So it has been all the time. -/
  inStep : ∀ e ∈ w.rest.record, InStep e.debouncer e.clock
  /-- After a call that is refused, nothing waits. -/
  refused : ∀ e ∈ w.rest.record, e.event = .refused → e.debouncer.waiting = none

/-! ### Entries -/

variable [Add τ] {delay : τ} {w : Site τ κ}

theorem Sound.place_lt (h : Sound delay w) {number : Nat}
    (hwaiting : w.rest.debouncer.waiting = some (number, o)) :
    o.place < w.rest.record.length := by
  rcases h.called number o hwaiting with ⟨s, hs, -⟩
  exact (List.getElem?_eq_some_iff.mp hs).1

theorem Sound.ranPlaces_lt (h : Sound delay w) {place : Nat}
    (hplace : place ∈ ranPlaces w.rest.record) : place < w.rest.record.length := by
  rcases List.mem_map.mp hplace with ⟨o, ho, rfl⟩
  rcases List.mem_filterMap.mp ho with ⟨e, he, hruns⟩
  rcases List.getElem?_of_mem he with ⟨i, hi⟩
  exact (h.known i e o hi hruns).1.trans (List.getElem?_eq_some_iff.mp hi).1

/-- An entry that fits: what runs in it has waited, and what waits after it has waited before and
    did not run, or is handed over in it. -/
structure Fitting (delay : τ) (w : Site τ κ) (event : Event κ) (d : Debouncer τ (Occurrence κ))
    (clock : Clock τ Unit) : Prop where
  /-- The delay stays the same. -/
  constant : d.delay = delay
  /-- Timer and callback are in step. -/
  stands : Stands d clock
  /-- After a call that is refused, nothing waits. -/
  refused : event = .refused → d.waiting = none
  /-- What runs has waited. -/
  runs : ∀ o, event.runs? = some o → ∃ number, w.rest.debouncer.waiting = some (number, o)
  /-- What waits has waited before, or is handed over. -/
  left : ∀ number o, d.waiting = some (number, o) →
    w.rest.debouncer.waiting = some (number, o) ∧ event.runs? = none ∨ event = .scheduled o
  /-- What is handed over waits, with the place of the entry. -/
  scheduled : ∀ o, event = .scheduled o →
    o.place = w.rest.record.length ∧ Waits d clock o (clock.now + delay)
  /-- What has waited has its fate. -/
  fate : ∀ o deadline, Waits w.rest.debouncer w.clock o deadline →
    Fate d clock o deadline [⟨event, d, clock⟩]

theorem Sound.noted_called (h : Sound delay w) (hfit : Fitting delay w event d clock)
    {number : Nat} (hwaiting : d.waiting = some (number, o)) :
    ∃ s, (note event d clock w).rest.record[o.place]? = some s ∧ s.event = .scheduled o := by
  rcases hfit.left number o hwaiting with ⟨hwaiting, -⟩ | hevent
  · rcases h.called number o hwaiting with ⟨s, hs, hevent⟩
    exact ⟨s, getElem?_concat _ hs, hevent⟩
  · refine ⟨⟨event, d, clock⟩, ?_, hevent⟩
    rw [(hfit.scheduled o hevent).1]
    exact List.getElem?_concat_length

/-- What waits has not run, as its place is that of no call that ran. -/
theorem Sound.noted_fresh (h : Sound delay w) (hfit : Fitting delay w event d clock)
    {number : Nat} (hwaiting : d.waiting = some (number, o)) :
    o.place ∉ ranPlaces (note event d clock w).rest.record := by
  rw [note, ranPlaces_concat, List.mem_append, not_or]
  rcases hfit.left number o hwaiting with ⟨hwaiting, hnone⟩ | hevent
  · rw [hnone]
    exact ⟨h.fresh number o hwaiting, List.not_mem_nil⟩
  · refine ⟨fun hmem => ?_, ?_⟩
    · have hlt := h.ranPlaces_lt hmem
      rw [(hfit.scheduled o hevent).1] at hlt
      exact Nat.lt_irrefl _ hlt
    · rw [hevent]
      exact List.not_mem_nil

/-- The fate of an earlier call goes on, and a call that is entered has not met its fate. -/
theorem Sound.noted_fates (h : Sound delay w) (hfit : Fitting delay w event d clock) {i : Nat}
    {e : Entry τ κ} (hi : (note event d clock w).rest.record[i]? = some e)
    (hevent : e.event = .scheduled o) :
    o.place = i ∧ Fate d clock o (e.clock.now + delay)
      ((note event d clock w).rest.record.drop (i + 1)) := by
  rcases getElem?_concat_cases hi with ⟨hi, hlt⟩ | ⟨rfl, rfl⟩
  · rcases h.fates i e o hi hevent with ⟨hplace, hfated⟩
    refine ⟨hplace, ?_⟩
    rw [note, List.drop_append_of_le_length hlt]
    refine hfated.append (hfit.fate o _) fun hgone =>
      ⟨fun x hx hrun => ?_, fun number hwaiting => ?_⟩
    · rcases List.mem_singleton.mp hx with rfl
      rcases hfit.runs o hrun with ⟨number, hwaiting⟩
      exact hgone number hwaiting
    · rcases hfit.left number o hwaiting with ⟨hwaiting, -⟩ | hevent
      · exact hgone number hwaiting
      · -- What is handed over now has another place.
        have hnew := (hfit.scheduled o hevent).1
        omega
  · rcases hfit.scheduled o hevent with ⟨hplace, hwaits⟩
    refine ⟨hplace, ?_⟩
    rw [note, List.drop_of_length_le (by rw [List.length_append, List.length_singleton])]
    exact .nil hwaits

theorem Sound.noted_known (h : Sound delay w) (hfit : Fitting delay w event d clock) {i : Nat}
    {e : Entry τ κ} (hi : (note event d clock w).rest.record[i]? = some e)
    (hruns : e.event.runs? = some o) :
    o.place < i ∧
      ∃ s, (note event d clock w).rest.record[o.place]? = some s ∧ s.event = .scheduled o := by
  rcases getElem?_concat_cases hi with ⟨hi, -⟩ | ⟨rfl, rfl⟩
  · rcases h.known i e o hi hruns with ⟨hlt, s, hs, hscheduled⟩
    exact ⟨hlt, s, getElem?_concat _ hs, hscheduled⟩
  · rcases hfit.runs o hruns with ⟨number, hwaiting⟩
    rcases h.called number o hwaiting with ⟨s, hs, hscheduled⟩
    exact ⟨h.place_lt hwaiting, s, getElem?_concat _ hs, hscheduled⟩

theorem Sound.noted_once (h : Sound delay w) (hfit : Fitting delay w event d clock) :
    (ranPlaces (note event d clock w).rest.record).Nodup := by
  rw [note, ranPlaces_concat]
  cases hrun : event.runs? with
  | none =>
      rw [Option.map_none, Option.toList_none, List.append_nil]
      exact h.once
  | some o =>
      rcases hfit.runs o hrun with ⟨number, hwaiting⟩
      rw [Option.map_some, Option.toList_some, List.nodup_append]
      refine ⟨h.once, List.nodup_singleton _, fun place hplace place' hplace' => ?_⟩
      rcases List.mem_singleton.mp hplace' with rfl
      rintro rfl
      exact h.fresh number o hwaiting hplace

/-- An entry that fits keeps the invariant. -/
theorem Sound.noted (h : Sound delay w) (hfit : Fitting delay w event d clock) :
    Sound delay (note event d clock w) where
  constant := hfit.constant
  stands := hfit.stands
  called _ _ hwaiting := h.noted_called hfit hwaiting
  fresh _ _ hwaiting := h.noted_fresh hfit hwaiting
  fates _ _ _ hi hevent := h.noted_fates hfit hi hevent
  known _ _ _ hi hruns := h.noted_known hfit hi hruns
  once := h.noted_once hfit
  inStep e he := by
    rcases List.mem_append.mp he with he | he
    · exact h.inStep e he
    · rcases List.mem_singleton.mp he with rfl
      exact hfit.stands.inStep
  refused e he hevent := by
    rcases List.mem_append.mp he with he | he
    · exact h.refused e he hevent
    · rcases List.mem_singleton.mp he with rfl
      exact hfit.refused hevent

/-- So does an entry after which nothing waits. -/
theorem Sound.noted_idle (h : Sound delay w) (hqueue : clock.queue = [])
    (hevent : ∀ o, event ≠ .scheduled o)
    (hruns : ∀ o, event.runs? = some o → ∃ number, w.rest.debouncer.waiting = some (number, o))
    (hfate : ∀ o deadline, Waits w.rest.debouncer w.clock o deadline →
      event.renews = true ∨
        event.runs? = some o ∧ Entry.Calls deadline ⟨event, w.rest.debouncer.idle, clock⟩ ∧
          (event = .reached (some o) → clock.now = deadline)) :
    Sound delay (note event w.rest.debouncer.idle clock w) := by
  refine h.noted ⟨h.constant, .idle rfl hqueue, fun _ => rfl, hruns, fun number o hwaiting => ?_,
    fun o hscheduled => absurd hscheduled (hevent o), fun o deadline hwaits => ?_⟩
  · exact nomatch hwaiting
  · rcases hfate o deadline hwaits with hrenews | ⟨hruns, hcalls, htimely⟩
    · exact .dropped hrenews fun _ hwaiting => nomatch hwaiting
    · exact .called hruns hcalls htimely fun _ hwaiting => nomatch hwaiting

end Invariant

/-! ### Runs -/

section Runs

variable [AddCommGroup τ] [LinearOrder τ] {delay : τ} {w : Site τ κ}
  {run : κ → Site τ κ → Site τ κ × Option Fault}

theorem Sound.fresh_site (delay now : τ) : Sound delay (Site.fresh delay now : Site τ κ) where
  constant := rfl
  stands := .idle rfl rfl
  called _ _ hwaiting := nomatch hwaiting
  fresh _ _ hwaiting := nomatch hwaiting
  fates _ _ _ hi := nomatch hi
  known _ _ _ hi := nomatch hi
  once := List.nodup_nil
  inStep _ he := nomatch he
  refused _ he := nomatch he

theorem Sound.hand (hrun : ∀ callback w, Sound delay w → Sound delay (run callback w).1)
    (runs : Option (Occurrence κ)) (h : Sound delay w) :
    Sound delay (hand run runs w).1 := by
  cases runs with
  | none => exact h
  | some o => exact hrun o.callback w h

/-- Time passes as long as nothing is due. -/
theorem Sound.pass (h : Sound delay w) {target : τ} (htake : w.clock.take? target = none) :
    Sound delay { w with clock := { w.clock with now := target } } := by
  have hpass : ∀ {o deadline}, Waits w.rest.debouncer w.clock o deadline →
      Waits w.rest.debouncer { w.clock with now := target } o deadline := by
    rintro o deadline ⟨number, hwaiting, hqueue, -⟩
    refine ⟨number, hwaiting, hqueue, Clock.late_of_take? (w := ⟨deadline, number, ()⟩) htake ?_⟩
    rw [hqueue]
    exact List.mem_cons_self
  refine ⟨h.constant, ?_, h.called, h.fresh, fun i e o hi hevent => ?_, h.known, h.once, h.inStep,
    h.refused⟩
  · cases h.stands with
    | idle hwaiting hqueue => exact .idle hwaiting hqueue
    | waits o deadline hwaits => exact .waits o deadline (hpass hwaits)
  · rcases h.fates i e o hi hevent with ⟨hplace, hfate⟩
    exact ⟨hplace, hfate.pass hpass⟩

/-- The time to which the clock was moved is entered. -/
theorem Sound.arrive (h : Sound delay w) :
    Sound delay (note (.reached none) w.rest.debouncer w.clock w) := by
  refine h.noted ⟨h.constant, h.stands, fun hevent => (by cases hevent),
    fun _ hruns => (by cases hruns), fun number o hwaiting => .inl ⟨hwaiting, rfl⟩,
    fun _ hevent => (by cases hevent), fun o deadline hwaits => ?_⟩
  exact .left (not_le_of_gt hwaits.choose_spec.2.2) hwaits

/-- The timer of what waits goes off. -/
theorem Sound.strike (hrun : ∀ callback w, Sound delay w → Sound delay (run callback w).1)
    (h : Sound delay w) {target : τ} {waiting : Waiting τ Unit} {clock : Clock τ Unit}
    (htake : w.clock.take? target = some (waiting, clock)) :
    Sound delay (strike run waiting.action { w with clock }).1 := by
  rcases Clock.take?_spec htake with ⟨hmem, hclock⟩
  cases h.stands with
  | idle hwaiting hqueue =>
      rw [hqueue] at hmem
      exact absurd hmem List.not_mem_nil
  | waits o deadline hwaits =>
      rcases hwaits with ⟨number, hwaiting, hqueue, -⟩
      rw [hqueue] at hmem
      rcases List.mem_singleton.mp hmem with rfl
      have hempty : clock.queue = [] := by
        rw [hclock]
        simp only [Clock.cancel, hqueue, List.filter_cons, bne_self_eq_false, Bool.false_eq_true,
          if_false, List.filter_nil]
      have hnow : clock.now = deadline := by rw [hclock]
      have hgoOff : w.rest.debouncer.goOff = (w.rest.debouncer.idle, some o) := by
        rw [goOff, hwaiting, Option.map_some]
      rw [Debouncer.strike]
      simp only [hgoOff]
      refine .hand hrun _ (h.noted_idle hempty (fun _ hevent => by cases hevent)
        (fun o' hruns => ⟨number, Option.some.inj hruns ▸ hwaiting⟩) fun o' deadline' hwaits' => ?_)
      rcases hwaits' with ⟨number', hwaiting', hqueue', -⟩
      rcases Prod.mk.inj (Option.some.inj (hwaiting.symm.trans hwaiting')) with ⟨rfl, rfl⟩
      rcases List.cons.inj (hqueue.symm.trans hqueue') with ⟨hsame, -⟩
      rcases Waiting.mk.inj hsame with ⟨rfl, -⟩
      exact .inr ⟨rfl, hnow.ge, fun _ => hnow⟩

variable [IsOrderedAddMonoid τ]

/-- What is asked of the debouncer keeps the invariant. -/
theorem Sound.grant (hdelay : 0 < delay)
    (hrun : ∀ callback w, Sound delay w → Sound delay (run callback w).1)
    (h : Sound delay w) (wish : Wish κ) : Sound delay (grant run w wish).1 := by
  have hcancel := fun refusal => cancel_of_stands h.stands refusal
  cases wish with
  | schedule callback refusal =>
      cases refusal with
      | none =>
          have hpos : 0 < w.rest.debouncer.delay := h.constant.symm ▸ hdelay
          rw [Debouncer.grant]
          simp only [schedule_granted h.stands hpos, h.constant]
          have hwaits : Waits
              { delay, waiting := some (w.clock.next, ⟨callback, w.rest.record.length⟩) }
              { w.clock with
                queue := [⟨w.clock.now + delay, w.clock.next, ()⟩], next := w.clock.next + 1 }
              ⟨callback, w.rest.record.length⟩ (w.clock.now + delay) :=
            ⟨_, rfl, rfl, lt_add_of_pos_right _ hdelay⟩
          refine h.noted ⟨rfl, .waits _ _ hwaits, fun hevent => (by cases hevent),
            fun _ hruns => (by cases hruns), fun number o hwaiting => .inr ?_, fun o hevent => ?_,
            fun o deadline hold => .dropped rfl fun number hwaiting => ?_⟩
          · exact congrArg Event.scheduled (Prod.mk.inj (Option.some.inj hwaiting)).2
          · rcases Event.scheduled.inj hevent with rfl
            exact ⟨rfl, hwaits⟩
          · -- What waited before has an earlier place.
            rcases hold with ⟨number', hwaiting', -⟩
            have hlt := h.place_lt hwaiting'
            rw [← (Prod.mk.inj (Option.some.inj hwaiting)).2] at hlt
            exact Nat.lt_irrefl _ hlt
      | some fault =>
          rw [Debouncer.grant]
          simp only [schedule_refused h.stands]
          exact h.noted_idle rfl (fun _ hevent => by cases hevent) (fun _ hruns => by cases hruns)
            fun _ _ _ => .inl rfl
  | cancel =>
      rw [Debouncer.grant, hcancel]
      exact h.noted_idle rfl (fun _ hevent => by cases hevent) (fun _ hruns => by cases hruns)
        fun o deadline _ => .inl rfl
  | flush =>
      rw [Debouncer.grant, flush, hcancel]
      refine .hand hrun _ (h.noted_idle rfl (fun _ hevent => by cases hevent)
        (fun o hruns => waiting_iff.mp hruns) fun o deadline hwaits => ?_)
      rcases hwaits with ⟨number, hwaiting, -⟩
      exact .inr ⟨waiting_iff.mpr ⟨number, hwaiting⟩, trivial, fun hevent => by cases hevent⟩

theorem Sound.follow (hdelay : 0 < delay)
    (hrun : ∀ callback w, Sound delay w → Sound delay (run callback w).1) (routine : Routine τ κ)
    (h : Sound delay w) : Sound delay (follow run routine w).1 := by
  induction routine generalizing w with
  | ends fault => exact h
  | asks wish next ih => exact ih _ _ (h.grant hdelay hrun wish)

/-- Callbacks keep the invariant, however deep they run inside each other. -/
theorem Sound.perform (hdelay : 0 < delay) (routine : κ → Site τ κ → Routine τ κ) (depth : Nat)
    (callback : κ) (h : Sound delay w) : Sound delay (perform routine depth callback w).1 := by
  induction depth generalizing callback w with
  | zero => exact h
  | succ depth ih => exact h.follow hdelay (fun callback w h => ih callback h) _

/-- So do users. -/
theorem Sound.move (hdelay : 0 < delay)
    (hrun : ∀ callback w, Sound delay w → Sound delay (run callback w).1) (h : Sound delay w)
    (m : Move τ κ) : Sound delay (move run w m) := by
  cases m with
  | ask wish => exact h.grant hdelay hrun wish
  | advance fuel span =>
      have hmoved : Sound delay (Clock.advance (Debouncer.strike run) fuel span w).world :=
        Clock.drain_keeps (fun _ h htake => h.pass htake)
          (fun _ waiting clock h htake => h.strike hrun htake) fuel h
      rw [Debouncer.move]
      generalize Clock.advance (Debouncer.strike run) fuel span w = movement at hmoved
      rcases movement with ⟨w', ran, ending⟩
      cases ending with
      | done => exact hmoved.arrive
      | failed fault => exact hmoved
      | unfinished => exact hmoved

theorem Sound.moves (hdelay : 0 < delay)
    (hrun : ∀ callback w, Sound delay w → Sound delay (run callback w).1)
    (moves : List (Move τ κ)) (h : Sound delay w) :
    Sound delay (moves.foldl (Debouncer.move run) w) := by
  induction moves generalizing w with
  | nil => exact h
  | cons m moves ih => exact ih (h.move hdelay hrun m)

/-- Of the callbacks that are handed to a debouncer at a clock, whatever users and callbacks
    do to it, just those run that are called before another call or a cancellation, each of
    them once; what a timer runs, it runs when the delay is over. The debouncer waits just
    while the clock has a timer, which is never more than one. -/
theorem bursts_coalesce (routine : κ → Site τ κ → Routine τ κ) (depth : Nat) (hdelay : 0 < delay)
    (now : τ) (moves : List (Move τ κ)) :
    let w := moves.foldl (move (Debouncer.perform routine depth)) (Site.fresh delay now)
    Coalesced delay w.rest.record ∧ InStep w.rest.debouncer w.clock := by
  intro w
  have h : Sound delay w := Sound.moves hdelay
    (fun callback _ h => h.perform hdelay routine depth callback) moves (.fresh_site delay now)
  refine ⟨⟨fun i e o hi hevent => (h.fates i e o hi hevent).1, h.known, h.once,
    fun i e o hi hevent => (h.fates i e o hi hevent).2.runs_iff,
    fun i e o hi hevent x hx hran => ?_, h.inStep, fun e he hevent => ?_⟩, h.stands.inStep⟩
  · -- What runs stands behind the call.
    rcases h.fates i e o hi hevent with ⟨hplace, hfate⟩
    rcases List.getElem?_of_mem hx with ⟨j, hj⟩
    have hlt := (h.known j x o hj (congrArg Event.runs? hran)).1
    refine hfate.timely x (List.mem_iff_getElem?.mpr ⟨j - (i + 1), ?_⟩) hran
    rw [List.getElem?_drop, show i + 1 + (j - (i + 1)) = j by omega, hj]
  · have hnone : e.debouncer.pending = false := by
      rw [pending, h.refused e he hevent, Option.isSome_none]
    refine ⟨hnone, ?_⟩
    have hstep := h.inStep e he
    have hone : e.clock.pending ≠ 1 := fun hone =>
      Bool.false_ne_true (hnone.symm.trans (hstep.1.mpr hone))
    have hle := hstep.2
    omega

end Runs

/-- The second callback hands over a third and flushes it. -/
def chained (callback : String) (_ : Site Int String) : Routine Int String :=
  if callback = "second" then
    .asks (.schedule "third" none) fun _ _ => .asks .flush fun _ _ => .ends none
  else .ends none

/-- The first is replaced in time, the fourth is dropped by a call that is refused. -/
def handovers : List (Move Int String) :=
  [.ask (.schedule "first" none), .advance 9 6, .ask (.schedule "second" none), .advance 9 30,
    .ask (.schedule "fourth" none), .ask (.schedule "fifth" (some (.refused "no timer"))),
    .advance 9 30]

/-- The second runs at its time, and the third inside of it. -/
theorem handovers_coalesce :
    let w := handovers.foldl (move (Debouncer.perform chained 3)) (Site.fresh 10 0)
    (0 : Int) < 10 ∧
      (w.rest.record.filterMap fun e => e.event.runs?.map fun o => (o.callback, e.clock.now))
        = [("second", 16), ("third", 16)] ∧
      Coalesced 10 w.rest.record ∧ InStep w.rest.debouncer w.clock :=
  ⟨by decide, by decide, bursts_coalesce chained 3 (by decide) 0 handovers⟩

end Debouncer

end WidgetSync
