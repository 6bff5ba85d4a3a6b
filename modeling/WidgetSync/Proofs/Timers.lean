import WidgetSync.Proofs.Faithful
import WidgetSync.Proofs.News

/-!
# Timers

Which timers an arbiter has running, and what may happen to it.

Nothing is said here about how time passes. A world has a roster of the timers that
run, whatever keeps it: a clock moved by hand, or a service of a host. Starting a
timer enters it under a number that no timer has had before, cancelling strikes it
out, and when a timer goes off it is struck out too. Collaborators may do anything
but set off timers.

An arbiter is wound if each timer that runs for it is the one that it waits for. This is kept by
everything that can be asked of it, whatever its collaborators call back. So when
it waits for nothing, no timer runs, and no timer that was started before ever goes
off.

## Main definitions

* `Roster`, `Host.Timed`: The timers that run in a world, and who changes them.
* `Session.Wound`: The timers that run are those that the arbiter waits for.
* `Session.Leads`: What may happen to an arbiter, and which timers go off.
* `Session.Reached`: The states in which an arbiter can be.

## Theorems

* `Session.Wound.call`, `Session.serve_wound`: Calls keep an arbiter wound.
* `Session.Wound.fired`: So does a timer that goes off.
* `Session.call_rests`: A call leaves the arbiter in its phase, or idle.
* `Session.Leads.wound`, `Session.Reached.wound`: Every run keeps it wound.
* `Session.Wound.anew`: Where nothing waits, nothing is left of earlier timers.
-/

namespace WidgetSync

variable {δ κ σ : Type}

/-- A call that somebody makes, and not a timer. -/
def Call.Asked : Call κ → Prop
  | .goOff _ => False
  | _ => True

/-- The timers that run in a world. -/
structure Roster (σ : Type) where
  /-- The numbers of the timers that run, and the sides that they run for. -/
  running : σ → List (Nat × Side)
  /-- A number that no timer has had yet, nor any greater one. -/
  next : σ → Nat

/-- The same timers run in the second world as in the first one. -/
structure Roster.Same (roster : Roster σ) (before after : σ) : Prop where
  running : roster.running after = roster.running before
  next : roster.next before ≤ roster.next after

namespace Roster.Same

variable {roster : Roster σ}

theorem refl (w : σ) : roster.Same w w :=
  ⟨rfl, Nat.le_refl _⟩

theorem trans {w w' w'' : σ} (h : roster.Same w w') (h' : roster.Same w' w'') :
    roster.Same w w'' :=
  ⟨h'.running.trans h.running, Nat.le_trans h.next h'.next⟩

end Roster.Same

/-- A collaborator that lets the timers be. What it calls may still change them. -/
structure Reaction.Spares (roster : Roster σ) (w : σ) (r : Reaction κ σ) : Prop where
  same : roster.Same w r.outside
  calls : ∀ c ∈ r.calls, c.Asked

/-- Collaborators among which nobody but the service of timers has to do with timers. -/
structure Host.Timed (host : Host δ κ σ) (roster : Roster σ) (delay : δ) : Prop where
  /-- A timer that is started gets a new number. -/
  after : ∀ side w number w', host.timers.after delay side w = .ok (number, w') →
    roster.running w' = roster.running w ++ [(number, side)] ∧
    roster.next w ≤ number ∧ number < roster.next w'
  /-- A timer that is cancelled does not run. -/
  cancel : ∀ number w,
    roster.running (host.timers.cancel number w)
      = (roster.running w).filter (fun timer => timer.1 != number) ∧
    roster.next w ≤ roster.next (host.timers.cancel number w)
  /-- The document lets the timers be. -/
  replace : ∀ arbiter text w, (host.replace arbiter text w).Spares roster w
  /-- So do the consumers. -/
  consume : ∀ consumer arbiter nodes w, (host.consume consumer arbiter nodes w).Spares roster w
  /-- So does the format. -/
  read : ∀ text w, roster.Same w (host.read text w).2
  write : ∀ d w, roster.Same w (host.write d w).2

namespace Arbiter

@[simp]
theorem timer_setTimer (a : Arbiter δ κ) (d : Debouncer δ Unit) (side : Side) :
    (a.setTimer d side).timer side = d := by
  cases side with
  | text => rfl
  | tree => rfl

theorem timer_setTimer_ne (a : Arbiter δ κ) (d : Debouncer δ Unit) {side other : Side}
    (h : other ≠ side) : (a.setTimer d side).timer other = a.timer other := by
  cases side with
  | text =>
      cases other with
      | text => exact absurd rfl h
      | tree => rfl
  | tree =>
      cases other with
      | text => rfl
      | tree => exact absurd rfl h

theorem setTimer_setTimer (a : Arbiter δ κ) (d d' : Debouncer δ Unit) (side : Side) :
    (a.setTimer d side).setTimer d' side = a.setTimer d' side := by
  cases side with
  | text => rfl
  | tree => rfl

/-- The arbiter waits for a timer. -/
def Awaits (a : Arbiter δ κ) (number : Nat) : Prop :=
  ∃ side, (a.timer side).waiting = some (number, ())

/-- Where nothing is pending, no timer is waited for. -/
theorem waiting_of_pending {a : Arbiter δ κ} (h : a.pending = false) (side : Side) :
    (a.timer side).waiting = none := by
  rcases Bool.or_eq_false_iff.mp h with ⟨htext, htree⟩
  cases side with
  | text => exact Option.not_isSome_iff_eq_none.mp (Bool.eq_false_iff.mp htext)
  | tree => exact Option.not_isSome_iff_eq_none.mp (Bool.eq_false_iff.mp htree)

end Arbiter

namespace Session

/-- Each timer that runs is the one that the arbiter waits for on its side. Its timers have a
    delay, and it waits for none with a number below the first. -/
structure Wound (roster : Roster σ) (delay : δ) (first : Nat) (s : Session δ κ σ) : Prop where
  delay : ∀ side, (s.arbiter.timer side).delay = delay
  running : ∀ number side, (number, side) ∈ roster.running s.outside →
    (s.arbiter.timer side).waiting = some (number, ())
  recent : ∀ side number, (s.arbiter.timer side).waiting = some (number, ()) →
    first ≤ number ∧ number < roster.next s.outside
  first : first ≤ roster.next s.outside

variable {host : Host δ κ σ} {roster : Roster σ} {delay : δ} {first : Nat}
  {inner : Call κ → Session δ κ σ → Served δ κ σ} {s : Session δ κ σ}

/-- Calls inside calls keep an arbiter wound. -/
def Winds (roster : Roster σ) (delay : δ) (first : Nat)
    (inner : Call κ → Session δ κ σ → Served δ κ σ) : Prop :=
  ∀ c s, c.Asked → s.Wound roster delay first → (inner c s).1.Wound roster delay first

namespace Wound

/-- An arbiter stays wound while neither its timers nor those of the world change. -/
theorem of_same (h : s.Wound roster delay first) {s' : Session δ κ σ}
    (htext : s'.arbiter.textTimer = s.arbiter.textTimer)
    (htree : s'.arbiter.treeTimer = s.arbiter.treeTimer)
    (hsame : roster.Same s.outside s'.outside) : s'.Wound roster delay first := by
  have htimer : ∀ side, s'.arbiter.timer side = s.arbiter.timer side := by
    intro side
    cases side with
    | text => exact htext
    | tree => exact htree
  refine ⟨fun side => ?_, fun number side hrunning => ?_, fun side number hwaiting => ?_,
    Nat.le_trans h.first hsame.next⟩
  · rw [htimer]
    exact h.delay side
  · rw [htimer]
    exact h.running number side (hsame.running ▸ hrunning)
  · rw [htimer] at hwaiting
    rcases h.recent side number hwaiting with ⟨hfirst, hnext⟩
    exact ⟨hfirst, Nat.lt_of_lt_of_le hnext hsame.next⟩

/-- So it does while nothing changes but the rest of its state. -/
theorem of_arbiter (h : s.Wound roster delay first) {s' : Session δ κ σ}
    (htext : s'.arbiter.textTimer = s.arbiter.textTimer)
    (htree : s'.arbiter.treeTimer = s.arbiter.treeTimer) (houtside : s'.outside = s.outside) :
    s'.Wound roster delay first :=
  h.of_same htext htree (houtside ▸ .refl _)

theorem update (h : s.Wound roster delay first) (f : Arbiter δ κ → Arbiter δ κ)
    (htext : ∀ a, (f a).textTimer = a.textTimer) (htree : ∀ a, (f a).treeTimer = a.treeTimer) :
    (update f s).Wound roster delay first :=
  h.of_arbiter (htext _) (htree _) rfl

theorem enter (h : s.Wound roster delay first) (phase : Phase) :
    (enter phase s).Wound roster delay first :=
  h.of_arbiter rfl rfl rfl

theorem remember (h : s.Wound roster delay first) (fault : Option Fault) :
    (remember fault s).Wound roster delay first :=
  h.of_arbiter rfl rfl rfl

theorem agreeOn (h : s.Wound roster delay first) (text : String) :
    (agreeOn text s).Wound roster delay first :=
  h.of_arbiter rfl rfl rfl

theorem setPending (h : s.Wound roster delay first) (nodes : Option Forest) :
    (setPending nodes s).Wound roster delay first :=
  h.of_arbiter rfl rfl rfl

/-- A side whose timer is struck out waits for none. -/
theorem strike (h : s.Wound roster delay first) (side : Side) {number : Nat} {w : σ}
    (hwaiting : (s.arbiter.timer side).waiting = some (number, ()))
    (hstruck : roster.running w
      = (roster.running s.outside).filter (fun timer => timer.1 != number))
    (hnext : roster.next s.outside ≤ roster.next w) :
    (⟨s.arbiter.setTimer (s.arbiter.timer side).idle side, w⟩ : Session δ κ σ).Wound
      roster delay first := by
  refine ⟨fun other => ?_, fun n other hother => ?_, fun other n hn => ?_,
    Nat.le_trans h.first hnext⟩
  · by_cases heq : other = side
    · rw [heq, Arbiter.timer_setTimer]
      exact h.delay side
    · rw [Arbiter.timer_setTimer_ne _ _ heq]
      exact h.delay other
  · rw [hstruck, List.mem_filter, bne_iff_ne] at hother
    have hn := h.running n other hother.1
    -- The side itself waited for the timer that is struck out, and for no other.
    have hne : other ≠ side := by
      rintro rfl
      exact hother.2 (congrArg Prod.fst (Option.some.inj (hn.symm.trans hwaiting)))
    rw [Arbiter.timer_setTimer_ne _ _ hne]
    exact hn
  · by_cases heq : other = side
    · rw [heq, Arbiter.timer_setTimer, Debouncer.idle] at hn
      exact absurd hn.symm (Option.some_ne_none _)
    · rw [Arbiter.timer_setTimer_ne _ _ heq] at hn
      rcases h.recent other n hn with ⟨hfirst, hbefore⟩
      exact ⟨hfirst, Nat.lt_of_lt_of_le hbefore hnext⟩

/-- A side that waits for no timer may start one. -/
theorem arm (h : s.Wound roster delay first) (side : Side)
    (hidle : (s.arbiter.timer side).waiting = none) {number : Nat} {w : σ}
    (hrunning : roster.running w = roster.running s.outside ++ [(number, side)])
    (hnumber : roster.next s.outside ≤ number ∧ number < roster.next w) :
    (⟨s.arbiter.setTimer { delay, waiting := some (number, ()) } side, w⟩ : Session δ κ σ).Wound
      roster delay first := by
  have hnext : roster.next s.outside ≤ roster.next w :=
    Nat.le_of_lt (Nat.lt_of_le_of_lt hnumber.1 hnumber.2)
  refine ⟨fun other => ?_, fun n other hother => ?_, fun other n hwaiting => ?_,
    Nat.le_trans h.first hnext⟩
  · by_cases heq : other = side
    · rw [heq, Arbiter.timer_setTimer]
    · rw [Arbiter.timer_setTimer_ne _ _ heq]
      exact h.delay other
  · rw [hrunning, List.mem_append, List.mem_singleton] at hother
    rcases hother with hbefore | hnew
    · have hwaiting := h.running n other hbefore
      -- The side waited for none, so what ran before ran for the other one.
      have hne : other ≠ side := by
        rintro rfl
        exact nomatch hidle.symm.trans hwaiting
      rw [Arbiter.timer_setTimer_ne _ _ hne]
      exact hwaiting
    · rcases Prod.mk.inj hnew with ⟨rfl, rfl⟩
      rw [Arbiter.timer_setTimer]
  · by_cases heq : other = side
    · rw [heq, Arbiter.timer_setTimer] at hwaiting
      rcases Prod.mk.inj (Option.some.inj hwaiting) with ⟨rfl, -⟩
      exact ⟨Nat.le_trans h.first hnumber.1, hnumber.2⟩
    · rw [Arbiter.timer_setTimer_ne _ _ heq] at hwaiting
      rcases h.recent other n hwaiting with ⟨hfirst, hbefore⟩
      exact ⟨hfirst, Nat.lt_of_lt_of_le hbefore hnext⟩

/-- Where nothing waits, no timer runs. -/
theorem running_nil (h : s.Wound roster delay first) (hidle : s.arbiter.pending = false) :
    roster.running s.outside = [] := by
  refine List.eq_nil_iff_forall_not_mem.mpr fun timer htimer => ?_
  have hwaiting := h.running timer.1 timer.2 htimer
  rw [Arbiter.waiting_of_pending hidle] at hwaiting
  exact nomatch hwaiting

/-- Where nothing waits, only timers to come will be waited for. -/
theorem anew (h : s.Wound roster delay first) (hidle : s.arbiter.pending = false) :
    s.Wound roster delay (roster.next s.outside) where
  delay := h.delay
  running := h.running
  recent side number hwaiting := by
    rw [Arbiter.waiting_of_pending hidle] at hwaiting
    exact nomatch hwaiting
  first := Nat.le_refl _

/-- A timer that is waited for has a number. -/
theorem awaits (h : s.Wound roster delay first) {number : Nat}
    (hwaiting : s.arbiter.Awaits number) : first ≤ number ∧ number < roster.next s.outside := by
  rcases hwaiting with ⟨side, hwaiting⟩
  exact h.recent side number hwaiting

end Wound

/-! ### Operations -/

/-- A side that is cancelled waits for no timer. -/
theorem cancel_waiting (host : Host δ κ σ) (side : Side) (s : Session δ κ σ) :
    ((cancel host side s).arbiter.timer side).waiting = none := by
  rw [cancel]
  simp only [Arbiter.timer_setTimer, Debouncer.cancel_fst]
  rfl

/-- Cancelling a side does not change the other one. -/
theorem cancel_other (host : Host δ κ σ) {side other : Side} (h : other ≠ side)
    (s : Session δ κ σ) : (cancel host side s).arbiter.timer other = s.arbiter.timer other :=
  Arbiter.timer_setTimer_ne _ _ h

/-- When everything is cancelled, nothing is pending. -/
theorem cancelAll_pending (host : Host δ κ σ) (s : Session δ κ σ) :
    (cancelAll host s).arbiter.pending = false := by
  have htree := cancel_waiting host .tree (cancel host .text s)
  have htext : ((cancel host .tree (cancel host .text s)).arbiter.timer .text).waiting = none := by
    rw [cancel_other host (by decide)]
    exact cancel_waiting host .text s
  exact Bool.or_eq_false_iff.mpr
    ⟨Option.isSome_eq_false_iff.mpr (Option.isNone_iff_eq_none.mpr htext),
      Option.isSome_eq_false_iff.mpr (Option.isNone_iff_eq_none.mpr htree)⟩

/-- A side waits for its former timer no longer, and for a new one if one can be had. -/
theorem schedule_eq (host : Host δ κ σ) (inner : Call κ → Session δ κ σ → Served δ κ σ)
    (side : Side) (s : Session δ κ σ) :
    schedule host inner side s =
      let c := cancel host side s
      let d := c.arbiter.timer side
      match host.timers.after d.delay side c.outside with
      | .ok (number, w) =>
        (⟨c.arbiter.setTimer { d with waiting := some (number, ()) } side, w⟩, none)
      | .error (.refused _) => (propagate host inner side c, none)
      | .error fault => (c, some fault) := by
  rw [schedule, Debouncer.schedule, cancel]
  rcases (s.arbiter.timer side).cancel host.timers s.outside with ⟨d, w⟩
  simp only [Arbiter.timer_setTimer, Arbiter.setTimer_setTimer]
  cases host.timers.after d.delay side w with
  | error fault =>
      cases fault with
      | _ => rfl
  | ok started => rfl

/-- A side that is flushed is cancelled first. -/
theorem flushSide_eq (host : Host δ κ σ) (inner : Call κ → Session δ κ σ → Served δ κ σ)
    (side : Side) (s : Session δ κ σ) :
    flushSide host inner side s =
      if (s.arbiter.timer side).pending then propagate host inner side (cancel host side s)
      else cancel host side s := by
  rw [flushSide, Debouncer.flush, Debouncer.pending, cancel]
  cases (s.arbiter.timer side).waiting with
  | none => rfl
  | some waiting => rfl

namespace Wound

section Operations

variable (hhost : host.Timed roster delay)
include hhost

theorem cancel (side : Side) (h : s.Wound roster delay first) :
    (cancel host side s).Wound roster delay first := by
  rw [Session.cancel, Debouncer.cancel]
  cases hwaiting : (s.arbiter.timer side).waiting with
  | none =>
      simp only [Arbiter.setTimer_timer]
      exact h
  | some waiting =>
      rcases hhost.cancel waiting.1 s.outside with ⟨hrunning, hnext⟩
      exact h.strike side hwaiting hrunning hnext

theorem cancelAll (h : s.Wound roster delay first) :
    (cancelAll host s).Wound roster delay first :=
  ((h.cancel hhost .text).cancel hhost .tree).setPending none

variable (hinner : Winds roster delay first inner)
include hinner

omit hhost in
theorem serveAll (h : s.Wound roster delay first) {calls : List (Call κ)}
    (hcalls : ∀ c ∈ calls, c.Asked) : (serveAll inner calls s).1.Wound roster delay first := by
  induction calls generalizing s with
  | nil => exact h
  | cons c calls ih =>
      have hserved := hinner c s (hcalls c List.mem_cons_self) h
      rw [Session.serveAll]
      generalize inner c s = served at hserved ⊢
      rcases served with ⟨s', fault⟩
      cases fault with
      | none => exact ih hserved fun c hc => hcalls c (List.mem_cons_of_mem _ hc)
      | some fault => exact hserved

omit hhost in
theorem react (h : s.Wound roster delay first) {r : Reaction κ σ} (hr : r.Spares roster s.outside) :
    (react inner r s).1.Wound roster delay first := by
  have hleft : (⟨s.arbiter, r.outside⟩ : Session δ κ σ).Wound roster delay first :=
    h.of_same rfl rfl hr.same
  have hserved := hleft.serveAll hinner hr.calls
  rw [Session.react]
  generalize Session.serveAll inner r.calls { s with outside := r.outside } = served at hserved ⊢
  rcases served with ⟨s', fault⟩
  cases fault with
  | none => exact hserved
  | some fault => exact hserved

theorem showTo (h : s.Wound roster delay first) (nodes : Forest) (consumer : κ) :
    (showTo host inner nodes s consumer).Wound roster delay first := by
  have hreacted := h.react hinner (hhost.consume consumer s.arbiter nodes s.outside)
  rw [Session.showTo]
  generalize Session.react inner (host.consume consumer s.arbiter nodes s.outside) s = served
    at hreacted ⊢
  rcases served with ⟨s', fault⟩
  cases fault with
  | none => exact hreacted
  | some fault => exact hreacted.remember (some fault)

theorem push (h : s.Wound roster delay first) (nodes : Forest) :
    (push host inner nodes s).Wound roster delay first := by
  rw [Session.push]
  generalize s.arbiter.consumers = consumers
  induction consumers generalizing s with
  | nil => exact h
  | cons consumer consumers ih => exact ih (h.showTo hhost hinner nodes consumer)

theorem loadText (h : s.Wound roster delay first) (text : String) :
    (loadText host inner text s).1.Wound roster delay first := by
  have hsame := hhost.read text s.outside
  rw [Session.loadText]
  generalize host.read text s.outside = answer at hsame ⊢
  rcases answer with ⟨document, w⟩
  have hread : (⟨s.arbiter, w⟩ : Session δ κ σ).Wound roster delay first :=
    h.of_same rfl rfl hsame
  cases document with
  | error fault => exact hread
  | ok d =>
      let load (a : Arbiter δ κ) : Arbiter δ κ := { a with nodes := d.nodes, window := d.window }
      exact (hread.update load (fun _ => rfl) (fun _ => rfl)).push hhost hinner d.nodes

theorem writeTree (h : s.Wound roster delay first) (nodes : Forest) :
    (writeTree host inner nodes s).1.Wound roster delay first := by
  have hsame := hhost.write ⟨s.arbiter.window, nodes⟩ s.outside
  rw [Session.writeTree]
  generalize host.write ⟨s.arbiter.window, nodes⟩ s.outside = answer at hsame ⊢
  rcases answer with ⟨written, w⟩
  have hwritten : (⟨s.arbiter, w⟩ : Session δ κ σ).Wound roster delay first :=
    h.of_same rfl rfl hsame
  cases written with
  | error fault => exact hwritten
  | ok text => exact (hwritten.agreeOn text).react hinner (hhost.replace _ text w)

omit hhost hinner in
theorem settle {served : Served δ κ σ} (h : served.1.Wound roster delay first) :
    (settle served).Wound roster delay first := by
  rcases served with ⟨s, fault⟩
  cases fault with
  | none => exact h.enter .idle
  | some fault => exact (h.remember (some fault)).enter .idle

theorem propagateText (h : s.Wound roster delay first) :
    (propagateText host inner s).Wound roster delay first := by
  rw [Session.propagateText]
  split
  · exact h
  · have hentered := ((h.cancel hhost .tree).setPending none).enter .textToTree
    simp only
    split
    · refine Wound.settle ?_
      exact hentered
    · exact (((hentered.agreeOn _).remember none).loadText hhost hinner _).settle

theorem propagateTree (h : s.Wound roster delay first) :
    (propagateTree host inner s).Wound roster delay first := by
  rw [Session.propagateTree]
  split
  · exact h.setPending none
  · have hcancelled := h.cancel hhost .text
    simp only
    split
    · exact hcancelled
    · have hentered := (hcancelled.setPending none).enter .treeToText
      have hready := fun nodes : Forest =>
        (hentered.update (fun a => { a with nodes }) (fun _ => rfl) (fun _ => rfl)).remember none
      exact ((hready _).writeTree hhost hinner _).settle

theorem propagate (h : s.Wound roster delay first) (side : Side) :
    (propagate host inner side s).Wound roster delay first := by
  cases side with
  | text => exact h.propagateText hhost hinner
  | tree => exact h.propagateTree hhost hinner

theorem schedule (h : s.Wound roster delay first) (side : Side) :
    (schedule host inner side s).1.Wound roster delay first := by
  have hcancelled := h.cancel hhost side
  rw [schedule_eq]
  simp only [hcancelled.delay side]
  cases hafter : host.timers.after delay side (Session.cancel host side s).outside with
  | error fault =>
      cases fault with
      | refused message => exact hcancelled.propagate hhost hinner side
      | _ => exact hcancelled
  | ok started =>
      rcases started with ⟨number, w⟩
      rcases hhost.after side _ number w hafter with ⟨hrunning, hnumber⟩
      exact hcancelled.arm side (cancel_waiting host side s) hrunning hnumber

theorem flushSide (h : s.Wound roster delay first) (side : Side) :
    (flushSide host inner side s).Wound roster delay first := by
  have hcancelled := h.cancel hhost side
  rw [flushSide_eq]
  split
  · exact hcancelled.propagate hhost hinner side
  · exact hcancelled

theorem acceptText (h : s.Wound roster delay first) (text : String) :
    (acceptText host inner text s).1.Wound roster delay first := by
  rw [Session.acceptText]
  split
  · exact h
  · have hcounted := (h.agreeOn text).update (·.count .text) (fun _ => rfl) (fun _ => rfl)
    exact hcounted.schedule hhost hinner .text

theorem acceptTree (h : s.Wound roster delay first) (nodes : Forest) :
    (acceptTree host inner nodes s).1.Wound roster delay first :=
  ((h.setPending (some nodes)).update (·.count .tree) (fun _ => rfl) (fun _ => rfl)).schedule hhost
    hinner .tree

-- What waits is cancelled first, so it is enough that the arbiter is wound after that.
theorem loadTree (h : (Session.cancelAll host s).Wound roster delay first) (nodes : Forest)
    (window : Option Window) : (loadTree host inner nodes window s).Wound roster delay first := by
  have hkept := (h.remember none).update
    (fun a => { a with nodes := (Forest.assignIds nodes).nodes }) (fun _ => rfl) (fun _ => rfl)
  rw [Session.loadTree]
  simp only
  split
  · refine Wound.settle ?_
    exact hkept
  · have hshown := ((hkept.update (fun a => { a with window := window.getD a.window })
      (fun _ => rfl) (fun _ => rfl)).enter .textToTree).push hhost hinner
    exact (((hshown _).enter .treeToText).writeTree hhost hinner _).settle

theorem restore (h : (Session.cancelAll host s).Wound roster delay first) (text : String) :
    (restore host inner text s).Wound roster delay first := by
  have hready := ((h.remember none).enter .treeToText).agreeOn text
  rw [Session.restore]
  generalize Session.agreeOn text _ = ready at hready ⊢
  have hreplaced := hready.react hinner (hhost.replace ready.arbiter text ready.outside)
  generalize Session.react inner _ ready = served at hreplaced ⊢
  rcases served with ⟨s', fault⟩
  cases fault with
  | none => exact ((Wound.enter hreplaced .textToTree).loadText hhost hinner text).settle
  | some fault => exact Wound.settle hreplaced

/-- Whatever is asked of an arbiter, it stays wound. -/
theorem call [BEq κ] (h : s.Wound roster delay first) {c : Call κ} (hc : c.Asked) :
    (call host inner c s).1.Wound roster delay first := by
  cases c with
  | textChanged told =>
      rw [Session.call]
      rcases textChanged_cases host inner told s with ⟨fault, hserved⟩ | ⟨text, hserved⟩
      · rw [hserved]
        exact h
      · rw [hserved]
        exact h.acceptText hhost hinner text
  | treeChanged change =>
      rw [Session.call]
      rcases treeChanged_cases host inner change s with
        hserved | ⟨fault, hserved⟩ | ⟨nodes, hserved⟩
      · rw [hserved]
        exact h
      · rw [hserved]
        exact h.of_arbiter rfl rfl rfl
      · rw [hserved]
        exact h.acceptTree hhost hinner nodes
  | treeSent nodes =>
      rw [Session.call]
      rcases treeSent_cases host inner nodes s with
        hserved | ⟨kept, fault, hserved⟩ | ⟨kept, hserved⟩
      · rw [hserved]
        exact h
      · rw [hserved]
        exact h.of_arbiter rfl rfl rfl
      · rw [hserved]
        exact h.acceptTree hhost hinner kept
  | start =>
      have hcancelled := h.cancelAll hhost
      rw [Session.call, start]
      split
      · exact hcancelled
      · exact ((hcancelled.agreeOn _).update (·.count .text) (fun _ => rfl) (fun _ => rfl)
          |>.propagateText hhost hinner)
  | flush => exact (h.flushSide hhost hinner .text).flushSide hhost hinner .tree
  | loadTree nodes window => exact (h.cancelAll hhost).loadTree hhost hinner nodes window
  | restore text => exact (h.cancelAll hhost).restore hhost hinner text
  | enable on =>
      have hset := h.update (fun a => { a with enabled := on }) (fun _ => rfl) (fun _ => rfl)
      cases on with
      | true => exact hset
      | false => exact hset.cancelAll hhost
  | join consumer =>
      rw [Session.call, join, Session.update]
      simp only
      split
      · exact h
      · exact h.of_arbiter rfl rfl rfl
  | leave consumer => exact h.of_arbiter rfl rfl rfl
  | dispose => exact (h.cancelAll hhost).of_arbiter rfl rfl rfl
  | goOff side => exact hc.elim

end Operations

end Wound

/-- Calls of any depth keep an arbiter wound. -/
theorem serveWithin_winds [BEq κ] (hhost : host.Timed roster delay) (depth : Nat) :
    Winds roster delay first (serveWithin host depth) := by
  induction depth with
  | zero => exact fun _ _ _ h => h
  | succ depth ih => exact fun _ _ hc h => h.call hhost ih hc

theorem serve_wound [BEq κ] (hhost : host.Timed roster delay) {c : Call κ} (hc : c.Asked)
    (h : s.Wound roster delay first) : (serve host c s).1.Wound roster delay first :=
  serveWithin_winds hhost depthLimit c s hc h

/-- A timer that goes off is a recent one, and the arbiter stays wound. -/
theorem Wound.fired [BEq κ] (hhost : host.Timed roster delay) (h : s.Wound roster delay first)
    {number : Nat} {side : Side} {w : σ} (hrunning : (number, side) ∈ roster.running s.outside)
    (hstruck : roster.running w
      = (roster.running s.outside).filter (fun timer => timer.1 != number))
    (hnext : roster.next s.outside ≤ roster.next w) :
    (serve host (.goOff side) { s with outside := w }).1.Wound roster delay first ∧
      first ≤ number := by
  have hwaiting := h.running number side hrunning
  have hidle := h.strike side hwaiting hstruck hnext
  have hserved : (serve host (.goOff side) { s with outside := w }).1
      = goOff host (serveWithin host 199) side { s with outside := w } := rfl
  refine ⟨?_, (h.recent side number hwaiting).1⟩
  rw [hserved, goOff_spec]
  simp only
  split
  · exact hidle.propagate hhost (serveWithin_winds hhost 199) side
  · exact hidle

/-! ### Phases -/

/-- The second session is in the phase of the first one, or idle. -/
def Rests (s s' : Session δ κ σ) : Prop :=
  s'.arbiter.phase = s.arbiter.phase ∨ s'.arbiter.phase = .idle

section Phases

variable (host : Host δ κ σ) (inner : Call κ → Session δ κ σ → Served δ κ σ)

theorem settle_phase (served : Served δ κ σ) : (settle served).arbiter.phase = .idle := by
  rcases served with ⟨s, fault⟩
  cases fault with
  | none => rfl
  | some fault => rfl

theorem setTimer_phase (a : Arbiter δ κ) (d : Debouncer δ Unit) (side : Side) :
    (a.setTimer d side).phase = a.phase := by
  cases side with
  | text => rfl
  | tree => rfl

theorem cancel_phase (side : Side) (s : Session δ κ σ) :
    (cancel host side s).arbiter.phase = s.arbiter.phase :=
  setTimer_phase _ _ side

theorem cancelAll_phase (s : Session δ κ σ) :
    (cancelAll host s).arbiter.phase = s.arbiter.phase :=
  (cancel_phase host .tree _).trans (cancel_phase host .text s)

/-- Passing a side on ends in the idle phase, unless it does not begin. -/
theorem propagate_rests (side : Side) (s : Session δ κ σ) :
    Rests s (propagate host inner side s) := by
  cases side with
  | text =>
      rw [propagate, propagateText]
      split
      · exact .inl rfl
      · simp only
        split
        · exact .inr (settle_phase _)
        · exact .inr (settle_phase _)
  | tree =>
      rw [propagate, propagateTree]
      split
      · exact .inl rfl
      · simp only
        split
        · exact .inl (cancel_phase host .text s)
        · exact .inr (settle_phase _)

theorem Rests.of_phase {s s' s'' : Session δ κ σ} (h : Rests s' s'')
    (hphase : s'.arbiter.phase = s.arbiter.phase) : Rests s s'' :=
  h.imp_left fun hkept => hkept.trans hphase

theorem schedule_rests (side : Side) (s : Session δ κ σ) :
    Rests s (schedule host inner side s).1 := by
  have hcancelled := cancel_phase host side s
  rw [schedule_eq]
  simp only
  split
  · exact .inl ((setTimer_phase _ _ side).trans hcancelled)
  · exact (propagate_rests host inner side _).of_phase hcancelled
  · exact .inl hcancelled

theorem flushSide_rests (side : Side) (s : Session δ κ σ) :
    Rests s (flushSide host inner side s) := by
  have hcancelled := cancel_phase host side s
  rw [flushSide_eq]
  split
  · exact (propagate_rests host inner side _).of_phase hcancelled
  · exact .inl hcancelled

theorem acceptText_rests (text : String) (s : Session δ κ σ) :
    Rests s (acceptText host inner text s).1 := by
  rw [acceptText]
  split
  · exact .inl rfl
  · exact schedule_rests host inner .text _

/-- A call leaves the arbiter in the phase in which it was, or idle, whatever its
    collaborators do. -/
theorem call_rests [BEq κ] (c : Call κ) (s : Session δ κ σ) :
    Rests s (call host inner c s).1 := by
  cases c with
  | textChanged told =>
      rw [call]
      rcases textChanged_cases host inner told s with ⟨fault, hserved⟩ | ⟨text, hserved⟩
      · exact .inl (congrArg (·.1.arbiter.phase) hserved)
      · rw [hserved]
        exact acceptText_rests host inner text s
  | treeChanged change =>
      rw [call]
      rcases treeChanged_cases host inner change s with
        hserved | ⟨fault, hserved⟩ | ⟨nodes, hserved⟩
      · exact .inl (congrArg (·.1.arbiter.phase) hserved)
      · exact .inl (congrArg (·.1.arbiter.phase) hserved)
      · rw [hserved]
        exact schedule_rests host inner .tree _
  | treeSent nodes =>
      rw [call]
      rcases treeSent_cases host inner nodes s with
        hserved | ⟨kept, fault, hserved⟩ | ⟨kept, hserved⟩
      · exact .inl (congrArg (·.1.arbiter.phase) hserved)
      · exact .inl (congrArg (·.1.arbiter.phase) hserved)
      · rw [hserved]
        exact schedule_rests host inner .tree _
  | start =>
      have hcancelled := cancelAll_phase host s
      rw [call, start]
      split
      · exact .inl hcancelled
      · exact Rests.of_phase (propagate_rests host inner .text _) hcancelled
  | flush =>
      -- The second side may begin in a phase that the first one has left idle.
      have htext := flushSide_rests host inner .text s
      rcases flushSide_rests host inner .tree (flushSide host inner .text s) with htree | htree
      · exact htext.imp htree.trans htree.trans
      · exact .inr htree
  | loadTree nodes window =>
      rw [call, loadTree]
      simp only
      split
      · exact .inr (settle_phase _)
      · exact .inr (settle_phase _)
  | restore text =>
      rw [call, restore]
      simp only
      split
      · exact .inr (settle_phase _)
      · exact .inr (settle_phase _)
  | enable on =>
      cases on with
      | true => exact .inl rfl
      | false => exact .inl (cancelAll_phase host _)
  | join consumer =>
      rw [call, join, update]
      simp only
      split
      · exact .inl rfl
      · exact .inl rfl
  | leave consumer => exact .inl rfl
  | dispose => exact .inl (cancelAll_phase host s)
  | goOff side =>
      rw [call, goOff_spec]
      simp only
      split
      · exact (propagate_rests host inner side _).of_phase (setTimer_phase _ _ side)
      · exact .inl (setTimer_phase _ _ side)

/-- What is idle is idle again after a call. -/
theorem serve_idle [BEq κ] (c : Call κ) {s : Session δ κ σ} (h : s.arbiter.phase = .idle) :
    (serve host c s).1.arbiter.phase = .idle :=
  (call_rests host (serveWithin host 199) c s).elim (·.trans h) id

end Phases

/-! ### Runs -/

/-- What may happen to an arbiter: something is asked of it, its world changes in other
    ways, or a timer goes off. The numbers are those of the timers that went off. -/
inductive Leads [BEq κ] (host : Host δ κ σ) (roster : Roster σ) (s : Session δ κ σ) :
    List Nat → Session δ κ σ → Prop where
  /-- Nothing has happened yet. -/
  | here : Leads host roster s [] s
  /-- Something is asked. -/
  | asked {ran : List Nat} {t : Session δ κ σ} (c : Call κ) :
      Leads host roster s ran t → c.Asked → Leads host roster s ran (serve host c t).1
  /-- The world changes, and time may pass, but no timer goes off. -/
  | turned {ran : List Nat} {t : Session δ κ σ} (w : σ) :
      Leads host roster s ran t → roster.Same t.outside w →
      Leads host roster s ran { t with outside := w }
  /-- A timer that runs goes off, and does not run any longer. -/
  | fired {ran : List Nat} {t : Session δ κ σ} (number : Nat) (side : Side) (w : σ) :
      Leads host roster s ran t → (number, side) ∈ roster.running t.outside →
      roster.running w = (roster.running t.outside).filter (fun timer => timer.1 != number) →
      roster.next t.outside ≤ roster.next w →
      Leads host roster s (ran ++ [number]) (serve host (.goOff side) { t with outside := w }).1

variable [BEq κ] {ran : List Nat} {t : Session δ κ σ}

/-- Whatever happens, an arbiter stays wound, and only recent timers go off. -/
theorem Leads.wound (hhost : host.Timed roster delay) (hleads : Leads host roster s ran t)
    (h : s.Wound roster delay first) :
    t.Wound roster delay first ∧ ∀ number ∈ ran, first ≤ number := by
  induction hleads with
  | here => exact ⟨h, fun _ hn => absurd hn List.not_mem_nil⟩
  | asked c _ hc ih => exact ⟨serve_wound hhost hc ih.1, ih.2⟩
  | turned w _ hsame ih => exact ⟨ih.1.of_same rfl rfl hsame, ih.2⟩
  | fired number side w _ hrunning hstruck hnext ih =>
      rcases ih.1.fired hhost hrunning hstruck hnext with ⟨hwound, hfirst⟩
      refine ⟨hwound, fun n hn => ?_⟩
      rcases List.mem_append.mp hn with hn | hn
      · exact ih.2 n hn
      · exact List.mem_singleton.mp hn ▸ hfirst

/-- Whatever happens, an idle arbiter is idle again. -/
theorem Leads.idle (hleads : Leads host roster s ran t) (h : s.arbiter.phase = .idle) :
    t.arbiter.phase = .idle := by
  induction hleads with
  | here => exact h
  | asked c _ _ ih => exact serve_idle host c ih
  | turned w _ _ ih => exact ih
  | fired number side w _ _ _ _ ih => exact serve_idle host (.goOff side) ih

/-- The states in which an arbiter can be, from its beginning in a world where no timer
    runs for it. -/
def Reached (host : Host δ κ σ) (roster : Roster σ) (delay : δ) (s : Session δ κ σ) : Prop :=
  ∃ window consumers w ran, roster.running w = [] ∧
    Leads host roster ⟨.fresh window delay consumers, w⟩ ran s

theorem Reached.wound (hhost : host.Timed roster delay) (h : s.Reached host roster delay) :
    s.Wound roster delay 0 := by
  rcases h with ⟨window, consumers, w, ran, hrunning, hleads⟩
  refine (hleads.wound hhost ⟨fun side => ?_, fun number side hn => ?_, fun side number hn => ?_,
    Nat.zero_le _⟩).1
  · cases side with
    | text => rfl
    | tree => rfl
  · rw [hrunning] at hn
    exact absurd hn List.not_mem_nil
  · cases side with
    | text => exact nomatch hn
    | tree => exact nomatch hn

theorem Reached.idle (h : s.Reached host roster delay) : s.arbiter.phase = .idle := by
  rcases h with ⟨window, consumers, w, ran, -, hleads⟩
  exact hleads.idle rfl

end Session

end WidgetSync
