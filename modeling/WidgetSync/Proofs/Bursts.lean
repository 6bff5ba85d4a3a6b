import Mathlib.Algebra.Order.Monoid.Unbundled.Basic
import WidgetSync.Proofs.Refusal
import WidgetSync.Proofs.Replacement

/-!
# Bursts of Changes

Changes of the tree that follow each other faster than the delay are written once.

A burst is told twice. To the arbiter, its changes are calls, and between them the clock is
moved. The tally of a burst knows no timers: it folds the changes that can be applied
into a tree, and notes how many there were and when the last one came. A change that
cannot be applied does not count, and all that the arbiter does with it is to remember why.
A burst is brisk if the delay is never over while another change that counts is still to
come.

In between the arbiter is in one of three stages. Nothing has counted yet; or the
tree of the tally waits, and the clock has one callback, the delay after the last change
that counted; or the tree has been written, and no further change will count. A
callback that is due before the last change would contradict that the burst is brisk.

Nothing is assumed of times but that a delay is greater than zero. In particular
addition may round, as it does in doubles.

## Main definitions

* `Stroke`, `Tally`: What happens in a burst, and what it comes to.
* `Brisk`: The delay is never over while another change is to come.
* `Host.Ticks`: Timers can be had.
* `Session.strike`: A stroke befalls an arbiter.
* `Session.Abides`, `Session.Stage`: What holds during a burst.

## Theorems

* `brisk_of_gaps`: Where time does not run backwards, gaps below the delay are enough.
* `Session.acceptTree_armed`: A tree that waits has one callback, the delay from now.
* `Session.goOff_written`: A tree whose timer goes off is written.
* `Session.Stage.advance`: What a movement of the clock does.
* `Session.Stage.strikes`: What holds throughout a burst.
* `Session.burst_written_once`: A brisk burst is written once.
-/

namespace WidgetSync

variable {δ κ σ τ : Type}

/-- What happens in a burst. -/
inductive Stroke (τ : Type) where
  /-- Time passes. -/
  | waited (span : τ)
  /-- The tree is changed. -/
  | changed (change : Change)
  /-- A whole tree is sent. -/
  | sent (nodes : Forest)

/-- What a burst comes to. -/
structure Tally (τ : Type) where
  /-- The time. -/
  now : τ
  /-- The tree with all changes that count. -/
  nodes : Forest
  /-- How many changes count. -/
  accepted : Nat := 0
  /-- When the last one came that counts. -/
  last : Option τ := none

namespace Tally

/-- One more change counts. -/
def accept (nodes : Forest) (t : Tally τ) : Tally τ :=
  { t with nodes, accepted := t.accepted + 1, last := some t.now }

variable [Add τ]

/-- The tally after a stroke. A change that cannot be applied does not count. -/
def next (t : Tally τ) : Stroke τ → Tally τ
  | .waited span => { t with now := t.now + span }
  | .changed change =>
    match change.apply t.nodes with
    | .ok (nodes, _) => t.accept nodes
    | .error _ => t
  | .sent nodes => t.accept (Forest.assignIds nodes).nodes

/-- The tally after a burst. -/
def after (t : Tally τ) (strokes : List (Stroke τ)) : Tally τ :=
  strokes.foldl next t

theorem after_append (t : Tally τ) (front rest : List (Stroke τ)) :
    t.after (front ++ rest) = (t.after front).after rest :=
  List.foldl_append

/-- A stroke that does not count is a wait, or changes nothing. -/
theorem next_cases (t : Tally τ) (stroke : Stroke τ) :
    t.accepted < (t.next stroke).accepted ∨
      (∃ length, stroke = .waited length) ∨ t.next stroke = t := by
  cases stroke with
  | waited length => exact .inr (.inl ⟨length, rfl⟩)
  | changed change =>
      rw [next]
      split
      · exact .inl (Nat.lt_succ_self _)
      · exact .inr (.inr rfl)
  | sent nodes => exact .inl (Nat.lt_succ_self _)

theorem accepted_le (t : Tally τ) (strokes : List (Stroke τ)) :
    t.accepted ≤ (t.after strokes).accepted := by
  induction strokes generalizing t with
  | nil => exact Nat.le_refl _
  | cons stroke strokes ih =>
      have hrest := ih (t.next stroke)
      rcases t.next_cases stroke with hcounts | ⟨length, rfl⟩ | hsame
      · exact Nat.le_trans (Nat.le_of_lt hcounts) hrest
      · exact hrest
      · rw [hsame] at hrest
        rw [after, List.foldl_cons, hsame]
        exact hrest

/-- Where no further change counts, the tree is the one of the whole burst. -/
theorem nodes_of_accepted {t : Tally τ} {strokes : List (Stroke τ)}
    (h : (t.after strokes).accepted = t.accepted) : (t.after strokes).nodes = t.nodes := by
  induction strokes generalizing t with
  | nil => rfl
  | cons stroke strokes ih =>
      have hafter : t.after (stroke :: strokes) = (t.next stroke).after strokes := rfl
      rw [hafter] at h ⊢
      rcases t.next_cases stroke with hcounts | ⟨length, rfl⟩ | hsame
      · exact absurd (h ▸ (t.next stroke).accepted_le strokes) (Nat.not_le_of_lt hcounts)
      · exact ih h
      · rw [hsame] at h ⊢
        exact ih h

end Tally

section Brisk

/-- Up to the last change that counts, the delay since the last one before is never over. -/
def Brisk [Add τ] [LE τ] (span : τ) (t : Tally τ) (strokes : List (Stroke τ)) : Prop :=
  ∀ front, front <+: strokes → (t.after front).accepted < (t.after strokes).accepted →
    ∀ start ∈ (t.after front).last, ¬ start + span ≤ (t.after front).now

theorem brisk_nil [Add τ] [LE τ] (span : τ) (t : Tally τ) : Brisk span t [] := by
  intro front hfront hless
  rw [List.prefix_nil.mp hfront] at hless
  exact absurd hless (Nat.lt_irrefl _)

theorem brisk_cons [Add τ] [LE τ] {span : τ} {t : Tally τ} {stroke : Stroke τ}
    {strokes : List (Stroke τ)} :
    Brisk span t (stroke :: strokes) ↔
      (t.accepted < (t.after (stroke :: strokes)).accepted →
        ∀ start ∈ t.last, ¬ start + span ≤ t.now) ∧
      Brisk span (t.next stroke) strokes := by
  refine ⟨fun h => ⟨h [] List.nil_prefix, fun front hfront =>
    h (stroke :: front) (List.cons_prefix_cons.mpr ⟨rfl, hfront⟩)⟩, fun h front hfront => ?_⟩
  cases front with
  | nil => exact h.1
  | cons first front =>
      rcases List.cons_prefix_cons.mp hfront with ⟨rfl, hrest⟩
      exact h.2 front hrest

/-- Once the delay is over in a brisk burst, no further change counts. -/
theorem Brisk.over [Add τ] [LE τ] {span length start : τ} {t : Tally τ} {strokes : List (Stroke τ)}
    (h : Brisk span t (.waited length :: strokes)) (hlast : start ∈ t.last)
    (hdue : start + span ≤ t.now + length) :
    (t.after (.waited length :: strokes)).accepted = t.accepted ∧
      (t.after (.waited length :: strokes)).nodes = t.nodes := by
  have hnone : ¬ t.accepted < (t.after (.waited length :: strokes)).accepted :=
    fun hless => h [.waited length] (List.prefix_append _ strokes) hless start hlast hdue
  have hsame := Nat.le_antisymm (Nat.not_lt.mp hnone) (t.accepted_le _)
  exact ⟨hsame, Tally.nodes_of_accepted hsame⟩

/-- Whether a burst is brisk can be computed. -/
instance decidableBrisk [Add τ] [LE τ] [DecidableLE τ] (span : τ) :
    (t : Tally τ) → (strokes : List (Stroke τ)) → Decidable (Brisk span t strokes)
  | t, [] => isTrue (brisk_nil span t)
  | t, stroke :: strokes =>
    have := decidableBrisk span (t.next stroke) strokes
    decidable_of_iff _ brisk_cons.symm

section Gaps

variable [AddZeroClass τ] [Preorder τ] [AddLeftMono τ] {span : τ}

/-- While a change that counts is still to come, the time is before the one at which it comes. -/
theorem Tally.now_lt_of_gaps {t : Tally τ} {strokes : List (Stroke τ)}
    (hwaits : ∀ length, Stroke.waited length ∈ strokes → 0 ≤ length)
    (hgaps : ∀ front stroke, front ++ [stroke] <+: strokes →
      (t.after front).accepted < ((t.after front).next stroke).accepted →
      ∀ start ∈ (t.after front).last, (t.after front).now < start + span)
    (hless : t.accepted < (t.after strokes).accepted) : ∀ start ∈ t.last, t.now < start + span := by
  induction strokes generalizing t with
  | nil => exact absurd hless (Nat.lt_irrefl _)
  | cons stroke strokes ih =>
      have hlater : ∀ front other, front ++ [other] <+: strokes →
          stroke :: front ++ [other] <+: stroke :: strokes :=
        fun front other hfront => List.cons_prefix_cons.mpr ⟨rfl, hfront⟩
      have hrest := ih (t := t.next stroke)
        (fun length hlength => hwaits length (List.mem_cons_of_mem _ hlength))
        fun front other hfront => hgaps (stroke :: front) other (hlater front other hfront)
      rcases t.next_cases stroke with hcounts | ⟨length, rfl⟩ | hsame
      · exact hgaps [] stroke (List.prefix_append [stroke] strokes) hcounts
      · intro start hstart
        exact lt_of_le_of_lt (le_add_of_nonneg_right (hwaits length List.mem_cons_self))
          (hrest hless start hstart)
      · rw [hsame] at hrest
        rw [Tally.after, List.foldl_cons, hsame] at hless
        exact hrest hless

/-- Where time does not run backwards, it is enough that each change that counts comes before
    the delay is over. -/
theorem brisk_of_gaps {t : Tally τ} {strokes : List (Stroke τ)}
    (hwaits : ∀ length, Stroke.waited length ∈ strokes → 0 ≤ length)
    (hgaps : ∀ front stroke, front ++ [stroke] <+: strokes →
      (t.after front).accepted < ((t.after front).next stroke).accepted →
      ∀ start ∈ (t.after front).last, (t.after front).now < start + span) :
    Brisk span t strokes := by
  rintro front ⟨rest, rfl⟩ hless start hstart
  rw [Tally.after_append] at hless
  refine not_le_of_gt (Tally.now_lt_of_gaps (t := t.after front)
    (fun length hlength => hwaits length (List.mem_append_right _ hlength))
    (fun middle stroke hmiddle => ?_) hless start hstart)
  rw [← Tally.after_append]
  refine hgaps (front ++ middle) stroke ?_
  rw [List.append_assoc]
  exact (List.prefix_append_right_inj front).mpr hmiddle

end Gaps

end Brisk

/-- The trees that are sent have types that are texts, so that ids can be given out. -/
def Stroke.Typed : Stroke τ → Prop
  | .sent nodes => ∀ n ∈ Forest.walk nodes, ∃ t, n.type.asText? = some t
  | _ => True

/-- Timers can be had at a clock, and neither they nor the clock show in the log. -/
structure Host.Ticks (host : Host δ κ σ) (dial : Dial τ σ) (log : Log κ σ) (delay : δ) :
    Prop where
  after : ∀ side w, log.works w →
    ∃ number w', host.timers.after delay side w = .ok (number, w') ∧ log.Same w w'
  set : ∀ clock w, log.works w → log.Same w (dial.set clock w)

namespace Clock

variable {α : Type} [LE τ] [DecidableLE τ] {clock : Clock τ α} {target : τ}

theorem take?_nil (h : clock.queue = []) : clock.take? target = none := by
  rw [take?, h]
  rfl

/-- A callback that waits alone is taken when it is due. -/
theorem take?_of_due {w : Waiting τ α} (h : clock.queue = [w]) (hdue : w.deadline ≤ target) :
    clock.take? target = some (w, { clock with now := w.deadline, queue := [] }) := by
  have hearliest : earliest? target clock.queue = some w := by
    rw [h]
    exact if_pos hdue
  have hcancelled : clock.cancel w.number = { clock with queue := [] } := by
    rw [cancel, h, List.filter_cons_of_neg (by rw [bne_self_eq_false]; exact Bool.false_ne_true),
      List.filter_nil]
  rw [take?, hearliest, Option.map_some, hcancelled]

theorem take?_of_not_due {w : Waiting τ α} (h : clock.queue = [w])
    (hdue : ¬ w.deadline ≤ target) : clock.take? target = none := by
  have hearliest : earliest? target clock.queue = none := by
    rw [h]
    exact if_neg hdue
  rw [take?, hearliest, Option.map_none]

end Clock

namespace Session

variable {host : Host δ κ σ} {dial : Dial τ σ} {delay : δ} {span : τ} {log : Log κ σ}
  {write : Document → Except Fault String} {inner : Call κ → Session δ κ σ → Served δ κ σ}
  {s u : Session δ κ σ}

/-- A side that waits for no timer has none to cancel. -/
theorem cancel_eq_self {side : Side} (h : (u.arbiter.timer side).waiting = none) :
    cancel host side u = u := by
  rw [cancel, Debouncer.cancel, h]
  simp only [Arbiter.setTimer_timer]

section Arming

variable [Add τ] [OfNat τ 0] [LT τ] [DecidableLT τ]

/-- When a side is cancelled whose callbacks are all there are, no callback waits. -/
theorem cancel_queue (hclock : host.Clocked dial delay span) (side : Side)
    (honly : ∀ w ∈ (dial.read u.outside).queue,
      (u.arbiter.timer side).waiting = some (w.number, ())) :
    (dial.read (cancel host side u).outside).queue = [] ∧
      (dial.read (cancel host side u).outside).now = (dial.read u.outside).now := by
  rw [cancel, Debouncer.cancel]
  cases hwaiting : (u.arbiter.timer side).waiting with
  | none =>
      refine ⟨List.eq_nil_iff_forall_not_mem.mpr fun w hw => ?_, rfl⟩
      exact absurd (hwaiting.symm.trans (honly w hw)).symm (Option.some_ne_none _)
  | some waiting =>
      rw [hclock.cancel]
      refine ⟨List.filter_eq_nil_iff.mpr fun w hw => ?_, rfl⟩
      rcases Option.some.inj (hwaiting.symm.trans (honly w hw)) with rfl
      rw [bne_self_eq_false]
      exact Bool.false_ne_true

variable (inner) in
/-- A tree that is accepted waits, and its callback is the only one, the delay from now. -/
theorem acceptTree_armed (hclock : host.Clocked dial delay span) (htakes : host.Takes log write)
    (hticks : host.Ticks dial log delay) (hspan : 0 < span) (nodes : Forest)
    (hdelay : u.arbiter.treeTimer.delay = delay) (hworks : log.works u.outside)
    (honly : ∀ w ∈ (dial.read u.outside).queue,
      u.arbiter.treeTimer.waiting = some (w.number, ())) :
    ∃ number w, acceptTree host inner nodes u =
        (⟨{ u.arbiter.count .tree with
            pendingNodes := some nodes
            treeTimer := { delay, waiting := some (number, ()) } }, w⟩, none) ∧
      (dial.read w).now = (dial.read u.outside).now ∧
      (dial.read w).queue = [⟨(dial.read u.outside).now + span, number, .tree⟩] ∧
      log.Same u.outside w := by
  let ready := update (·.count .tree) (setPending (some nodes) u)
  have hsame := same_cancel (s := ready) htakes .tree hworks
  rcases cancel_queue (u := ready) hclock .tree honly with ⟨hqueue, hnow⟩
  have hcancelled : ((cancel host .tree ready).arbiter.timer .tree).delay = delay := by
    rw [cancel, Arbiter.timer_setTimer, Debouncer.cancel_fst]
    exact hdelay
  rcases hticks.after .tree _ hsame.works with ⟨number, w, hafter, hstarted⟩
  have hread := Prod.mk.inj (hclock.after .tree _ number w hafter)
  have haccept : acceptTree host inner nodes u = schedule host inner .tree ready := rfl
  refine ⟨number, w, ?_, ?_, ?_, hsame.trans hstarted⟩
  · rw [haccept, schedule_eq]
    simp only [hcancelled, hafter]
    rfl
  · rw [hread.2]
    exact hnow
  · rw [hread.2, hread.1]
    simp only [hqueue, hnow, Clock.notNegative, if_pos hspan, List.nil_append]
    rfl

/-- A tree that waits is written, and the clock stands still meanwhile. -/
theorem propagateTree_written (hclock : host.Clocked dial delay span)
    (htakes : host.Takes log write) (hinner : Echoes inner) {nodes : Forest} {text : String}
    (hwrite : write ⟨u.arbiter.window, nodes⟩ = .ok text) (hworks : log.works u.outside)
    (htext : u.arbiter.textTimer.waiting = none) (hnodes : u.arbiter.pendingNodes = some nodes) :
    ∃ w, propagateTree host inner u =
        ⟨{ u.arbiter with
          phase := .idle, pendingNodes := none, nodes, lastFault := none
          lastText := some text }, w⟩ ∧
      log.Given text u.outside w ∧ dial.read w = dial.read u.outside := by
  have hnew : u.arbiter.textTimer.pending = false := congrArg Option.isSome htext
  have hcancelled : cancel host .text u = u := cancel_eq_self htext
  rw [propagateTree, hcancelled]
  simp only [hnew, hnodes, Bool.false_and, Bool.false_eq_true, if_false, enter, setPending, update,
    remember]
  rcases writeTree_given htakes hinner
    (s := ⟨{ u.arbiter with
      phase := .treeToText, pendingNodes := none, nodes, lastFault := none }, u.outside⟩)
    hwrite hworks rfl with ⟨hwritten, hgiven⟩
  refine ⟨_, ?_, hgiven, ?_⟩
  · rw [hwritten]
    rfl
  · rw [(hclock.replace _ _ _).clock, hclock.write]

/-- So is a tree whose timer goes off. -/
theorem goOff_written (hclock : host.Clocked dial delay span) (htakes : host.Takes log write)
    (hinner : Echoes inner) {nodes : Forest} {text : String} {number : Nat}
    (hwrite : write ⟨u.arbiter.window, nodes⟩ = .ok text) (hworks : log.works u.outside)
    (htext : u.arbiter.textTimer.waiting = none)
    (hwaiting : u.arbiter.treeTimer.waiting = some (number, ()))
    (hnodes : u.arbiter.pendingNodes = some nodes) :
    ∃ w, goOff host inner .tree u =
        ⟨{ u.arbiter with
          phase := .idle, treeTimer := u.arbiter.treeTimer.idle, pendingNodes := none, nodes
          lastFault := none, lastText := some text }, w⟩ ∧
      log.Given text u.outside w ∧ dial.read w = dial.read u.outside := by
  have hpending : (u.arbiter.timer .tree).pending = true := congrArg Option.isSome hwaiting
  have hpassed : goOff host inner .tree u = propagateTree host inner
      ⟨{ u.arbiter with treeTimer := u.arbiter.treeTimer.idle }, u.outside⟩ :=
    (goOff_spec .tree u).trans (if_pos hpending)
  rw [hpassed]
  exact propagateTree_written hclock htakes hinner hwrite hworks htext hnodes

end Arming

section Moving

variable [BEq κ] [Add τ] [LE τ] [DecidableLE τ] {fuel : Nat} {length : τ}

/-- Where nothing is due, moving the clock does no more than that. -/
theorem advance_of_none
    (h : (dial.read u.outside).take? ((dial.read u.outside).now + length) = none) :
    u.advance host dial fuel length =
      setClock dial { dial.read u.outside with now := (dial.read u.outside).now + length } u := by
  rw [advance, moveClock, Clock.advance, Clock.drain_of_none fuel h]

/-- Where a callback is due alone and leaves none behind, its timer goes off and the clock is
    moved on. -/
theorem advance_of_due {c : Waiting τ Side} {v : Session δ κ σ}
    (hqueue : (dial.read u.outside).queue = [c])
    (hdue : c.deadline ≤ (dial.read u.outside).now + length)
    (hserved : (serve host (.goOff c.action)
      (setClock dial { dial.read u.outside with now := c.deadline, queue := [] } u)).1 = v)
    (hrest : (dial.read v.outside).queue = []) :
    u.advance host dial (fuel + 1) length =
      setClock dial { dial.read v.outside with now := (dial.read u.outside).now + length } v := by
  have hgone : goOffAt host dial c.action
      ⟨{ dial.read u.outside with now := c.deadline, queue := [] }, u⟩
      = (⟨dial.read v.outside, v⟩, none) := by
    rw [← hserved]
    rfl
  rw [advance, moveClock, Clock.advance,
    Clock.drain_succ_of_some fuel (Clock.take?_of_due hqueue hdue) hgone,
    Clock.drain_of_none fuel (Clock.take?_nil hrest)]

end Moving

/-- What holds throughout a burst that began in a session, when its tally has come so far. -/
structure Abides (dial : Dial τ σ) (log : Log κ σ) (delay : δ) (s : Session δ κ σ) (t : Tally τ)
    (u : Session δ κ σ) : Prop where
  idle : u.arbiter.phase = .idle
  listens : u.arbiter.listens = true
  window : u.arbiter.window = s.arbiter.window
  delay : u.arbiter.treeTimer.delay = delay
  text : u.arbiter.textTimer.waiting = none
  base : u.arbiter.base = t.nodes
  now : (dial.read u.outside).now = t.now
  works : log.works u.outside
  shown : log.shown u.outside = log.shown s.outside

/-- How far a burst has come of which so many changes count in the end. -/
inductive Stage [Add τ] (dial : Dial τ σ) (log : Log κ σ) (span : τ) (text : String) (total : Nat)
    (s : Session δ κ σ) (t : Tally τ) (u : Session δ κ σ) : Prop where
  /-- No change has counted. -/
  | calm : t.accepted = 0 → t.last = none → u.arbiter.pendingNodes = none →
      u.arbiter.treeTimer.waiting = none → (dial.read u.outside).queue = [] →
      log.given u.outside = log.given s.outside → Stage dial log span text total s t u
  /-- The tree waits. -/
  | armed (start : τ) (number : Nat) : 0 < t.accepted → t.last = some start →
      u.arbiter.pendingNodes = some t.nodes → u.arbiter.treeTimer.waiting = some (number, ()) →
      (dial.read u.outside).queue = [⟨start + span, number, .tree⟩] →
      log.given u.outside = log.given s.outside → Stage dial log span text total s t u
  /-- The tree has been written, and no further change counts. -/
  | written : 0 < t.accepted → t.accepted = total → u.arbiter.pendingNodes = none →
      u.arbiter.treeTimer.waiting = none → (dial.read u.outside).queue = [] →
      log.given u.outside = log.given s.outside ++ [text] → Stage dial log span text total s t u

section Steps

variable {t : Tally τ} {text : String} {total : Nat}

theorem Abides.remember (h : Abides dial log delay s t u) (fault : Option Fault) :
    Abides dial log delay s t (u.remember fault) :=
  ⟨h.idle, h.listens, h.window, h.delay, h.text, h.base, h.now, h.works, h.shown⟩

/-- An arbiter in a burst takes changes of the tree. -/
theorem Abides.hears (h : Abides dial log delay s t u) : u.hearsTree = true := by
  rw [hearsTree, h.listens, h.idle]
  rfl

variable [Add τ]

/-- A stage depends on the tree that waits, its timer, the callbacks of the clock and the texts
    that the document was given. -/
theorem Stage.of_same (h : Stage dial log span text total s t u) (now : τ) {u' : Session δ κ σ}
    (hnodes : u'.arbiter.pendingNodes = u.arbiter.pendingNodes)
    (htimer : u'.arbiter.treeTimer = u.arbiter.treeTimer)
    (hqueue : (dial.read u'.outside).queue = (dial.read u.outside).queue)
    (hgiven : log.given u'.outside = log.given u.outside) :
    Stage dial log span text total s { t with now } u' := by
  have hwaiting := congrArg Debouncer.waiting htimer
  cases h with
  | calm haccepted hlast hnone hidle hempty hgave =>
      exact .calm haccepted hlast (hnodes.trans hnone) (hwaiting.trans hidle)
        (hqueue.trans hempty) (hgiven.trans hgave)
  | armed start number haccepted hlast hsome hruns hone hgave =>
      exact .armed start number haccepted hlast (hnodes.trans hsome) (hwaiting.trans hruns)
        (hqueue.trans hone) (hgiven.trans hgave)
  | written haccepted htotal hnone hidle hempty hgave =>
      exact .written haccepted htotal (hnodes.trans hnone) (hwaiting.trans hidle)
        (hqueue.trans hempty) (hgiven.trans hgave)

theorem Stage.remember (h : Stage dial log span text total s t u) (fault : Option Fault) :
    Stage dial log span text total s t (u.remember fault) :=
  h.of_same t.now rfl rfl rfl rfl

variable [OfNat τ 0] [LT τ] [DecidableLT τ]

/-- A change that counts while the tree has not been written lets it wait anew. -/
theorem Stage.accept (hclock : host.Clocked dial delay span) (htakes : host.Takes log write)
    (hticks : host.Ticks dial log delay) (hspan : 0 < span) (habides : Abides dial log delay s t u)
    (hstage : Stage dial log span text total s t u) (hmore : t.accepted < total) (nodes : Forest) :
    Abides dial log delay s (t.accept nodes) (acceptTree host inner nodes u).1 ∧
      Stage dial log span text total s (t.accept nodes) (acceptTree host inner nodes u).1 := by
  -- Whether a tree waits already or not, the clock has no callback but its own.
  have hwaits : (∀ w ∈ (dial.read u.outside).queue,
      u.arbiter.treeTimer.waiting = some (w.number, ())) ∧
      log.given u.outside = log.given s.outside := by
    cases hstage with
    | calm _ _ _ _ hqueue hgiven =>
        refine ⟨fun w hw => ?_, hgiven⟩
        rw [hqueue] at hw
        exact absurd hw List.not_mem_nil
    | armed start number _ _ _ hwaiting hqueue hgiven =>
        refine ⟨fun w hw => ?_, hgiven⟩
        rw [hqueue, List.mem_singleton] at hw
        rw [hw, hwaiting]
    | written _ htotal => exact absurd htotal (Nat.ne_of_lt hmore)
  rcases acceptTree_armed inner hclock htakes hticks hspan nodes habides.delay
    habides.works hwaits.1 with ⟨number, w, haccepted, hnow, hqueue, hsame⟩
  rw [haccepted]
  refine ⟨⟨habides.idle, habides.listens, habides.window, rfl, habides.text, rfl,
    hnow.trans habides.now, hsame.works, hsame.shown.trans habides.shown⟩, ?_⟩
  refine .armed t.now number (Nat.succ_pos _) rfl rfl rfl ?_ (hsame.given.trans hwaits.2)
  rw [hqueue, habides.now]

/-- The clock may show any time in a burst. -/
theorem Abides.setClock (hclock : host.Clocked dial delay span) (hticks : host.Ticks dial log delay)
    (h : Abides dial log delay s t u) (now : τ) :
    Abides dial log delay s { t with now } (setClock dial { dial.read u.outside with now } u) := by
  have hsame := hticks.set { dial.read u.outside with now } u.outside h.works
  refine ⟨h.idle, h.listens, h.window, h.delay, h.text, h.base, ?_, hsame.works,
    hsame.shown.trans h.shown⟩
  rw [Session.setClock, hclock.read_set]

theorem Stage.setClock (hclock : host.Clocked dial delay span) (hticks : host.Ticks dial log delay)
    (hworks : log.works u.outside) (h : Stage dial log span text total s t u) (now : τ) :
    Stage dial log span text total s { t with now }
      (setClock dial { dial.read u.outside with now } u) := by
  refine h.of_same now rfl rfl ?_ (hticks.set _ u.outside hworks).given
  rw [Session.setClock, hclock.read_set]

variable [BEq κ] [LE τ] [DecidableLE τ]

/-- When the clock is moved while nothing is due, time passes. -/
theorem Stage.pass (hclock : host.Clocked dial delay span) (hticks : host.Ticks dial log delay)
    (habides : Abides dial log delay s t u) (hstage : Stage dial log span text total s t u)
    {length : τ} (fuel : Nat) (hnone : (dial.read u.outside).take? (t.now + length) = none) :
    Abides dial log delay s (t.next (.waited length)) (u.advance host dial fuel length) ∧
      Stage dial log span text total s (t.next (.waited length))
        (u.advance host dial fuel length) ∧
      (u.advance host dial fuel length).arbiter = u.arbiter := by
  rw [← habides.now] at hnone
  rw [advance_of_none hnone, habides.now]
  exact ⟨habides.setClock hclock hticks _, hstage.setClock hclock hticks habides.works _, rfl⟩

/-- When the delay is over, the tree that waits is written. -/
theorem Stage.deliver (hclock : host.Clocked dial delay span) (htakes : host.Takes log write)
    (hticks : host.Ticks dial log delay) (habides : Abides dial log delay s t u)
    {start : τ} {number : Nat} (haccepted : 0 < t.accepted) (htotal : t.accepted = total)
    (hnodes : u.arbiter.pendingNodes = some t.nodes)
    (hwaiting : u.arbiter.treeTimer.waiting = some (number, ()))
    (hqueue : (dial.read u.outside).queue = [⟨start + span, number, .tree⟩])
    (hgiven : log.given u.outside = log.given s.outside)
    (hwrite : write ⟨s.arbiter.window, t.nodes⟩ = .ok text) {length : τ} (fuel : Nat)
    (hdue : start + span ≤ t.now + length) :
    Abides dial log delay s (t.next (.waited length)) (u.advance host dial (fuel + 1) length) ∧
      Stage dial log span text total s (t.next (.waited length))
        (u.advance host dial (fuel + 1) length) ∧
      (u.advance host dial (fuel + 1) length).arbiter.pendingNodes = none := by
  -- While the callback runs, the clock shows the time at which it was due.
  let clock : Clock τ Side := { dial.read u.outside with now := start + span, queue := [] }
  have hset := hticks.set clock u.outside habides.works
  have hwindow : write ⟨(Session.setClock dial clock u).arbiter.window, t.nodes⟩ = .ok text := by
    rw [← hwrite, ← habides.window]
    rfl
  rcases goOff_written hclock htakes (serveWithin_echoes host 198) hwindow hset.works habides.text
    hwaiting hnodes with ⟨w, hgone, hgave, hread⟩
  have hshown : dial.read w = clock := hread.trans (hclock.read_set clock u.outside)
  generalize hv : goOff host (serveWithin host 199) .tree (Session.setClock dial clock u) = v
    at hgone
  have hdelivered : Abides dial log delay s { t with now := start + span } v := by
    rw [hgone]
    exact ⟨rfl, habides.listens, habides.window, habides.delay, habides.text, rfl,
      congrArg Clock.now hshown, hgave.works, (hgave.shown.trans hset.shown).trans habides.shown⟩
  have hwritten : Stage dial log span text total s { t with now := start + span } v := by
    rw [hgone]
    exact .written haccepted htotal rfl rfl (congrArg Clock.queue hshown)
      (hgave.given.trans (congrArg (· ++ [text]) (hset.given.trans hgiven)))
  rw [← habides.now] at hdue
  rw [advance_of_due hqueue hdue hv (by rw [hgone]; exact congrArg Clock.queue hshown), habides.now]
  exact ⟨hdelivered.setClock hclock hticks _,
    hwritten.setClock hclock hticks hdelivered.works _, by rw [hgone]; rfl⟩

/-- So when the clock is moved, the tree that waits is written if the delay is over, and then
    nothing waits. -/
theorem Stage.advance (hclock : host.Clocked dial delay span) (htakes : host.Takes log write)
    (hticks : host.Ticks dial log delay) (habides : Abides dial log delay s t u)
    (hstage : Stage dial log span text total s t u) {length : τ} (fuel : Nat)
    (hover : 0 < t.accepted → ∀ start ∈ t.last, start + span ≤ t.now + length →
      t.accepted = total ∧ write ⟨s.arbiter.window, t.nodes⟩ = .ok text) :
    Abides dial log delay s (t.next (.waited length)) (u.advance host dial (fuel + 1) length) ∧
      Stage dial log span text total s (t.next (.waited length))
        (u.advance host dial (fuel + 1) length) ∧
      ((∀ start ∈ t.last, start + span ≤ t.now + length) →
        (u.advance host dial (fuel + 1) length).arbiter.pendingNodes = none) := by
  have hpass : (dial.read u.outside).take? (t.now + length) = none → _ :=
    hstage.pass hclock hticks habides (fuel + 1)
  cases hstage with
  | calm _ _ hnodes _ hqueue _ =>
      rcases hpass (Clock.take?_nil hqueue) with ⟨habides', hstage', hkept⟩
      exact ⟨habides', hstage', fun _ => by rw [hkept, hnodes]⟩
  | written _ _ hnodes _ hqueue _ =>
      rcases hpass (Clock.take?_nil hqueue) with ⟨habides', hstage', hkept⟩
      exact ⟨habides', hstage', fun _ => by rw [hkept, hnodes]⟩
  | armed start number haccepted hlast hnodes hwaiting hqueue hgiven =>
      by_cases hdue : start + span ≤ t.now + length
      · rcases hover haccepted start hlast hdue with ⟨htotal, hwrite⟩
        rcases Stage.deliver hclock htakes hticks habides haccepted htotal hnodes hwaiting hqueue
          hgiven hwrite fuel hdue with ⟨habides', hstage', hnone⟩
        exact ⟨habides', hstage', fun _ => hnone⟩
      · rcases hpass (Clock.take?_of_not_due hqueue hdue) with ⟨habides', hstage', -⟩
        exact ⟨habides', hstage', fun hall => absurd (hall start hlast) hdue⟩

end Steps

section Runs

variable [BEq κ] [Add τ] [LE τ] [DecidableLE τ]

/-- A stroke befalls an arbiter. -/
def strike (host : Host δ κ σ) (dial : Dial τ σ) (fuel : Nat) (u : Session δ κ σ) :
    Stroke τ → Session δ κ σ
  | .waited length => u.advance host dial fuel length
  | .changed change => (serve host (.treeChanged change) u).1
  | .sent nodes => (serve host (.treeSent nodes) u).1

/-- A burst befalls an arbiter. -/
def strikes (host : Host δ κ σ) (dial : Dial τ σ) (fuel : Nat) (strokes : List (Stroke τ))
    (u : Session δ κ σ) : Session δ κ σ :=
  strokes.foldl (strike host dial fuel) u

variable [OfNat τ 0] [LT τ] [DecidableLT τ] {t total : Tally τ} {text : String}

/-- What holds before a stroke of a brisk burst holds after it. -/
theorem Stage.strike (hclock : host.Clocked dial delay span) (htakes : host.Takes log write)
    (hticks : host.Ticks dial log delay) (hspan : 0 < span) {stroke : Stroke τ}
    {strokes : List (Stroke τ)} (htotal : t.after (stroke :: strokes) = total)
    (hbrisk : Brisk span t (stroke :: strokes)) (htyped : stroke.Typed)
    (hwrite : total.accepted ≠ 0 → write ⟨s.arbiter.window, total.nodes⟩ = .ok text)
    (habides : Abides dial log delay s t u)
    (hstage : Stage dial log span text total.accepted s t u) (fuel : Nat) :
    Abides dial log delay s (t.next stroke) (strike host dial (fuel + 1) u stroke) ∧
      Stage dial log span text total.accepted s (t.next stroke)
        (strike host dial (fuel + 1) u stroke) := by
  have hlater : (t.next stroke).after strokes = total := htotal
  -- If this change counts, not all changes that do have come before.
  have hmore : ∀ nodes, t.next stroke = t.accept nodes → t.accepted < total.accepted := by
    intro nodes hnext
    have hle := (t.next stroke).accepted_le strokes
    rw [hlater, hnext] at hle
    exact hle
  cases stroke with
  | waited length =>
      have hover : 0 < t.accepted → ∀ start ∈ t.last, start + span ≤ t.now + length →
          t.accepted = total.accepted ∧ write ⟨s.arbiter.window, t.nodes⟩ = .ok text := by
        intro haccepted start hlast hdue
        rcases hbrisk.over hlast hdue with ⟨hsame, hnodes⟩
        rw [htotal] at hsame hnodes
        exact ⟨hsame.symm, hnodes ▸ hwrite (by omega)⟩
      rcases hstage.advance hclock htakes hticks habides fuel hover with ⟨habides', hstage', -⟩
      exact ⟨habides', hstage'⟩
  | changed change =>
      have hserved : Session.strike host dial (fuel + 1) u (.changed change)
          = (treeChanged host (serveWithin host 199) change u).1 := rfl
      rw [hserved, treeChanged_eq, habides.hears, if_pos rfl, habides.base]
      rw [Tally.next] at hmore ⊢
      cases happlied : change.apply t.nodes with
      | error fault => exact ⟨habides.remember _, hstage.remember _⟩
      | ok applied =>
          rw [happlied] at hmore
          exact hstage.accept hclock htakes hticks hspan habides (hmore applied.1 rfl) applied.1
  | sent nodes =>
      have hserved : Session.strike host dial (fuel + 1) u (.sent nodes)
          = (treeSent host (serveWithin host 199) nodes u).1 := rfl
      rw [hserved, treeSent_eq, habides.hears, if_pos rfl, Forest.assignIds_fault htyped]
      exact hstage.accept hclock htakes hticks hspan habides (hmore _ rfl) _

/-- What holds before a brisk burst holds after it. -/
theorem Stage.strikes (hclock : host.Clocked dial delay span) (htakes : host.Takes log write)
    (hticks : host.Ticks dial log delay) (hspan : 0 < span) {strokes : List (Stroke τ)}
    (htotal : t.after strokes = total) (hbrisk : Brisk span t strokes)
    (htyped : ∀ stroke ∈ strokes, stroke.Typed)
    (hwrite : total.accepted ≠ 0 → write ⟨s.arbiter.window, total.nodes⟩ = .ok text)
    (habides : Abides dial log delay s t u)
    (hstage : Stage dial log span text total.accepted s t u) (fuel : Nat) :
    Abides dial log delay s total (strikes host dial (fuel + 1) strokes u) ∧
      Stage dial log span text total.accepted s total (strikes host dial (fuel + 1) strokes u) := by
  induction strokes generalizing t u with
  | nil =>
      rcases htotal with rfl
      exact ⟨habides, hstage⟩
  | cons stroke strokes ih =>
      rcases hstage.strike hclock htakes hticks hspan htotal hbrisk
        (htyped stroke List.mem_cons_self) hwrite habides fuel with ⟨habides', hstage'⟩
      exact ih htotal (brisk_cons.mp hbrisk).2
        (fun other hother => htyped other (List.mem_cons_of_mem _ hother)) habides' hstage'

/-- The tally of a session before a burst. -/
def opening (dial : Dial τ σ) (s : Session δ κ σ) : Tally τ where
  now := (dial.read s.outside).now
  nodes := s.arbiter.nodes

/-- A burst of changes of the tree befalls an arbiter that listens and for which nothing
    waits. If the delay is never over while another change that counts is to come, and is over
    in the end, then the tree is the one before the burst with all the changes that count, and
    the document was given its text exactly once, or nothing if no change counts. No consumer
    was shown anything. -/
theorem burst_written_once (hclock : host.Clocked dial delay span) (htakes : host.Takes log write)
    (hticks : host.Ticks dial log delay) (hspan : 0 < span)
    (hreached : s.Reached host dial.roster delay) (hlistens : s.arbiter.listens = true)
    (hidle : s.arbiter.pending = false) (hnodes : s.arbiter.pendingNodes = none)
    (hworks : log.works s.outside) {strokes : List (Stroke τ)}
    (htyped : ∀ stroke ∈ strokes, stroke.Typed) (hbrisk : Brisk span (opening dial s) strokes)
    (htotal : (opening dial s).after strokes = total)
    (hwrite : total.accepted ≠ 0 → write ⟨s.arbiter.window, total.nodes⟩ = .ok text) {rest : τ}
    (hover : ∀ start ∈ total.last, start + span ≤ total.now + rest) (fuel : Nat) :
    let u := (strikes host dial (fuel + 1) strokes s).advance host dial (fuel + 1) rest
    u.arbiter.nodes = total.nodes ∧
      log.given u.outside = log.given s.outside ++ (if total.accepted = 0 then [] else [text]) ∧
      log.shown u.outside = log.shown s.outside ∧
      u.arbiter.pendingNodes = none ∧ u.arbiter.pending = false ∧ u.arbiter.phase = .idle := by
  intro u
  have hwound := hreached.wound hclock.timed
  have hqueue : (dial.read s.outside).queue = [] :=
    List.map_eq_nil_iff.mp (hwound.running_nil hidle)
  have hbase : s.arbiter.base = s.arbiter.nodes := by
    rw [Arbiter.base, hnodes, Option.getD_none]
  have habides : Abides dial log delay s (opening dial s) s :=
    ⟨hreached.idle, hlistens, rfl, hwound.delay .tree, Arbiter.waiting_of_pending hidle .text,
      hbase, rfl, hworks, rfl⟩
  have hstage : Stage dial log span text total.accepted s (opening dial s) s :=
    .calm rfl rfl hnodes (Arbiter.waiting_of_pending hidle .tree) hqueue rfl
  rcases hstage.strikes hclock htakes hticks hspan htotal hbrisk htyped hwrite habides fuel with
    ⟨hbefore, hstruck⟩
  rcases hstruck.advance hclock htakes hticks hbefore fuel fun haccepted _ _ _ =>
    ⟨rfl, hwrite (by omega)⟩ with ⟨hafter, hended, hnone⟩
  -- Nothing waits, so what the next change would build on is the tree itself.
  have hdone : u.arbiter.pendingNodes = none := hnone hover
  have htree : u.arbiter.nodes = total.nodes := by
    have hsame := hafter.base
    rw [Arbiter.base, hdone, Option.getD_none] at hsame
    exact hsame
  have htext : u.arbiter.textTimer.pending = false := congrArg Option.isSome hafter.text
  cases hended with
  | calm haccepted _ _ hwaiting _ hgiven =>
      have hcount : total.accepted = 0 := haccepted
      refine ⟨htree, ?_, hafter.shown, hdone, ?_, hafter.idle⟩
      · rw [if_pos hcount, List.append_nil]
        exact hgiven
      · exact Bool.or_eq_false_iff.mpr ⟨htext, congrArg Option.isSome hwaiting⟩
  | armed _ _ _ _ hnodes => exact nomatch hdone.symm.trans hnodes
  | written haccepted _ _ hwaiting _ hgiven =>
      have hcount : total.accepted ≠ 0 := Nat.ne_of_gt haccepted
      refine ⟨htree, ?_, hafter.shown, hdone, ?_, hafter.idle⟩
      · rw [if_neg hcount]
        exact hgiven
      · exact Bool.or_eq_false_iff.mpr ⟨htext, congrArg Option.isSome hwaiting⟩

end Runs

end Session

theorem Bench.host_ticks (delay : Int) : Bench.host.Ticks Bench.dial Bench.log delay where
  after _ _ _ := ⟨_, _, rfl, trivial, rfl, rfl, rfl⟩
  set _ _ _ := ⟨trivial, rfl, rfl, rfl⟩

namespace Session

/-- A bench where a button has been read. -/
def readButton : Session Int String Bench :=
  (serve Bench.host .start
    ⟨.fresh (.usual {}) 300 ["canvas"], { text := "Button \x7b id: a \x7d" }⟩).1

/-- The button is dragged twice, and a drag without a place comes in between. -/
def twoDrags : List (Stroke Int) :=
  [.changed (.move (.text "a") (some (.int 5)) (some (.int 6))), .waited 200,
    .changed (.move (.text "a") none none), .waited 50,
    .changed (.move (.text "a") (some (.int 7)) (some (.int 8))), .waited 100]

/-- Two drags in less than the delay are written once. -/
theorem twoDrags_written_once :
    let total := (opening Bench.dial readButton).after twoDrags
    let struck := strikes Bench.host Bench.dial 2 twoDrags readButton
    let u := struck.advance Bench.host Bench.dial 2 200
    Brisk 300 (opening Bench.dial readButton) twoDrags ∧ total.accepted = 2 ∧
      ∃ text, Markup.writeDocument ⟨readButton.arbiter.window, total.nodes⟩ = .ok text ∧
        u.arbiter.nodes = total.nodes ∧
        Bench.log.given u.outside = Bench.log.given readButton.outside ++ [text] ∧
        Bench.log.shown u.outside = Bench.log.shown readButton.outside := by
  intro total struck u
  have hreached : readButton.Reached Bench.host Bench.dial.roster 300 :=
    ⟨_, _, _, _, rfl, .asked _ .here trivial⟩
  have hnodes : readButton.arbiter.pendingNodes = none :=
    Option.isNone_iff_eq_none.mp (by decide +kernel)
  have htyped : ∀ stroke ∈ twoDrags, stroke.Typed := by
    intro stroke hstroke
    simp only [twoDrags, List.mem_cons, List.not_mem_nil, or_false] at hstroke
    rcases hstroke with rfl | rfl | rfl | rfl | rfl | rfl
    all_goals trivial
  have hbrisk : Brisk 300 (opening Bench.dial readButton) twoDrags := by decide +kernel
  have hcount : total.accepted = 2 := by decide +kernel
  have hover : ∀ start ∈ total.last, start + 300 ≤ total.now + 200 := by decide +kernel
  have hwritten : ∃ text,
      Markup.writeDocument ⟨readButton.arbiter.window, total.nodes⟩ = .ok text :=
    ok_of_isOk (by decide +kernel)
  rcases hwritten with ⟨text, hwritten⟩
  rcases burst_written_once (Bench.host_clocked 300) Bench.host_takes (Bench.host_ticks 300)
    (by decide) hreached (by decide +kernel) (by decide +kernel) hnodes trivial htyped hbrisk
    rfl (fun _ => hwritten) hover 1 with ⟨htree, hgiven, hshown, -⟩
  rw [if_neg fun hzero => absurd (hcount.symm.trans hzero) (by decide)] at hgiven
  exact ⟨hbrisk, hcount, text, hwritten, htree, hgiven, hshown⟩

end Session

end WidgetSync
