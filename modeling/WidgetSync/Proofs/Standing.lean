import WidgetSync.Proofs.Canonical
import WidgetSync.Proofs.Echoes

/-!
# How the Text Stands to the Tree

The text that both sides are believed to agree on, and whether they do.

An arbiter remembers the text of an edit when it is told of it, and reads it when the
timer goes off. In between the text that it remembers is ahead of the tree. `Standing`
follows this through a run: a text is agreed on if the tree was read from it or it was
written for the tree, and it is unread from an edit until one side is passed on. As long
as a text is unread something waits, by `Stands.unread`, so at rest no text is.

There are two ways in which a text is left behind for good. If the arbiter is switched off
while a text is unread, the timers are stopped and the text stays remembered, and when the
arbiter is switched on again it takes the text for known, however often it is told.
`switchedOff_forgets` is a run in which that happens. And if a tree is loaded that cannot
be given ids, it becomes the current one, but nothing is written.

## Main definitions

* `Standing`: How the text that is remembered stands to the tree.
* `Standing.next`, `Session.weather`: How it goes on through a run.
* `Arbiter.Corresponds`: The text that is remembered belongs to the tree.
* `Session.Stands`: The invariant.

## Theorems

* `Session.start_spec`, `Session.restore_spec`, `Session.loadTree_spec`: What starting,
  restoring and loading do among collaborators that work.
* `Session.Stands.pass`: Passing a side on keeps the invariant.
* `Session.Stands.undergo`: Every incident keeps it.
* `Session.Stands.weather`: So does every run.
* `Session.rest_corresponds`: At rest the text belongs to the tree, or it was left behind.
-/

namespace WidgetSync

variable {δ κ σ : Type}

/-- How the text that is remembered stands to the tree. -/
inductive Standing where
  /-- It belongs to the tree. -/
  | agreed
  /-- It is an edit that has not been passed on. -/
  | unread
  /-- It is an edit that was dropped when the arbiter was switched off. -/
  | dropped
  /-- The tree is one that could not be loaded. -/
  | misloaded
deriving DecidableEq

namespace Arbiter

/-- The side is passed on when its timer goes off. -/
def passes (a : Arbiter δ κ) : Side → Bool
  | .text => a.textTimer.pending && !(a.treeTimer.pending && a.textEvent < a.treeEvent)
  | .tree => a.treeTimer.pending && !(a.textTimer.pending && a.treeEvent < a.textEvent)

/-- If the text is not passed on, the tree is as soon as anything waits. -/
theorem passes_tree_of_kept {a : Arbiter δ κ} (h : a.passes .text = false) :
    (a.setTimer a.textTimer.idle .text).passes .tree = a.pending := by
  have htree : (a.setTimer a.textTimer.idle .text).passes .tree = a.treeTimer.pending := by
    simp only [passes, setTimer, Debouncer.pending_idle, Bool.false_and, Bool.not_false,
      Bool.and_true]
  rw [htree, pending]
  cases hwaits : a.treeTimer.pending with
  | true => rw [Bool.or_true]
  | false =>
      rw [passes, hwaits, Bool.false_and, Bool.not_false, Bool.and_true] at h
      rw [h, Bool.or_false]

/-- The text that is remembered belongs to the tree: the tree was read from it, or it is
    what is written for the tree, if that can be written. -/
def Corresponds (read : String → Document) (write : Document → Except Fault String)
    (a : Arbiter δ κ) : Prop :=
  (∃ text, a.lastText = some text ∧
    (a.nodes = (read text).nodes ∧ a.window = (read text).window ∨
      write ⟨a.window, a.nodes⟩ = .ok text)) ∨
  ∃ fault, write ⟨a.window, a.nodes⟩ = .error fault

end Arbiter

/-- How the text stands after an incident. An edit is unread unless it is passed on at
    once, and it stays so until a side is passed on. -/
def Standing.next (before after : Arbiter δ κ) (standing : Standing) : Incident → Standing
  | .edited _ _ =>
    if after.events = before.events then standing
    else if after.textTimer.pending then .unread else .agreed
  | .slipped _ => standing
  | .changed _ =>
    if after.events = before.events ∨ after.treeTimer.pending then standing else .agreed
  | .sent _ =>
    if after.events = before.events ∨ after.treeTimer.pending then standing else .agreed
  | .started => .agreed
  | .flushed => if before.pending then .agreed else standing
  | .loaded nodes _ => if (Forest.assignIds nodes).fault.isSome then .misloaded else .agreed
  | .restored _ => .agreed
  | .switched on => if !on && standing = .unread then .dropped else standing
  | .wentOff side => if before.passes side then .agreed else standing

namespace Session

/-- The session after some incidents, and how the text stands then. -/
def weather [BEq κ] (host : Host δ κ σ) (put : String → σ → σ) :
    List Incident → Session δ κ σ × Standing → Session δ κ σ × Standing
  | [], p => p
  | i :: incidents, (s, standing) =>
    weather host put incidents
      (s.undergo host put i, standing.next s.arbiter (s.undergo host put i).arbiter i)

variable {host : Host δ κ σ} {view : View κ σ} {delay : δ} {read : String → Document}
  {write : Document → Except Fault String} {inner : Call κ → Session δ κ σ → Served δ κ σ}

@[simp]
theorem afterTree_events (nodes : Forest) (written : Except Fault String) (a : Arbiter δ κ) :
    (afterTree nodes written a).events = a.events := by
  cases written with
  | error fault => rfl
  | ok text => rfl

@[simp]
theorem afterTree_treeTimer (nodes : Forest) (written : Except Fault String) (a : Arbiter δ κ) :
    (afterTree nodes written a).treeTimer = a.treeTimer := by
  cases written with
  | error fault => rfl
  | ok text => rfl

section Operations

/-- Nothing waits any longer, and nothing else is changed. -/
theorem cancelAll_spec (h : host.Faithful view delay read write) {s : Session δ κ σ}
    (hs : view.sound s.outside) :
    ∃ w, cancelAll host s =
        ⟨{ s.arbiter with
            textTimer := s.arbiter.textTimer.idle, treeTimer := s.arbiter.treeTimer.idle
            pendingNodes := none }, w⟩ ∧ view.Same s.outside w := by
  have htext := h.same_cancel hs s.arbiter.textTimer
  have htree := h.same_cancel htext.sound s.arbiter.treeTimer
  refine ⟨_, ?_, htext.trans htree⟩
  simp only [cancelAll, cancel, Arbiter.timer, Arbiter.setTimer, Debouncer.cancel_fst, setPending,
    update]

/-- Starting passes on the text of the document. -/
theorem start_spec (h : host.Faithful view delay read write) (hinner : Echoes inner)
    {s : Session δ κ σ} (hs : view.sound s.outside) :
    ∃ w, start host inner s =
        (⟨afterText (view.text s.outside) (read (view.text s.outside))
          ({ s.arbiter with textTimer := s.arbiter.textTimer.idle }.count .text), w⟩, none) ∧
      view.sound w := by
  rcases cancelAll_spec h hs with ⟨w, hcancelled, hsame⟩
  rcases propagateText_spec h hinner hsame.sound (s := update (·.count .text)
      (agreeOn (view.text w) ⟨{ s.arbiter with
        textTimer := s.arbiter.textTimer.idle, treeTimer := s.arbiter.treeTimer.idle
        pendingNodes := none }, w⟩)) rfl with ⟨w', hpassed, hsound, -⟩
  refine ⟨w', ?_, hsound⟩
  rw [start, hcancelled]
  simp only [h.text w hsame.sound]
  rw [hpassed]
  simp only [update, agreeOn, hsame.text]
  rfl

/-- Restoring makes a text the current one on both sides. -/
theorem restore_spec (h : host.Faithful view delay read write) (hinner : Echoes inner)
    (text : String) {s : Session δ κ σ} (hs : view.sound s.outside) :
    ∃ w, restore host inner text s =
        ⟨afterText text (read text) { s.arbiter with textTimer := s.arbiter.textTimer.idle }, w⟩ ∧
      view.sound w := by
  rcases cancelAll_spec h hs with ⟨w, hcancelled, hsame⟩
  rw [restore, hcancelled]
  simp only [remember, enter, agreeOn, update]
  rcases h.replace { s.arbiter with
      phase := .treeToText, textTimer := s.arbiter.textTimer.idle
      treeTimer := s.arbiter.treeTimer.idle, pendingNodes := none
      lastFault := none, lastText := some text } text w hsame.sound with
    ⟨hfault, hsound, -, -, hcalls⟩
  -- The text is put into the document while the phase says that a tree is being written, so
  -- its echo does not count.
  rw [react_of_forall fun c hc => by
    rcases hcalls c hc with ⟨echo, rfl⟩
    exact hinner.text _ echo rfl]
  simp only [hfault]
  rcases loadText_spec h hinner text (s := ⟨{ s.arbiter with
      phase := .textToTree, textTimer := s.arbiter.textTimer.idle
      treeTimer := s.arbiter.treeTimer.idle, pendingNodes := none
      lastFault := none, lastText := some text }, _⟩) hsound rfl with ⟨w', hread, hsound', -⟩
  refine ⟨w', ?_, hsound'⟩
  rw [hread]
  rfl

/-- Loading makes a tree the current one, and writes it if it can be given ids and be
    written. -/
theorem loadTree_spec (h : host.Faithful view delay read write) (hinner : Echoes inner)
    (nodes : Forest) (window : Option Window) {s : Session δ κ σ} (hs : view.sound s.outside) :
    ∃ w, loadTree host inner nodes window s =
        ⟨match (Forest.assignIds nodes).fault with
          | some fault =>
            { s.arbiter with
              phase := .idle, nodes := (Forest.assignIds nodes).nodes, lastFault := some fault
              textTimer := s.arbiter.textTimer.idle, treeTimer := s.arbiter.treeTimer.idle
              pendingNodes := none }
          | none =>
            afterTree (Forest.assignIds nodes).nodes
              (write ⟨window.getD s.arbiter.window, (Forest.assignIds nodes).nodes⟩)
              { s.arbiter with
                window := window.getD s.arbiter.window
                treeTimer := s.arbiter.treeTimer.idle }, w⟩ ∧
      view.sound w := by
  rcases cancelAll_spec h hs with ⟨w, hcancelled, hsame⟩
  rw [loadTree, hcancelled]
  cases hassigned : (Forest.assignIds nodes).fault with
  -- Without ids the tree is kept, but neither shown nor written.
  | some fault => exact ⟨w, rfl, hsame.sound⟩
  | none =>
      simp only [remember, enter, update]
      -- The tree is shown before it is written, each under its own phase.
      rcases push_shown h hinner (Forest.assignIds nodes).nodes (s := ⟨{ s.arbiter with
          phase := .textToTree, textTimer := s.arbiter.textTimer.idle
          treeTimer := s.arbiter.treeTimer.idle, pendingNodes := none, lastFault := none
          nodes := (Forest.assignIds nodes).nodes, window := window.getD s.arbiter.window }, w⟩)
        hsame.sound rfl with ⟨w', hpushed, hsound, -⟩
      rw [hpushed]
      rcases writeTree_spec h hinner (Forest.assignIds nodes).nodes (s := ⟨{ s.arbiter with
          phase := .treeToText, textTimer := s.arbiter.textTimer.idle
          treeTimer := s.arbiter.treeTimer.idle, pendingNodes := none, lastFault := none
          nodes := (Forest.assignIds nodes).nodes, window := window.getD s.arbiter.window }, w'⟩)
        hsound rfl with ⟨w'', hwritten, hsound', -⟩
      refine ⟨w'', ?_, hsound'⟩
      rw [hwritten]
      simp only
      cases write ⟨window.getD s.arbiter.window, (Forest.assignIds nodes).nodes⟩ with
      | error fault => rfl
      | ok text => rfl

end Operations

/-- The arbiter is idle, its counters and timers are in order, and a tree waits while the
    timer of the tree runs. -/
structure Upright (view : View κ σ) (delay : δ) (s : Session δ κ σ) : Prop where
  sound : view.sound s.outside
  idle : s.arbiter.phase = .idle
  textDelay : s.arbiter.textTimer.delay = delay
  treeDelay : s.arbiter.treeTimer.delay = delay
  textEvent : s.arbiter.textEvent ≤ s.arbiter.events
  treeEvent : s.arbiter.treeEvent ≤ s.arbiter.events
  waits : s.arbiter.treeTimer.pending = true → ∃ nodes, s.arbiter.pendingNodes = some nodes

/-- The invariant: while a text is unread something waits, and a text that is agreed on
    belongs to the tree. -/
structure Stands (view : View κ σ) (delay : δ) (read : String → Document)
    (write : Document → Except Fault String) (standing : Standing) (s : Session δ κ σ) :
    Prop where
  upright : Upright view delay s
  unread : standing = .unread → s.arbiter.pending = true
  agreed : standing = .agreed → s.arbiter.Corresponds read write

section Invariant

variable {standing : Standing} {s : Session δ κ σ}

theorem Stands.of_sound (h : Stands view delay read write standing s) {w : σ}
    (hw : view.sound w) : Stands view delay read write standing ⟨s.arbiter, w⟩ :=
  ⟨{ h.upright with sound := hw }, h.unread, h.agreed⟩

/-- A text that was passed on is agreed on. -/
theorem Upright.afterText (h : Upright view delay s) {w : σ} (hw : view.sound w) (text : String) :
    Stands view delay read write .agreed
      ⟨Session.afterText text (read text) s.arbiter, w⟩ := by
  refine ⟨{ h with sound := hw, idle := rfl, treeDelay := h.treeDelay, waits := ?_ }, ?_, ?_⟩
  · exact fun hwaits => absurd hwaits Bool.false_ne_true
  · exact fun hunread => absurd hunread (by decide)
  · exact fun _ => .inl ⟨text, rfl, .inl ⟨rfl, rfl⟩⟩

/-- So is the text of a tree that was passed on. -/
theorem Upright.afterTree (h : Upright view delay s) (hidle : s.arbiter.treeTimer.pending = false)
    {w : σ} (hw : view.sound w) (nodes : Forest) :
    Stands view delay read write .agreed
      ⟨Session.afterTree nodes (write ⟨s.arbiter.window, nodes⟩) s.arbiter, w⟩ := by
  have hwaits : s.arbiter.treeTimer.pending = true →
      ∃ nodes, (none : Option Forest) = some nodes := by
    intro hpending
    rw [hidle] at hpending
    exact absurd hpending Bool.false_ne_true
  have hunread : Standing.agreed = .unread →
      (Session.afterTree nodes (write ⟨s.arbiter.window, nodes⟩) s.arbiter).pending = true :=
    fun hunread => absurd hunread (by decide)
  refine ⟨?_, hunread, fun _ => ?_⟩
  · unfold Session.afterTree
    cases write ⟨s.arbiter.window, nodes⟩ with
    | error fault => exact { h with sound := hw, idle := rfl, waits := hwaits }
    | ok text => exact { h with sound := hw, idle := rfl, waits := hwaits }
  · unfold Session.afterTree
    cases hwritten : write ⟨s.arbiter.window, nodes⟩ with
    -- No text belongs to a tree that cannot be written, so any text will do.
    | error fault => exact .inr ⟨fault, hwritten⟩
    | ok text => exact .inl ⟨text, rfl, .inr hwritten⟩

/-- A text that waited is passed on, unless the tree is newer and waits too. -/
theorem Stands.passText (hhost : host.Faithful view delay read write) (hinner : Echoes inner)
    (h : Stands view delay read write standing s) (hpending : s.arbiter.textTimer.pending = true)
    {w : σ} (hw : view.sound w) :
    Stands view delay read write (if s.arbiter.passes .text then .agreed else standing)
      (propagateText host inner ⟨{ s.arbiter with textTimer := s.arbiter.textTimer.idle }, w⟩) := by
  have hupright : Upright view delay
      (⟨{ s.arbiter with textTimer := s.arbiter.textTimer.idle }, w⟩ : Session δ κ σ) :=
    { h.upright with sound := hw }
  by_cases hnew : (s.arbiter.treeTimer.pending
      && decide (s.arbiter.textEvent < s.arbiter.treeEvent)) = true
  · -- The tree waits and is newer, so the text stays unread with it.
    have hkept : s.arbiter.passes .text = false := by
      rw [Arbiter.passes, hnew, Bool.not_true, Bool.and_false]
    rw [hkept, propagateText_superseded (by exact hnew)]
    refine ⟨hupright, fun _ => ?_, h.agreed⟩
    exact Arbiter.pending_of_timer .tree (Bool.and_eq_true_iff.mp hnew).1
  · have hpassed : s.arbiter.passes .text = true := by
      rw [Arbiter.passes, hpending, Bool.eq_false_iff.mpr hnew, Bool.not_false, Bool.and_true]
    rcases propagateText_spec hhost hinner (s := ⟨{ s.arbiter with
        textTimer := s.arbiter.textTimer.idle }, w⟩) hw (Bool.eq_false_iff.mpr hnew) with
      ⟨w', hafter, hsound, -⟩
    rw [hpassed, hafter]
    exact hupright.afterText hsound _

/-- A tree that waited is passed on, unless the text is newer and waits too. -/
theorem Stands.passTree (hhost : host.Faithful view delay read write) (hinner : Echoes inner)
    (h : Stands view delay read write standing s) (hpending : s.arbiter.treeTimer.pending = true)
    {w : σ} (hw : view.sound w) :
    Stands view delay read write (if s.arbiter.passes .tree then .agreed else standing)
      (propagateTree host inner ⟨{ s.arbiter with treeTimer := s.arbiter.treeTimer.idle }, w⟩) := by
  have hupright : Upright view delay
      (⟨{ s.arbiter with treeTimer := s.arbiter.treeTimer.idle }, w⟩ : Session δ κ σ) :=
    { h.upright with
      sound := hw, waits := fun hwaits => absurd hwaits Bool.false_ne_true }
  by_cases hnew : (s.arbiter.textTimer.pending
      && decide (s.arbiter.treeEvent < s.arbiter.textEvent)) = true
  · -- The tree is dropped, but the newer text still waits.
    have hkept : s.arbiter.passes .tree = false := by
      rw [Arbiter.passes, hnew, Bool.not_true, Bool.and_false]
    rw [hkept, propagateTree_superseded (by exact hnew)]
    refine ⟨{ hupright with waits := fun hwaits => absurd hwaits Bool.false_ne_true },
      fun _ => ?_, h.agreed⟩
    exact Arbiter.pending_of_timer .text (Bool.and_eq_true_iff.mp hnew).1
  · have hpassed : s.arbiter.passes .tree = true := by
      rw [Arbiter.passes, hpending, Bool.eq_false_iff.mpr hnew, Bool.not_false, Bool.and_true]
    rcases h.upright.waits hpending with ⟨nodes, hnodes⟩
    rcases propagateTree_spec hhost hinner (s := ⟨{ s.arbiter with
        treeTimer := s.arbiter.treeTimer.idle }, w⟩) hw (Bool.eq_false_iff.mpr hnew) hnodes with
      ⟨w', hafter, hsound, -⟩
    rw [hpassed, hafter]
    exact hupright.afterTree rfl hsound nodes

/-- A side that waited is passed on, unless a newer change of the other side waits too. -/
theorem Stands.pass (hhost : host.Faithful view delay read write) (hinner : Echoes inner)
    (h : Stands view delay read write standing s) (side : Side) {w : σ} (hw : view.sound w) :
    let s' : Session δ κ σ := ⟨s.arbiter.setTimer (s.arbiter.timer side).idle side, w⟩
    Stands view delay read write (if s.arbiter.passes side then .agreed else standing)
      (if (s.arbiter.timer side).pending then propagate host inner side s' else s') := by
  intro s'
  by_cases hpending : (s.arbiter.timer side).pending = true
  · rw [if_pos hpending]
    cases side with
    | text => exact h.passText hhost hinner hpending hw
    | tree => exact h.passTree hhost hinner hpending hw
  · have hkept : s.arbiter.passes side = false := by
      cases side with
      | text => exact Bool.and_eq_false_imp.mpr fun hwaits => absurd hwaits hpending
      | tree => exact Bool.and_eq_false_imp.mpr fun hwaits => absurd hwaits hpending
    rw [if_neg hpending, hkept]
    simp only [s', Debouncer.idle_of_pending (Bool.eq_false_iff.mpr hpending),
      Arbiter.setTimer_timer]
    exact h.of_sound hw

/-- A text that the arbiter does not know is unread until it is passed on. -/
theorem Stands.acceptText (hhost : host.Faithful view delay read write) (hinner : Echoes inner)
    (h : Stands view delay read write standing s) (text : String) {w : σ} (hw : view.sound w) :
    let s' := (acceptText host inner text ⟨s.arbiter, w⟩).1
    Stands view delay read write
      (if s'.arbiter.events = s.arbiter.events then standing
        else if s'.arbiter.textTimer.pending then .unread else .agreed) s' := by
  unfold Session.acceptText
  -- Whether the text counted as an event can be told from the number of events.
  by_cases hknown : s.arbiter.lastText = some text
  · simp only [hknown, if_true]
    exact h.of_sound hw
  · simp only [hknown, if_false]
    have hcounted : Upright view delay (update (·.count .text) (agreeOn text ⟨s.arbiter, w⟩)) :=
      { h.upright with
        sound := hw, textEvent := Nat.le_refl _
        treeEvent := Nat.le_succ_of_le h.upright.treeEvent }
    have hnew : s.arbiter.events + 1 ≠ s.arbiter.events := Nat.succ_ne_self _
    rcases schedule_spec inner hhost .text (s := update (·.count .text) (agreeOn text
        ⟨s.arbiter, w⟩)) hw h.upright.textDelay with
      ⟨number, w₁, hwaits, hw₁⟩ | ⟨w₁, hpassed, hw₁⟩
    · rw [hwaits]
      change Stands view delay read write
        (if s.arbiter.events + 1 = s.arbiter.events then standing else .unread) _
      rw [if_neg hnew]
      refine ⟨{ hcounted with sound := hw₁.sound, textDelay := rfl }, fun _ => rfl, ?_⟩
      exact fun hagreed => absurd hagreed (by decide)
    · -- The timer has gone off at once, and the text has been read.
      have hs₁ : Upright view delay
          (⟨(update (·.count .text) (agreeOn text ⟨s.arbiter, w⟩)).arbiter.setTimer
            { delay } .text, w₁⟩ : Session δ κ σ) :=
        { hcounted with sound := hw₁.sound, textDelay := rfl }
      rcases propagateText_spec hhost hinner hw₁.sound (s := ⟨(update (·.count .text) (agreeOn
          text ⟨s.arbiter, w⟩)).arbiter.setTimer { delay } .text, w₁⟩)
          (newer_eq_false (Nat.lt_succ_of_le h.upright.treeEvent)) with ⟨w₂, hread, hsound, -⟩
      rw [hpassed, propagate, hread]
      change Stands view delay read write
        (if s.arbiter.events + 1 = s.arbiter.events then standing else .agreed) _
      rw [if_neg hnew]
      exact hs₁.afterText hsound _

/-- A tree that was accepted waits, or it is passed on. -/
theorem Stands.acceptTree (hhost : host.Faithful view delay read write) (hinner : Echoes inner)
    (h : Stands view delay read write standing s) (nodes : Forest) :
    let s' := (acceptTree host inner nodes s).1
    Stands view delay read write
      (if s'.arbiter.events = s.arbiter.events ∨ s'.arbiter.treeTimer.pending then standing
        else .agreed) s' := by
  unfold Session.acceptTree
  have hcounted : Upright view delay (update (·.count .tree) (setPending (some nodes) s)) :=
    { h.upright with
      textEvent := Nat.le_succ_of_le h.upright.textEvent, treeEvent := Nat.le_refl _
      waits := fun _ => ⟨nodes, rfl⟩ }
  rcases schedule_spec inner hhost .tree (s := update (·.count .tree) (setPending (some nodes) s))
      h.upright.sound h.upright.treeDelay with ⟨number, w₁, hwaits, hw₁⟩ | ⟨w₁, hpassed, hw₁⟩
  · rw [hwaits]
    intro s'
    have hpending : s'.arbiter.treeTimer.pending = true := rfl
    rw [if_pos (Or.inr hpending)]
    refine ⟨{ hcounted with
      sound := hw₁.sound, treeDelay := rfl, waits := fun _ => ⟨nodes, rfl⟩ }, fun _ => ?_, h.agreed⟩
    exact Bool.or_true _
  · have hs₁ : Upright view delay
        (⟨(update (·.count .tree) (setPending (some nodes) s)).arbiter.setTimer
          { delay } .tree, w₁⟩ : Session δ κ σ) :=
      { hcounted with sound := hw₁.sound, treeDelay := rfl, waits := fun _ => ⟨nodes, rfl⟩ }
    rcases propagateTree_spec hhost hinner hw₁.sound (s := ⟨(update (·.count .tree) (setPending
        (some nodes) s)).arbiter.setTimer { delay } .tree, w₁⟩)
        (newer_eq_false (Nat.lt_succ_of_le h.upright.textEvent)) rfl with
      ⟨w₂, hwritten, hsound, -⟩
    rw [hpassed, propagate, hwritten]
    simp only [afterTree_events, afterTree_treeTimer]
    change Stands view delay read write
      (if s.arbiter.events + 1 = s.arbiter.events ∨ false = true then standing else .agreed) _
    rw [if_neg (not_or.mpr ⟨Nat.succ_ne_self _, Bool.false_ne_true⟩)]
    exact hs₁.afterTree rfl hsound nodes

theorem Stands.flushSide (hhost : host.Faithful view delay read write) (hinner : Echoes inner)
    (h : Stands view delay read write standing s) (side : Side) :
    Stands view delay read write (if s.arbiter.passes side then .agreed else standing)
      (flushSide host inner side s) := by
  rcases flushSide_spec inner hhost side h.upright.sound with ⟨w, hw, hflushed⟩
  rw [hflushed]
  exact h.pass hhost hinner side hw.sound

/-- If the text is not passed on, only its timer is stopped. -/
theorem flushSide_kept (hhost : host.Faithful view delay read write)
    (hs : view.sound s.outside) (hkept : s.arbiter.passes .text = false) :
    (Session.flushSide host inner .text s).arbiter =
      s.arbiter.setTimer s.arbiter.textTimer.idle .text := by
  rcases flushSide_spec inner hhost .text hs with ⟨w, -, hflushed⟩
  rw [hflushed]
  simp only
  split
  · rename_i hpending
    rw [Arbiter.passes, show s.arbiter.textTimer.pending = true from hpending, Bool.true_and,
      Bool.not_eq_false'] at hkept
    exact congrArg Session.arbiter (propagateText_superseded
      (s := ⟨s.arbiter.setTimer s.arbiter.textTimer.idle .text, w⟩) hkept)
  · rfl

theorem Stands.textChanged (hhost : host.Faithful view delay read write) (hinner : Echoes inner)
    (h : Stands view delay read write standing s) (told : Option String) {w : σ}
    (hw : view.sound w) :
    let s' := (textChanged host inner told ⟨s.arbiter, w⟩).1
    Stands view delay read write
      (if s'.arbiter.events = s.arbiter.events then standing
        else if s'.arbiter.textTimer.pending then .unread else .agreed) s' := by
  rcases textChanged_cases host inner told ⟨s.arbiter, w⟩ with ⟨fault, hserved⟩ | ⟨text, hserved⟩
  · rw [hserved]
    simp only [if_true]
    exact h.of_sound hw
  · rw [hserved]
    exact h.acceptText hhost hinner text hw

theorem Stands.treeChanged (hhost : host.Faithful view delay read write) (hinner : Echoes inner)
    (h : Stands view delay read write standing s) (change : Change) :
    let s' := (treeChanged host inner change s).1
    Stands view delay read write
      (if s'.arbiter.events = s.arbiter.events ∨ s'.arbiter.treeTimer.pending then standing
        else .agreed) s' := by
  rcases treeChanged_cases host inner change s with hserved | ⟨fault, hserved⟩ | ⟨nodes, hserved⟩
  · rw [hserved]
    simp only [true_or, if_true]
    exact h
  · rw [hserved]
    simp only [remember, update, true_or, if_true]
    exact ⟨{ h.upright with }, h.unread, h.agreed⟩
  · rw [hserved]
    exact h.acceptTree hhost hinner nodes

theorem Stands.treeSent (hhost : host.Faithful view delay read write) (hinner : Echoes inner)
    (h : Stands view delay read write standing s) (nodes : Forest) :
    let s' := (treeSent host inner nodes s).1
    Stands view delay read write
      (if s'.arbiter.events = s.arbiter.events ∨ s'.arbiter.treeTimer.pending then standing
        else .agreed) s' := by
  rcases treeSent_cases host inner nodes s with hserved | ⟨kept, fault, hserved⟩ | ⟨kept, hserved⟩
  · rw [hserved]
    simp only [true_or, if_true]
    exact h
  · rw [hserved]
    simp only [remember, setPending, update, true_or, if_true]
    exact ⟨{ h.upright with waits := fun _ => ⟨_, rfl⟩ }, h.unread, h.agreed⟩
  · rw [hserved]
    exact h.acceptTree hhost hinner kept

/-- Once what waits has been passed on, the text is agreed on. -/
theorem Stands.flush (hhost : host.Faithful view delay read write) (hinner : Echoes inner)
    (h : Stands view delay read write standing s) :
    Stands view delay read write (if s.arbiter.pending then .agreed else standing)
      (flush host inner s) := by
  have hflushed := (h.flushSide hhost hinner .text).flushSide hhost hinner .tree
  by_cases hpasses : s.arbiter.passes .text = true
  · have hpending : s.arbiter.pending = true :=
      Bool.or_eq_true_iff.mpr (.inl (Bool.and_eq_true_iff.mp hpasses).1)
    rw [if_pos hpasses, ite_self] at hflushed
    rw [if_pos hpending]
    exact hflushed
  · -- The text is not passed on, so the tree is if anything waits.
    have hkept := Bool.eq_false_iff.mpr hpasses
    rw [if_neg hpasses, flushSide_kept hhost h.upright.sound hkept,
      Arbiter.passes_tree_of_kept hkept] at hflushed
    exact hflushed

/-- Switching off drops an edit that is unread. -/
theorem Stands.enable (hhost : host.Faithful view delay read write)
    (h : Stands view delay read write standing s) (on : Bool) :
    Stands view delay read write (if !on && standing = .unread then .dropped else standing)
      (enable host on s) := by
  cases on with
  | true => exact ⟨{ h.upright with }, h.unread, h.agreed⟩
  | false =>
      rcases cancelAll_spec hhost (s := s.update fun a => { a with enabled := false })
        h.upright.sound with ⟨w, hcancelled, hsame⟩
      rw [Session.enable]
      simp only [Bool.false_eq_true, if_false, hcancelled, Bool.not_false, Bool.true_and,
        decide_eq_true_eq]
      have hupright : Upright view delay (⟨{ s.arbiter with
          enabled := false, textTimer := s.arbiter.textTimer.idle
          treeTimer := s.arbiter.treeTimer.idle, pendingNodes := none }, w⟩ : Session δ κ σ) :=
        { h.upright with
          sound := hsame.sound, waits := fun hwaits => absurd hwaits Bool.false_ne_true }
      by_cases hunread : standing = .unread
      · -- Nothing waits any longer, which an unread text would need.
        rw [if_pos hunread]
        exact ⟨hupright, fun hdropped => absurd hdropped (by decide),
          fun hagreed => absurd hagreed (by decide)⟩
      · rw [if_neg hunread]
        exact ⟨hupright, fun h => absurd h hunread, h.agreed⟩

/-- Starting reads the text. -/
theorem Stands.start (hhost : host.Faithful view delay read write) (hinner : Echoes inner)
    (h : Stands view delay read write standing s) :
    Stands view delay read write .agreed (start host inner s).1 := by
  rcases start_spec hhost hinner h.upright.sound with ⟨w, hstarted, hsound⟩
  rw [hstarted]
  refine Upright.afterText (s := ⟨{ s.arbiter with
    textTimer := s.arbiter.textTimer.idle }.count .text, w⟩) ?_ hsound _
  exact { h.upright with
    sound := hsound, textEvent := Nat.le_refl _
    treeEvent := Nat.le_succ_of_le h.upright.treeEvent }

/-- Restoring reads the text too. -/
theorem Stands.restore (hhost : host.Faithful view delay read write) (hinner : Echoes inner)
    (h : Stands view delay read write standing s) (text : String) :
    Stands view delay read write .agreed (restore host inner text s) := by
  rcases restore_spec hhost hinner text h.upright.sound with ⟨w, hrestored, hsound⟩
  rw [hrestored]
  exact Upright.afterText (s := ⟨{ s.arbiter with
    textTimer := s.arbiter.textTimer.idle }, w⟩) { h.upright with sound := hsound } hsound text

/-- Loading writes the tree, if it can be given ids. -/
theorem Stands.loadTree (hhost : host.Faithful view delay read write) (hinner : Echoes inner)
    (h : Stands view delay read write standing s) (nodes : Forest) (window : Option Window) :
    Stands view delay read write
      (if (Forest.assignIds nodes).fault.isSome then .misloaded else .agreed)
      (loadTree host inner nodes window s) := by
  rcases loadTree_spec hhost hinner nodes window h.upright.sound with ⟨w, hloaded, hsound⟩
  rw [hloaded]
  cases (Forest.assignIds nodes).fault with
  | some fault =>
      rw [if_pos (Option.isSome_some)]
      refine ⟨{ h.upright with sound := hsound, idle := rfl, waits := ?_ },
        fun hmisloaded => absurd hmisloaded (by decide),
        fun hmisloaded => absurd hmisloaded (by decide)⟩
      exact fun hwaits => absurd hwaits Bool.false_ne_true
  | none =>
      refine Upright.afterTree (s := ⟨{ s.arbiter with
        window := window.getD s.arbiter.window, treeTimer := s.arbiter.treeTimer.idle }, w⟩)
        ?_ rfl hsound _
      exact { h.upright with
        sound := hsound, waits := fun hwaits => absurd hwaits Bool.false_ne_true }

end Invariant

section Runs

variable [BEq κ] {standing : Standing} {s : Session δ κ σ}

/-- Every incident keeps the invariant. -/
theorem Stands.undergo (hhost : host.Faithful view delay read write)
    (h : Stands view delay read write standing s) (i : Incident) :
    Stands view delay read write (standing.next s.arbiter (s.undergo host view.put i).arbiter i)
      (s.undergo host view.put i) := by
  have hinner : Echoes (serveWithin host 199) := serveWithin_echoes host 198
  have hserve : ∀ (c : Call κ) (s : Session δ κ σ),
      serve host c s = call host (serveWithin host 199) c s := fun _ _ => rfl
  have hput : ∀ text, view.sound (view.put text s.outside) :=
    fun text => (hhost.put text s.outside h.upright.sound).1
  cases i with
  | edited text named => exact h.textChanged hhost hinner _ (hput text)
  | slipped text =>
      rw [Session.undergo, Incident.call]
      simp only [Incident.edit]
      split
      · exact h
      · exact h.of_sound (hput text)
  | changed change => exact h.treeChanged hhost hinner change
  | sent nodes => exact h.treeSent hhost hinner nodes
  | started => exact h.start hhost hinner
  | flushed => exact h.flush hhost hinner
  | loaded nodes window => exact h.loadTree hhost hinner nodes window
  | restored text => exact h.restore hhost hinner text
  | switched on => exact h.enable hhost on
  | wentOff side =>
      have hpassed := h.pass hhost hinner side h.upright.sound
      rw [Session.undergo, Incident.call]
      simp only [Incident.edit, hserve, call, goOff_spec]
      exact hpassed

/-- So does every run. -/
theorem Stands.weather (hhost : host.Faithful view delay read write) (incidents : List Incident) :
    ∀ {standing : Standing} {s : Session δ κ σ}, Stands view delay read write standing s →
      Stands view delay read write (weather host view.put incidents (s, standing)).2
        (weather host view.put incidents (s, standing)).1 := by
  induction incidents with
  | nil =>
      intro standing s h
      exact h
  | cons i incidents ih =>
      intro standing s h
      exact ih (h.undergo hhost i)

/-- The text that stands in the document when the arbiter starts is agreed on. -/
theorem stands_started (hhost : host.Faithful view delay read write) (window : Window)
    (consumers : List κ) {w : σ} (hw : view.sound w) :
    Stands view delay read write .agreed (started host window delay consumers w) := by
  -- Before the start no text is agreed on, and starting asks for no more than that the
  -- counters are in order.
  have hfresh : Stands view delay read write .dropped
      (⟨.fresh window delay consumers, w⟩ : Session δ κ σ) :=
    ⟨⟨hw, rfl, rfl, rfl, Nat.le_refl _, Nat.le_refl _,
      fun hwaits => absurd hwaits Bool.false_ne_true⟩,
      fun hdropped => absurd hdropped (by decide), fun hdropped => absurd hdropped (by decide)⟩
  exact hfresh.start hhost (serveWithin_echoes host 198)

/-- At rest the text that is remembered belongs to the tree, unless it was left behind: it
    is an edit that was dropped when the arbiter was switched off, or the tree is one that
    was loaded and could not be given ids. -/
theorem rest_corresponds (hhost : host.Faithful view delay read write) (window : Window)
    (consumers : List κ) (w : σ) (hw : view.sound w) (incidents : List Incident) :
    let (s, standing) := weather host view.put incidents
      (started host window delay consumers w, .agreed)
    s.arbiter.pending = false →
      standing = .agreed ∧ s.arbiter.Corresponds read write ∨
        standing = .dropped ∨ standing = .misloaded := by
  have hstands := (stands_started hhost window consumers hw).weather hhost incidents
  generalize weather host view.put incidents
    (started host window delay consumers w, .agreed) = p at hstands ⊢
  rcases p with ⟨s, standing⟩
  intro hrest
  cases standing with
  | agreed => exact .inl ⟨rfl, hstands.agreed rfl⟩
  | unread =>
      -- A text that is not read yet would be waiting.
      have hwaits := hstands.unread rfl
      rw [hrest] at hwaits
      exact absurd hwaits Bool.false_ne_true
  | dropped => exact .inr (.inl rfl)
  | misloaded => exact .inr (.inr rfl)

end Runs

/-- A label is typed in place of a button. While the arbiter is switched off, the button
    comes back and nobody is told. -/
def labelTyped : List Incident :=
  [.edited "Label \x7b id: b \x7d" true, .wentOff .text, .switched false,
    .slipped "Button \x7b id: a \x7d", .switched true]

theorem labelTyped_corresponds :
    let (s, standing) := weather Desk.forms Desk.view.put labelTyped
      (started Desk.forms (.usual {}) () ["canvas"] { text := "Button \x7b id: a \x7d" }, .agreed)
    s.arbiter.pending = false ∧ standing = .agreed ∧
      s.arbiter.Corresponds (fun text => (Markup.readDocument {} text).1) Markup.writeDocument := by
  have hrest : (weather Desk.forms Desk.view.put labelTyped (started Desk.forms (.usual {}) ()
      ["canvas"] { text := "Button \x7b id: a \x7d" }, .agreed)).1.arbiter.pending = false := by
    decide +kernel
  have hstanding : (weather Desk.forms Desk.view.put labelTyped (started Desk.forms (.usual {}) ()
      ["canvas"] { text := "Button \x7b id: a \x7d" }, .agreed)).2 = .agreed := by
    decide +kernel
  rcases rest_corresponds (Desk.host_faithful _ _) (.usual {}) ["canvas"]
      { text := "Button \x7b id: a \x7d" } trivial labelTyped hrest with
    ⟨-, hcorresponds⟩ | hdropped | hmisloaded
  · exact ⟨hrest, hstanding, hcorresponds⟩
  · exact absurd (hstanding.symm.trans hdropped) (by decide)
  · exact absurd (hstanding.symm.trans hmisloaded) (by decide)

/-- A label is typed in place of a button, and before the timer goes off, the arbiter is
    switched off and on again. The label stands in the document and counts as known, but
    the tree is still that of the button, and telling the label once more does nothing. -/
theorem switchedOff_forgets :
    let s := lived Desk.forms Desk.view.put
      [.edited "Label \x7b id: b \x7d" true, .switched false, .switched true]
      (started Desk.forms (.usual {}) () [] { text := "Button \x7b id: a \x7d" })
    s.arbiter.enabled = true ∧ s.arbiter.pending = false ∧
      s.outside.text = "Label \x7b id: b \x7d" ∧
      ¬ s.arbiter.Corresponds (fun text => (Markup.readDocument {} text).1) Markup.writeDocument ∧
      serve Desk.forms (.textChanged none) s = (s, none) := by
  intro s
  have hlast : s.arbiter.lastText = some "Label \x7b id: b \x7d" := by decide +kernel
  have htree : s.arbiter.nodes.map (·.type.asText?) = [some "Button"] := by decide +kernel
  have htext : s.outside.text = "Label \x7b id: b \x7d" := by decide +kernel
  have hwritable : (Markup.documentLines ⟨s.arbiter.window, s.arbiter.nodes⟩).toOption.isSome
      = true := by
    decide +kernel
  refine ⟨by decide +kernel, by decide +kernel, htext, ?_, ?_⟩
  · rintro (⟨text, hknown, ⟨hnodes, -⟩ | hwritten⟩ | ⟨fault, hfault⟩)
    · obtain rfl := Option.some.inj (hlast.symm.trans hknown)
      rw [hnodes] at htree
      revert htree
      decide +kernel
    · -- What is written ends in a line break, and the label does not.
      obtain rfl := Option.some.inj (hlast.symm.trans hknown)
      exact absurd (Markup.writeDocument_getLast? hwritten) (by decide +kernel)
    · -- The button can be written.
      rw [Markup.writeDocument_lines] at hfault
      cases hlines : Markup.documentLines ⟨s.arbiter.window, s.arbiter.nodes⟩ with
      | error fault =>
          rw [hlines] at hwritable
          exact absurd hwritable Bool.false_ne_true
      | ok ls =>
          rw [hlines] at hfault
          exact absurd hfault (by simp only [Except.map, reduceCtorEq, not_false_eq_true])
  · -- The label counts as known, so it is no change.
    have hshown : Desk.forms.text s.outside = .ok "Label \x7b id: b \x7d" :=
      congrArg Except.ok htext
    have htold : textChanged Desk.forms (serveWithin Desk.forms 199) none s = (s, none) :=
      textChanged_known none hlast hshown (.inl rfl)
    exact htold

end Session

end WidgetSync
