import WidgetSync.Proofs.Faithful

/-!
# Agreement at Rest

The later change wins, and when nothing waits the two sides agree.

An arbiter that was started meets events in any order: the host edits the text,
changes or replaces the tree, has everything passed on, and timers go off. Among
collaborators that work, the invariant `Held` says how far the arbiter is with the
last event that it accepted. If that was a text, the numbers of the events say so,
and either its timer runs or tree and consumers have followed. If it was a tree,
either its timer runs and the tree waits, or tree and document have followed.

There is one way in which a tree does not come through as it was accepted. If whole
trees are sent and one of them cannot be given ids, it is refused, but it takes the
place of the tree that waits. `Latest` keeps track of this.

## Main definitions

* `Happening`: What an arbiter meets.
* `Latest`: The event that was accepted last.
* `Session.meet`, `Latest.next`, `Session.run`: What they become.
* `Session.Held`: The invariant.

## Theorems

* `Session.Held.pass`: Passing a side on keeps the invariant.
* `Session.Held.meet`: Every event keeps it.
* `Session.Held.run`: So does every run.
* `Session.last_event_wins`: When nothing waits, the sides agree on the last event.
-/

namespace WidgetSync

/-- What an arbiter meets. -/
inductive Happening where
  /-- The host puts a text into the document and tells so. -/
  | edited (text : String)
  /-- The host changes the tree. -/
  | changed (change : Change)
  /-- The host sends a whole tree. -/
  | sent (nodes : Forest)
  /-- What waits should be passed on. -/
  | flushed
  /-- The timer of a side goes off. -/
  | wentOff (side : Side)

/-- The event that was accepted last. -/
inductive Latest where
  /-- A text. -/
  | byText (text : String)
  /-- A tree, and the tree that was refused later and has taken its place while it
      waited, if there is one. -/
  | byTree (nodes : Forest) (usurper : Option Forest)

variable {δ κ σ : Type}

/-- The event that was accepted last, after one more event. -/
def Latest.next (a : Arbiter δ κ) (latest : Latest) : Happening → Latest
  | .edited text => if a.lastText = some text then latest else .byText text
  | .changed change =>
    match change.apply a.base with
    | .ok (nodes, _) => .byTree nodes none
    | .error _ => latest
  | .sent nodes =>
    match (Forest.assignIds nodes).fault, latest with
    | none, _ => .byTree (Forest.assignIds nodes).nodes none
    | some _, .byTree accepted usurper =>
      if a.treeTimer.pending then .byTree accepted (some (Forest.assignIds nodes).nodes)
      else .byTree accepted usurper
    | some _, .byText text => .byText text
  | .flushed => latest
  | .wentOff _ => latest

namespace Session

variable [BEq κ] (host : Host δ κ σ) (view : View κ σ)

/-- The session after an event. -/
def meet (s : Session δ κ σ) : Happening → Session δ κ σ
  | .edited text =>
    (serve host (.textChanged none) { s with outside := view.put text s.outside }).1
  | .changed change => (serve host (.treeChanged change) s).1
  | .sent nodes => (serve host (.treeSent nodes) s).1
  | .flushed => (serve host .flush s).1
  | .wentOff side => (serve host (.goOff side) s).1

/-- The session after events, with the last one that was accepted. -/
def run : List Happening → Session δ κ σ × Latest → Session δ κ σ × Latest
  | [], p => p
  | h :: hs, (s, latest) => run hs (s.meet host view h, latest.next s.arbiter h)

/-- A new arbiter in a world, started. -/
def started (window : Window) (delay : δ) (consumers : List κ) (outside : σ) : Session δ κ σ :=
  (serve host .start ⟨.fresh window delay consumers, outside⟩).1

end Session

namespace Session

/-- The arbiter listens, its counters are in order, and it knows the text of the
    document. -/
structure Steady (view : View κ σ) (delay : δ) (consumers : List κ) (s : Session δ κ σ) :
    Prop where
  sound : view.sound s.outside
  idle : s.arbiter.phase = .idle
  listens : s.arbiter.listens = true
  textDelay : s.arbiter.textTimer.delay = delay
  treeDelay : s.arbiter.treeTimer.delay = delay
  consumers : s.arbiter.consumers = consumers
  agreed : s.arbiter.lastText = some (view.text s.outside)
  textEvent : s.arbiter.textEvent ≤ s.arbiter.events
  treeEvent : s.arbiter.treeEvent ≤ s.arbiter.events

/-- The text was read, and everybody was told. -/
structure ReadBy (view : View κ σ) (read : String → Document) (text : String)
    (s : Session δ κ σ) : Prop where
  timers : s.arbiter.pending = false
  nodes : s.arbiter.nodes = (read text).nodes
  window : s.arbiter.window = (read text).window
  shown : ∀ consumer ∈ s.arbiter.consumers,
    view.shown s.outside consumer = some s.arbiter.nodes

/-- The tree is the current one, and it was written if that is possible. -/
structure WrittenBy (view : View κ σ) (write : Document → Except Fault String) (nodes : Forest)
    (s : Session δ κ σ) : Prop where
  timers : s.arbiter.pending = false
  nodes : s.arbiter.nodes = nodes
  text : ∀ text, write ⟨s.arbiter.window, s.arbiter.nodes⟩ = .ok text →
    view.text s.outside = text

/-- The side of the last event is ahead in number. Either it waits, or the other side
    has followed. -/
def Follows (view : View κ σ) (read : String → Document)
    (write : Document → Except Fault String) (s : Session δ κ σ) : Latest → Prop
  | .byText text =>
    view.text s.outside = text ∧ s.arbiter.treeEvent < s.arbiter.textEvent ∧
      (s.arbiter.textTimer.pending = true ∨ ReadBy view read text s)
  | .byTree nodes usurper =>
    s.arbiter.textEvent < s.arbiter.treeEvent ∧
      (s.arbiter.treeTimer.pending = true ∧ s.arbiter.pendingNodes = some (usurper.getD nodes) ∨
        WrittenBy view write (usurper.getD nodes) s)

/-- The invariant: how far the arbiter is with the event that it accepted last. -/
structure Held (view : View κ σ) (delay : δ) (consumers : List κ) (read : String → Document)
    (write : Document → Except Fault String) (latest : Latest) (s : Session δ κ σ) : Prop where
  steady : Steady view delay consumers s
  follows : Follows view read write s latest

variable {host : Host δ κ σ} {view : View κ σ} {delay : δ} {consumers : List κ}
  {read : String → Document} {write : Document → Except Fault String}
  {inner : Call κ → Session δ κ σ → Served δ κ σ}

/-- Only what can be seen of the world counts. -/
theorem Held.of_same {latest : Latest} {a : Arbiter δ κ} {w w' : σ}
    (h : Held view delay consumers read write latest ⟨a, w⟩) (hw : view.Same w w') :
    Held view delay consumers read write latest ⟨a, w'⟩ := by
  refine ⟨{ h.steady with sound := hw.sound, agreed := ?_ }, ?_⟩
  · rw [hw.text]
    exact h.steady.agreed
  · cases latest with
    | byText text =>
        rcases h.follows with ⟨htext, hevents, hwaits | hread⟩
        · exact ⟨hw.text.trans htext, hevents, .inl hwaits⟩
        · refine ⟨hw.text.trans htext, hevents, .inr { hread with shown := ?_ }⟩
          intro consumer hc
          rw [hw.shown]
          exact hread.shown consumer hc
    | byTree nodes usurper =>
        rcases h.follows with ⟨hevents, hwaits | hwritten⟩
        · exact ⟨hevents, .inl hwaits⟩
        · refine ⟨hevents, .inr { hwritten with text := ?_ }⟩
          intro text htext
          rw [hw.text]
          exact hwritten.text text htext

/-- The text has been passed on as the last event. -/
theorem Steady.held_afterText {s : Session δ κ σ} (h : Steady view delay consumers s)
    (hevents : s.arbiter.treeEvent < s.arbiter.textEvent)
    (hidle : s.arbiter.textTimer.pending = false) {w : σ} (hsound : view.sound w)
    (htext : view.text w = view.text s.outside)
    (hshown : ∀ consumer ∈ s.arbiter.consumers,
      view.shown w consumer = some (read (view.text s.outside)).nodes) :
    Held view delay consumers read write (.byText (view.text s.outside))
      ⟨afterText (view.text s.outside) (read (view.text s.outside)) s.arbiter, w⟩ := by
  refine ⟨⟨hsound, rfl, h.listens, h.textDelay, h.treeDelay, h.consumers,
    congrArg some htext.symm, h.textEvent, h.treeEvent⟩, htext, hevents, .inr ?_⟩
  refine ⟨?_, rfl, rfl, hshown⟩
  simp only [Arbiter.pending, afterText, hidle, Debouncer.pending_idle, Bool.or_self]

/-- The tree has been passed on as the last event. -/
theorem Steady.held_afterTree {s : Session δ κ σ} (h : Steady view delay consumers s)
    (hevents : s.arbiter.textEvent < s.arbiter.treeEvent)
    (hidle : s.arbiter.treeTimer.pending = false) {nodes : Forest} (usurper : Option Forest)
    {w : σ} (hsound : view.sound w)
    (htext : view.text w = (write ⟨s.arbiter.window, usurper.getD nodes⟩).toOption.getD
      (view.text s.outside)) :
    Held view delay consumers read write (.byTree nodes usurper)
      ⟨afterTree (usurper.getD nodes) (write ⟨s.arbiter.window, usurper.getD nodes⟩) s.arbiter,
        w⟩ := by
  have hagreed := h.agreed
  unfold afterTree
  cases hwritten : write ⟨s.arbiter.window, usurper.getD nodes⟩ with
  | error fault =>
      -- The tree is the current one all the same, and the document keeps its text.
      rw [hwritten] at htext
      refine ⟨⟨hsound, rfl, h.listens, h.textDelay, h.treeDelay, h.consumers, ?_, h.textEvent,
        h.treeEvent⟩, hevents, .inr ⟨?_, rfl, fun text htext => ?_⟩⟩
      · exact hagreed.trans (congrArg some htext.symm)
      · simp only [Arbiter.pending, hidle, Debouncer.pending_idle, Bool.or_self]
      · simp only at htext
        rw [hwritten] at htext
        exact absurd htext (by simp only [reduceCtorEq, not_false_eq_true])
  | ok written =>
      rw [hwritten] at htext
      refine ⟨⟨hsound, rfl, h.listens, h.textDelay, h.treeDelay, h.consumers,
        congrArg some htext.symm, h.textEvent, h.treeEvent⟩, hevents,
        .inr ⟨?_, rfl, fun text htext' => ?_⟩⟩
      · simp only [Arbiter.pending, hidle, Debouncer.pending_idle, Bool.or_self]
      · simp only at htext'
        rw [hwritten] at htext'
        exact htext.trans (Except.ok.inj htext')

theorem newer_eq_false {pending : Bool} {a b : Nat} (h : b < a) :
    (pending && decide (a < b)) = false := by
  rw [decide_eq_false (Nat.not_lt.mpr (Nat.le_of_lt h)), Bool.and_false]

/-- A text that waited is passed on, unless the tree is newer and waits too. -/
theorem Held.passText (hhost : host.Faithful view delay read write) (hinner : Echoes inner)
    {latest : Latest} {s : Session δ κ σ} (h : Held view delay consumers read write latest s)
    (hpending : s.arbiter.textTimer.pending = true) {w : σ} (hw : view.Same s.outside w) :
    Held view delay consumers read write latest (propagateText host inner
      ⟨{ s.arbiter with textTimer := s.arbiter.textTimer.idle }, w⟩) := by
  have hsteady : Steady view delay consumers
      (⟨{ s.arbiter with textTimer := s.arbiter.textTimer.idle }, w⟩ : Session δ κ σ) :=
    { (h.of_same hw).steady with }
  cases latest with
  -- The text is the last event, so no newer tree can stand in its way.
  | byText text =>
      rcases h.follows with ⟨rfl, hevents, -⟩
      rcases propagateText_spec hhost hinner hw.sound (s := ⟨{ s.arbiter with
          textTimer := s.arbiter.textTimer.idle }, w⟩) (newer_eq_false hevents) with
        ⟨w', hpassed, hsound, htext, hshown⟩
      rw [hpassed, ← hw.text]
      exact hsteady.held_afterText hevents rfl hsound htext hshown
  | byTree nodes usurper =>
      rcases h.follows with ⟨hevents, ⟨hwaits, hnodes⟩ | hwritten⟩
      · -- A newer tree waits, and the text has to wait for it.
        rw [propagateText_superseded (by rw [Bool.and_eq_true]; exact
          ⟨hwaits, decide_eq_true hevents⟩)]
        exact ⟨hsteady, hevents, .inl ⟨hwaits, hnodes⟩⟩
      · -- At rest with a tree nothing waits, so the timer of the text cannot run.
        exact absurd (Arbiter.pending_of_timer .text hpending)
          (Bool.eq_false_iff.mp hwritten.timers)

/-- A tree that waited is passed on, unless the text is newer and waits too. -/
theorem Held.passTree (hhost : host.Faithful view delay read write) (hinner : Echoes inner)
    {latest : Latest} {s : Session δ κ σ} (h : Held view delay consumers read write latest s)
    (hpending : s.arbiter.treeTimer.pending = true) {w : σ} (hw : view.Same s.outside w) :
    Held view delay consumers read write latest (propagateTree host inner
      ⟨{ s.arbiter with treeTimer := s.arbiter.treeTimer.idle }, w⟩) := by
  have hsteady : Steady view delay consumers
      (⟨{ s.arbiter with treeTimer := s.arbiter.treeTimer.idle }, w⟩ : Session δ κ σ) :=
    { (h.of_same hw).steady with }
  cases latest with
  -- The tree is older than the last text: it is dropped while that text waits, and behind it
  -- the timer of the tree is no longer running.
  | byText text =>
      rcases h.follows with ⟨rfl, hevents, hwaits | hread⟩
      · rw [propagateTree_superseded (by rw [Bool.and_eq_true]; exact
          ⟨hwaits, decide_eq_true hevents⟩)]
        exact ⟨{ hsteady with }, hw.text, hevents, .inl hwaits⟩
      · exact absurd (Arbiter.pending_of_timer .tree hpending)
          (Bool.eq_false_iff.mp hread.timers)
  | byTree nodes usurper =>
      rcases h.follows with ⟨hevents, ⟨-, hnodes⟩ | hwritten⟩
      · rcases propagateTree_spec hhost hinner hw.sound (s := ⟨{ s.arbiter with
            treeTimer := s.arbiter.treeTimer.idle }, w⟩) (newer_eq_false hevents) hnodes with
          ⟨w', hpassed, hsound, -, htext⟩
        rw [hpassed]
        exact hsteady.held_afterTree hevents rfl usurper hsound htext
      · exact absurd (Arbiter.pending_of_timer .tree hpending)
          (Bool.eq_false_iff.mp hwritten.timers)

/-- A side that waited is passed on. -/
theorem Held.pass (hhost : host.Faithful view delay read write) (hinner : Echoes inner)
    {latest : Latest} {s : Session δ κ σ} (h : Held view delay consumers read write latest s)
    {side : Side} {w : σ} (hw : view.Same s.outside w) :
    let s' : Session δ κ σ := ⟨s.arbiter.setTimer (s.arbiter.timer side).idle side, w⟩
    Held view delay consumers read write latest
      (if (s.arbiter.timer side).pending then propagate host inner side s' else s') := by
  intro s'
  by_cases hpending : (s.arbiter.timer side).pending = true
  · rw [if_pos hpending]
    cases side with
    | text => exact h.passText hhost hinner hpending hw
    | tree => exact h.passTree hhost hinner hpending hw
  · rw [if_neg hpending]
    simp only [s', Debouncer.idle_of_pending (Bool.eq_false_iff.mpr hpending),
      Arbiter.setTimer_timer]
    exact h.of_same hw

/-- A timer goes off. -/
theorem Held.goOff (hhost : host.Faithful view delay read write) (hinner : Echoes inner)
    {latest : Latest} {s : Session δ κ σ} (h : Held view delay consumers read write latest s)
    (side : Side) :
    Held view delay consumers read write latest (goOff host inner side s) := by
  rw [goOff_spec]
  exact h.pass hhost hinner (.refl h.steady.sound)

/-- What waits is passed on, the text first. -/
theorem Held.flush (hhost : host.Faithful view delay read write) (hinner : Echoes inner)
    {latest : Latest} {s : Session δ κ σ} (h : Held view delay consumers read write latest s) :
    Held view delay consumers read write latest (flush host inner s) := by
  have hside : ∀ (side : Side) {s : Session δ κ σ},
      Held view delay consumers read write latest s →
      Held view delay consumers read write latest (flushSide host inner side s) := by
    intro side s h
    rcases flushSide_spec inner hhost side h.steady.sound with ⟨w, hw, hflushed⟩
    rw [hflushed]
    exact h.pass hhost hinner hw
  exact hside .tree (hside .text h)

/-- A text that the arbiter does not know is accepted. -/
theorem Held.acceptText (hhost : host.Faithful view delay read write) (hinner : Echoes inner)
    {latest : Latest} {a : Arbiter δ κ} {w : σ} {text : String}
    (h : Held view delay consumers read write latest ⟨a, w⟩) {w' : σ} (hsound : view.sound w')
    (htext : view.text w' = text) (hshown : view.shown w' = view.shown w) :
    Held view delay consumers read write
      (if a.lastText = some text then latest else .byText text)
      (acceptText host inner text ⟨a, w'⟩).1 := by
  unfold Session.acceptText
  -- A text that the arbiter knows is the text that it has agreed on, so the document is as it
  -- was.
  by_cases hknown : a.lastText = some text
  · simp only [hknown, if_true]
    have hagreed := h.steady.agreed
    rw [hknown] at hagreed
    exact h.of_same ⟨hsound, htext.trans (Option.some.inj hagreed), hshown⟩
  · simp only [hknown, if_false]
    subst htext
    have hsteady : Steady view delay consumers
        (update (·.count .text) (agreeOn (view.text w') ⟨a, w'⟩)) :=
      { h.steady with
        sound := hsound, agreed := rfl, textEvent := Nat.le_refl _
        treeEvent := Nat.le_succ_of_le h.steady.treeEvent }
    -- The new number is above that of every tree, which is all that decides later.
    have hevents : a.treeEvent < a.events + 1 := Nat.lt_succ_of_le h.steady.treeEvent
    rcases schedule_spec inner hhost .text (s := update (·.count .text) (agreeOn (view.text w')
        ⟨a, w'⟩)) hsound h.steady.textDelay with
      ⟨number, w₁, hwaits, hw₁⟩ | ⟨w₁, hpassed, hw₁⟩
    · rw [hwaits]
      exact Held.of_same (w := w') ⟨{ hsteady with textDelay := rfl }, rfl, hevents, .inl rfl⟩ hw₁
    · -- The timer has gone off at once, and the text is passed on as it would be later.
      rw [hpassed]
      have hsteady₁ : Steady view delay consumers
          (⟨(update (·.count .text) (agreeOn (view.text w') ⟨a, w'⟩)).arbiter.setTimer
            { delay } .text, w₁⟩ : Session δ κ σ) :=
        { hsteady with
          sound := hw₁.sound, textDelay := rfl, agreed := congrArg some hw₁.text.symm }
      rcases propagateText_spec hhost hinner hw₁.sound (s := ⟨(update (·.count .text) (agreeOn
          (view.text w') ⟨a, w'⟩)).arbiter.setTimer { delay } .text, w₁⟩)
          (newer_eq_false hevents) with ⟨w₂, hread, hsound₂, htext₂, hshown₂⟩
      rw [propagate, hread, show Latest.byText (view.text w') = .byText (view.text w₁) from
        congrArg _ hw₁.text.symm]
      exact hsteady₁.held_afterText hevents rfl hsound₂ htext₂ hshown₂

/-- A tree is accepted. -/
theorem Held.acceptTree (hhost : host.Faithful view delay read write) (hinner : Echoes inner)
    {latest : Latest} {s : Session δ κ σ} (h : Held view delay consumers read write latest s)
    (nodes : Forest) :
    Held view delay consumers read write (.byTree nodes none)
      (acceptTree host inner nodes s).1 := by
  unfold Session.acceptTree
  have hsteady : Steady view delay consumers
      (update (·.count .tree) (setPending (some nodes) s)) :=
    { h.steady with
      textEvent := Nat.le_succ_of_le h.steady.textEvent, treeEvent := Nat.le_refl _ }
  have hevents : s.arbiter.textEvent < s.arbiter.events + 1 :=
    Nat.lt_succ_of_le h.steady.textEvent
  rcases schedule_spec inner hhost .tree (s := update (·.count .tree) (setPending (some nodes) s))
      h.steady.sound h.steady.treeDelay with ⟨number, w₁, hwaits, hw₁⟩ | ⟨w₁, hpassed, hw₁⟩
  · rw [hwaits]
    exact Held.of_same (w := s.outside)
      ⟨{ hsteady with treeDelay := rfl }, hevents, .inl ⟨rfl, rfl⟩⟩ hw₁
  · -- The timer has gone off at once.
    rw [hpassed]
    have hsteady₁ : Steady view delay consumers
        (⟨(update (·.count .tree) (setPending (some nodes) s)).arbiter.setTimer
          { delay } .tree, w₁⟩ : Session δ κ σ) :=
      { hsteady with
        sound := hw₁.sound, treeDelay := rfl
        agreed := hsteady.agreed.trans (congrArg some hw₁.text.symm) }
    rcases propagateTree_spec hhost hinner hw₁.sound (s := ⟨(update (·.count .tree) (setPending
        (some nodes) s)).arbiter.setTimer { delay } .tree, w₁⟩) (newer_eq_false hevents) rfl with
      ⟨w₂, hwritten, hsound, -, htext⟩
    rw [propagate, hwritten]
    exact hsteady₁.held_afterTree hevents rfl none hsound htext

/-- Failures do not count. -/
theorem Held.remember {latest : Latest} {s : Session δ κ σ}
    (h : Held view delay consumers read write latest s) (fault : Option Fault) :
    Held view delay consumers read write latest (s.remember fault) := by
  refine ⟨{ h.steady with }, ?_⟩
  cases latest with
  | byText text =>
      rcases h.follows with ⟨htext, hevents, hwaits | hread⟩
      · exact ⟨htext, hevents, .inl hwaits⟩
      · exact ⟨htext, hevents, .inr { hread with }⟩
  | byTree nodes usurper =>
      rcases h.follows with ⟨hevents, hwaits | hwritten⟩
      · exact ⟨hevents, .inl hwaits⟩
      · exact ⟨hevents, .inr { hwritten with }⟩

/-- A refused tree takes the place of the one that waits. -/
theorem Held.refuse {accepted : Latest} {s : Session δ κ σ}
    (h : Held view delay consumers read write accepted s) {nodes : Forest} {fault : Fault}
    (hfault : (Forest.assignIds nodes).fault = some fault) :
    Held view delay consumers read write (accepted.next s.arbiter (.sent nodes))
      ((setPending (some (Forest.assignIds nodes).nodes) s).remember (some fault)) := by
  have hsteady : Steady view delay consumers (setPending (some (Forest.assignIds nodes).nodes) s) :=
    { h.steady with }
  refine Held.remember ⟨hsteady, ?_⟩ (some fault)
  unfold Latest.next
  simp only [hfault]
  cases accepted with
  | byText text =>
      rcases h.follows with ⟨htext, hevents, hwaits | hread⟩
      · exact ⟨htext, hevents, .inl hwaits⟩
      · exact ⟨htext, hevents, .inr { hread with }⟩
  | byTree accepted usurper =>
      rcases h.follows with ⟨hevents, ⟨hwaits, -⟩ | hwritten⟩
      · -- The refused tree now stands where the accepted one waited.
        simp only [hwaits, if_true]
        exact ⟨hevents, .inl ⟨hwaits, rfl⟩⟩
      · -- The accepted tree was written, and the refused one has no timer that would pass it
        -- on.
        have htimer : s.arbiter.treeTimer.pending = false := by
          have hnone := hwritten.timers
          rw [Arbiter.pending, Bool.or_eq_false_iff] at hnone
          exact hnone.2
        simp only [htimer, Bool.false_eq_true, if_false]
        exact ⟨hevents, .inr { hwritten with }⟩

/-- The arbiter listens to what it is told. -/
theorem Steady.heard {s : Session δ κ σ} (h : Steady view delay consumers s) (phase : Phase)
    (hphase : phase ≠ .idle) : (!s.arbiter.listens || s.arbiter.phase = phase) = false := by
  rw [h.listens, h.idle, Bool.not_true, Bool.false_or]
  exact decide_eq_false hphase.symm

section Runs

variable [BEq κ]

/-- Every event keeps the invariant. -/
theorem Held.meet (hhost : host.Faithful view delay read write) {latest : Latest}
    {s : Session δ κ σ} (h : Held view delay consumers read write latest s)
    (happening : Happening) :
    Held view delay consumers read write (latest.next s.arbiter happening)
      (s.meet host view happening) := by
  have hinner : Echoes (serveWithin host 199) := serveWithin_echoes host 198
  have hserve : ∀ (c : Call κ) (s : Session δ κ σ),
      serve host c s = call host (serveWithin host 199) c s := fun _ _ => rfl
  cases happening with
  -- The host has changed the document already when it tells about it, so the text is read
  -- from what it has become.
  | edited text =>
      rcases hhost.put text s.outside h.steady.sound with ⟨hsound, htext, hshown⟩
      rw [Session.meet, hserve, call, textChanged, if_neg]
      · simp only [hhost.text _ hsound, htext]
        exact h.acceptText hhost hinner hsound htext hshown
      · rw [h.steady.heard .treeToText (by decide)]
        exact Bool.false_ne_true
  | changed change =>
      rw [Session.meet, hserve, call, treeChanged, if_neg]
      · cases happlied : change.apply s.arbiter.base with
        | error fault =>
            simp only [Latest.next, happlied]
            exact h.remember (some fault)
        | ok applied =>
            simp only [Latest.next, happlied]
            exact h.acceptTree hhost hinner applied.1
      · rw [h.steady.heard .textToTree (by decide)]
        exact Bool.false_ne_true
  | sent nodes =>
      rw [Session.meet, hserve, call, treeSent, if_neg]
      · cases hfault : (Forest.assignIds nodes).fault with
        | none =>
            unfold Latest.next
            simp only [hfault]
            exact h.acceptTree hhost hinner _
        | some fault =>
            simp only [hfault]
            exact h.refuse hfault
      · rw [h.steady.heard .textToTree (by decide)]
        exact Bool.false_ne_true
  | flushed => exact h.flush hhost hinner
  | wentOff side => exact h.goOff hhost hinner side

/-- So does every run. -/
theorem Held.run (hhost : host.Faithful view delay read write) (happenings : List Happening) :
    ∀ {latest : Latest} {s : Session δ κ σ}, Held view delay consumers read write latest s →
      Held view delay consumers read write (run host view happenings (s, latest)).2
        (run host view happenings (s, latest)).1 := by
  induction happenings with
  | nil =>
      intro latest s h
      exact h
  | cons happening happenings ih =>
      intro latest s h
      exact ih (h.meet hhost happening)

/-- Starting passes on the text that stands in the document. -/
theorem started_spec (hhost : host.Faithful view delay read write) (window : Window)
    (consumers : List κ) {w : σ} (hw : view.sound w) :
    ∃ w', started host window delay consumers w =
        ⟨afterText (view.text w) (read (view.text w))
          ((Arbiter.fresh window delay consumers).count .text), w'⟩ ∧
      view.sound w' ∧ view.text w' = view.text w ∧
      ∀ consumer ∈ consumers, view.shown w' consumer = some (read (view.text w)).nodes := by
  rcases propagateText_spec hhost (serveWithin_echoes host 198) (s := update (·.count .text)
      (agreeOn (view.text w) ⟨.fresh window delay consumers, w⟩)) hw rfl with
    ⟨w', hpassed, hsound, htext, hshown⟩
  refine ⟨w', ?_, hsound, htext, hshown⟩
  change (start host (serveWithin host 199) ⟨.fresh window delay consumers, w⟩).1 = _
  -- A fresh arbiter has no timers, so there is nothing to forget.
  have hcancelled : cancelAll host (⟨.fresh window delay consumers, w⟩ : Session δ κ σ)
      = ⟨.fresh window delay consumers, w⟩ := rfl
  rw [start]
  simp only [hcancelled, hhost.text w hw]
  exact hpassed

/-- So the arbiter starts with that text as its last event. -/
theorem held_started (hhost : host.Faithful view delay read write) (window : Window)
    (consumers : List κ) {w : σ} (hw : view.sound w) :
    Held view delay consumers read write (.byText (view.text w))
      (started host window delay consumers w) := by
  have hsteady : Steady view delay consumers
      (⟨{ (Arbiter.fresh window delay consumers).count .text with lastText := some (view.text w) },
        w⟩ : Session δ κ σ) :=
    ⟨hw, rfl, rfl, rfl, rfl, rfl, rfl, Nat.le_refl _, Nat.zero_le _⟩
  rcases started_spec hhost window consumers hw with ⟨w', hstarted, hsound, htext, hshown⟩
  rw [hstarted]
  exact hsteady.held_afterText Nat.zero_lt_one rfl hsound htext hshown

/-- When nothing waits, the sides agree on the event that was accepted last. If it was a
    text, that text stands in the document, its tree and window are the current ones, and
    every consumer was shown the tree last. If it was a tree, it is the current one, unless
    a refused one has taken its place, and the document holds what is written for it. -/
theorem last_event_wins (hhost : host.Faithful view delay read write) (window : Window)
    (consumers : List κ) (w : σ) (hw : view.sound w) (happenings : List Happening) :
    let (s, latest) := run host view happenings
      (started host window delay consumers w, .byText (view.text w))
    s.arbiter.pending = false →
      match latest with
      | .byText text =>
        view.text s.outside = text ∧ s.arbiter.nodes = (read text).nodes ∧
          s.arbiter.window = (read text).window ∧
          ∀ consumer ∈ consumers, view.shown s.outside consumer = some s.arbiter.nodes
      | .byTree nodes usurper =>
        s.arbiter.nodes = usurper.getD nodes ∧
          ∀ text, write ⟨s.arbiter.window, s.arbiter.nodes⟩ = .ok text →
            view.text s.outside = text := by
  have hheld := (held_started hhost window consumers hw).run hhost happenings
  generalize run host view happenings
    (started host window delay consumers w, .byText (view.text w)) = p at hheld ⊢
  rcases p with ⟨s, latest⟩
  intro hrest
  have htimers : s.arbiter.textTimer.pending = false ∧ s.arbiter.treeTimer.pending = false :=
    Bool.or_eq_false_iff.mp hrest
  -- The last event waits to be followed, or it has been. At rest nothing waits.
  cases latest with
  | byText text =>
      rcases hheld.follows with ⟨htext, -, hwaits | hread⟩
      · rw [htimers.1] at hwaits
        exact absurd hwaits Bool.false_ne_true
      · refine ⟨htext, hread.nodes, hread.window, fun consumer hc => hread.shown consumer ?_⟩
        rw [hheld.steady.consumers]
        exact hc
  | byTree nodes usurper =>
      rcases hheld.follows with ⟨-, ⟨hwaits, -⟩ | hwritten⟩
      · rw [htimers.2] at hwaits
        exact absurd hwaits Bool.false_ne_true
      · exact ⟨hwritten.nodes, hwritten.text⟩

end Runs

/-- A user drags a widget, types a text and drags the widget that it names. -/
def dragTypeDrag : List Happening :=
  [.changed (.move (.text "button1") (some (.int 5)) (some (.int 6))), .edited "Label {}",
    .wentOff .tree, .wentOff .text,
    .changed (.move (.text "label1") (some (.int 7)) (some (.int 8))), .wentOff .tree]

theorem dragTypeDrag_wins :
    let (s, latest) := run Desk.forms Desk.view dragTypeDrag
      (started Desk.forms (.usual {}) () ["canvas"] { text := "Button {}" }, .byText "Button {}")
    s.arbiter.pending = false ∧
      match latest with
      | .byText text =>
        Desk.view.text s.outside = text ∧
          s.arbiter.nodes = (Markup.readDocument {} text).1.nodes ∧
          s.arbiter.window = (Markup.readDocument {} text).1.window ∧
          ∀ consumer ∈ ["canvas"], Desk.view.shown s.outside consumer = some s.arbiter.nodes
      | .byTree nodes usurper =>
        s.arbiter.nodes = usurper.getD nodes ∧
          ∀ text, Markup.writeDocument ⟨s.arbiter.window, s.arbiter.nodes⟩ = .ok text →
            Desk.view.text s.outside = text := by
  have hrest : (run Desk.forms Desk.view dragTypeDrag (started Desk.forms (.usual {}) ()
      ["canvas"] { text := "Button {}" }, .byText "Button {}")).1.arbiter.pending = false := by
    decide +kernel
  exact ⟨hrest, last_event_wins (Desk.host_faithful _ _) (.usual {}) ["canvas"]
    { text := "Button {}" } trivial dragTypeDrag hrest⟩

/-- A button was moved, and then a tree of something else was refused. What is written
    when the timer goes off is that tree, not the button. -/
theorem refused_tree_written :
    let (s, latest) := run Desk.forms Desk.view
      [.changed (.move (.text "button1") (some (.int 5)) (some (.int 6))),
        .sent [{ type := .int 5 }], .wentOff .tree]
      (started Desk.forms (.usual {}) () [] { text := "Button {}" }, .byText "Button {}")
    s.arbiter.pending = false ∧ s.arbiter.nodes.map (·.type.asText?) = [none] ∧
      (match latest with
        | .byTree accepted _ => accepted.map (·.type.asText?)
        | .byText _ => []) = [some "Button"] := by
  decide +kernel

end Session

end WidgetSync
