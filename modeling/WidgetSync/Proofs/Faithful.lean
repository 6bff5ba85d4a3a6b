import WidgetSync.Arbiter.Serve
import WidgetSync.Markup.Reader
import WidgetSync.Markup.Writer

/-!
# Faithful Hosts

What an arbiter does among collaborators that work.

A host is faithful if its document keeps the text that it was given last, its
consumers take every tree, and its format reads and writes as two functions do. The
timers may be had or not. Document and consumers may answer with calls, as long as
the arbiter takes them for echoes: a document tells that its text changed while it
is being written, a consumer changes the tree while it is being told.

A world is only looked at through a view, which says what stands in the document
and what each consumer was shown last. Passing a side on is then a function on the
arbiter and on what can be seen.

## Main definitions

* `View`: What can be seen of a world.
* `View.Same`: Two worlds look the same.
* `Host.Faithful`: Collaborators that work.
* `Session.afterText`, `Session.afterTree`: The arbiter after a side was passed on.

## Theorems

* `Session.push_shown`: Every consumer is shown the tree.
* `Session.loadText_spec`, `Session.writeTree_spec`: A text is read, a tree is written.
* `Session.propagateText_spec`: What passing the text on does.
* `Session.propagateTree_spec`: What passing the tree on does.
* `Session.schedule_spec`: A side waits or is passed on.
-/

namespace WidgetSync

variable {δ κ σ : Type}

/-- What can be seen of a world. -/
structure View (κ σ : Type) where
  /-- The document and the consumers work. -/
  sound : σ → Prop
  /-- The text of the document. -/
  text : σ → String
  /-- The tree that a consumer was shown last. -/
  shown : σ → κ → Option Forest
  /-- The world with another text in the document. -/
  put : String → σ → σ

/-- The second world looks like the first one. -/
structure View.Same (view : View κ σ) (before after : σ) : Prop where
  sound : view.sound after
  text : view.text after = view.text before
  shown : view.shown after = view.shown before

namespace View.Same

variable {view : View κ σ}

theorem refl {w : σ} (h : view.sound w) : view.Same w w :=
  ⟨h, rfl, rfl⟩

theorem trans {w w' w'' : σ} (h : view.Same w w') (h' : view.Same w' w'') : view.Same w w'' :=
  ⟨h'.sound, h'.text.trans h.text, h'.shown.trans h.shown⟩

end View.Same

/-- Collaborators that work, with a reader and a writer that depend on nothing else. -/
structure Host.Faithful (host : Host δ κ σ) (view : View κ σ) (delay : δ)
    (read : String → Document) (write : Document → Except Fault String) : Prop where
  /-- The document shows its text. -/
  text : ∀ w, view.sound w → host.text w = .ok (view.text w)
  /-- Someone else can put a text into it. -/
  put : ∀ text w, view.sound w → view.sound (view.put text w) ∧
    view.text (view.put text w) = text ∧ view.shown (view.put text w) = view.shown w
  /-- The document takes a text and does no more than tell so. -/
  replace : ∀ arbiter text w, view.sound w →
    (host.replace arbiter text w).fault = none ∧
    view.sound (host.replace arbiter text w).outside ∧
    view.text (host.replace arbiter text w).outside = text ∧
    view.shown (host.replace arbiter text w).outside = view.shown w ∧
    ∀ c ∈ (host.replace arbiter text w).calls, ∃ echo, c = .textChanged echo
  /-- A consumer takes a tree and does no more than change it. -/
  consume : ∀ consumer arbiter nodes w, view.sound w →
    (host.consume consumer arbiter nodes w).fault = none ∧
    view.sound (host.consume consumer arbiter nodes w).outside ∧
    view.text (host.consume consumer arbiter nodes w).outside = view.text w ∧
    view.shown (host.consume consumer arbiter nodes w).outside consumer = some nodes ∧
    (∀ other, other ≠ consumer →
      view.shown (host.consume consumer arbiter nodes w).outside other = view.shown w other) ∧
    ∀ c ∈ (host.consume consumer arbiter nodes w).calls,
      (∃ change, c = .treeChanged change) ∨ ∃ sent, c = .treeSent sent
  /-- Texts are read. -/
  read : ∀ text w, view.sound w →
    (host.read text w).1 = .ok (read text) ∧ view.Same w (host.read text w).2
  /-- Documents are written, or they cannot be. -/
  write : ∀ d w, view.sound w →
    (host.write d w).1 = write d ∧ view.Same w (host.write d w).2
  /-- Timers can be had, or they are refused. -/
  after : ∀ side w, view.sound w →
    (∃ number w', host.timers.after delay side w = .ok (number, w') ∧ view.Same w w') ∨
    ∃ message, host.timers.after delay side w = .error (.refused message)
  /-- Timers can be cancelled. -/
  cancel : ∀ number w, view.sound w → view.Same w (host.timers.cancel number w)

namespace Debouncer

variable {α : Type}

theorem cancel_fst (s : Scheduler δ α σ) (d : Debouncer δ κ) (w : σ) :
    (d.cancel s w).1 = d.idle := by
  unfold cancel
  split
  · rfl
  · rename_i h
    cases d
    simp only at h
    subst h
    rfl

@[simp]
theorem pending_idle (d : Debouncer δ κ) : d.idle.pending = false := rfl

/-- Where nothing waits there is nothing to forget. -/
theorem idle_of_pending {d : Debouncer δ κ} (h : d.pending = false) : d.idle = d := by
  rw [pending, Option.isSome_eq_false_iff, Option.isNone_iff_eq_none] at h
  rw [idle, ← h]

end Debouncer

theorem Arbiter.setTimer_timer (a : Arbiter δ κ) (side : Side) :
    a.setTimer (a.timer side) side = a := by
  cases side with
  | text => rfl
  | tree => rfl

/-- While the timer of a side runs, something is pending. -/
theorem Arbiter.pending_of_timer {a : Arbiter δ κ} (side : Side)
    (h : (a.timer side).pending = true) : a.pending = true := by
  cases side with
  | text => exact Bool.or_eq_true_iff.mpr (.inl h)
  | tree => exact Bool.or_eq_true_iff.mpr (.inr h)

namespace Session

/-- The arbiter when the text has been passed on. -/
def afterText (text : String) (d : Document) (a : Arbiter δ κ) : Arbiter δ κ :=
  { a with
    phase := .idle, treeTimer := a.treeTimer.idle, pendingNodes := none, lastText := some text
    lastFault := none, nodes := d.nodes, window := d.window }

/-- The arbiter when a tree has been passed on. -/
def afterTree (nodes : Forest) (written : Except Fault String) (a : Arbiter δ κ) : Arbiter δ κ :=
  let a : Arbiter δ κ :=
    { a with phase := .idle, textTimer := a.textTimer.idle, pendingNodes := none, nodes }
  match written with
  | .ok text => { a with lastText := some text, lastFault := none }
  | .error fault => { a with lastFault := some fault }

variable {host : Host δ κ σ} {view : View κ σ} {delay : δ} {read : String → Document}
  {write : Document → Except Fault String} {inner : Call κ → Session δ κ σ → Served δ κ σ}

/-- Calls inside calls are served like other calls as far as echoes go. -/
structure Echoes (inner : Call κ → Session δ κ σ → Served δ κ σ) : Prop where
  /-- While the tree is being written, texts do not count. -/
  text : ∀ s echo, s.arbiter.phase = .treeToText → inner (.textChanged echo) s = (s, none)
  /-- While the text is being passed on, changes of the tree do not count. -/
  change : ∀ s change, s.arbiter.phase = .textToTree → inner (.treeChanged change) s = (s, none)
  /-- Neither do whole trees. -/
  sent : ∀ s nodes, s.arbiter.phase = .textToTree → inner (.treeSent nodes) s = (s, none)

/-- Calls inside calls of any depth that is left are served so. -/
theorem serveWithin_echoes [BEq κ] (host : Host δ κ σ) (depth : Nat) :
    Echoes (serveWithin host (depth + 1)) := by
  refine ⟨fun s echo h => ?_, fun s change h => ?_, fun s nodes h => ?_⟩
  · simp only [serveWithin, call, textChanged, h, decide_true, Bool.or_true, if_true]
  · simp only [serveWithin, call, treeChanged, h, decide_true, Bool.or_true, if_true]
  · simp only [serveWithin, call, treeSent, h, decide_true, Bool.or_true, if_true]

theorem serveAll_of_forall {calls : List (Call κ)} {s : Session δ κ σ}
    (h : ∀ c ∈ calls, inner c s = (s, none)) : serveAll inner calls s = (s, none) := by
  induction calls with
  | nil => rfl
  | cons c calls ih =>
      rw [serveAll, h c List.mem_cons_self]
      exact ih fun c hc => h c (List.mem_cons_of_mem _ hc)

theorem react_of_forall {r : Reaction κ σ} {s : Session δ κ σ}
    (h : ∀ c ∈ r.calls, inner c { s with outside := r.outside }
      = ({ s with outside := r.outside }, none)) :
    react inner r s = ({ s with outside := r.outside }, r.fault) := by
  rw [react, serveAll_of_forall h]

end Session

namespace Host.Faithful

variable {host : Host δ κ σ} {view : View κ σ} {delay : δ} {read : String → Document}
  {write : Document → Except Fault String} {inner : Call κ → Session δ κ σ → Served δ κ σ}

/-- Forgetting a timer changes nothing that can be seen. -/
theorem same_cancel (h : host.Faithful view delay read write) {w : σ} (hw : view.sound w)
    {ω : Type} (d : Debouncer δ ω) : view.Same w (d.cancel host.timers w).2 := by
  unfold Debouncer.cancel
  split
  · exact h.cancel _ w hw
  · exact View.Same.refl hw

/-- A consumer is shown a tree while the text is being passed on. -/
theorem showTo (h : host.Faithful view delay read write) (hinner : Session.Echoes inner)
    (nodes : Forest) (consumer : κ) {s : Session δ κ σ} (hs : view.sound s.outside)
    (hphase : s.arbiter.phase = .textToTree) :
    ∃ w, Session.showTo host inner nodes s consumer = ⟨s.arbiter, w⟩ ∧ view.sound w ∧
      view.text w = view.text s.outside ∧ view.shown w consumer = some nodes ∧
      ∀ other, other ≠ consumer → view.shown w other = view.shown s.outside other := by
  rcases h.consume consumer s.arbiter nodes s.outside hs with
    ⟨hfault, hsound, htext, hshown, hothers, hcalls⟩
  refine ⟨(host.consume consumer s.arbiter nodes s.outside).outside, ?_, hsound, htext, hshown,
    hothers⟩
  rw [Session.showTo, Session.react_of_forall fun c hc => by
    rcases hcalls c hc with ⟨change, rfl⟩ | ⟨sent, rfl⟩
    · exact hinner.change _ change hphase
    · exact hinner.sent _ sent hphase]
  simp only [hfault]

end Host.Faithful

namespace Session

variable {host : Host δ κ σ} {view : View κ σ} {delay : δ} {read : String → Document}
  {write : Document → Except Fault String} {inner : Call κ → Session δ κ σ → Served δ κ σ}

theorem foldl_showTo (h : host.Faithful view delay read write) (hinner : Echoes inner)
    (nodes : Forest) (consumers : List κ) : ∀ {s : Session δ κ σ}, view.sound s.outside →
      s.arbiter.phase = .textToTree →
      ∃ w, consumers.foldl (showTo host inner nodes) s = ⟨s.arbiter, w⟩ ∧ view.sound w ∧
        view.text w = view.text s.outside ∧
        (∀ consumer ∈ consumers, view.shown w consumer = some nodes) ∧
        ∀ other, view.shown s.outside other = some nodes → view.shown w other = some nodes := by
  induction consumers with
  | nil =>
      intro s hs hphase
      exact ⟨s.outside, rfl, hs, rfl, fun _ hc => absurd hc List.not_mem_nil, fun _ ho => ho⟩
  | cons consumer consumers ih =>
      intro s hs hphase
      rcases h.showTo hinner nodes consumer hs hphase with ⟨w, hw, hsound, htext, hshown, hothers⟩
      rcases ih (s := ⟨s.arbiter, w⟩) hsound hphase with
        ⟨w', hw', hsound', htext', hshown', hothers'⟩
      refine ⟨w', ?_, hsound', htext'.trans htext, ?_, ?_⟩
      · rw [List.foldl_cons, hw, hw']
      · intro other hother
        rcases List.mem_cons.mp hother with rfl | hother
        · exact hothers' _ hshown
        · exact hshown' other hother
      · intro other hother
        -- A consumer that is shown the tree twice has still been shown it last.
        by_cases heq : other = consumer
        · exact hothers' other (by rw [heq]; exact hshown)
        · exact hothers' other (by rw [hothers other heq]; exact hother)

/-- Every consumer is shown the tree, and nothing else happens. -/
theorem push_shown (h : host.Faithful view delay read write) (hinner : Echoes inner)
    (nodes : Forest) {s : Session δ κ σ} (hs : view.sound s.outside)
    (hphase : s.arbiter.phase = .textToTree) :
    ∃ w, push host inner nodes s = ⟨s.arbiter, w⟩ ∧ view.sound w ∧
      view.text w = view.text s.outside ∧
      ∀ consumer ∈ s.arbiter.consumers, view.shown w consumer = some nodes := by
  rcases foldl_showTo h hinner nodes s.arbiter.consumers hs hphase with
    ⟨w, hw, hsound, htext, hshown, -⟩
  exact ⟨w, hw, hsound, htext, hshown⟩

/-- A text is read as the current document, and its tree is shown to every consumer. -/
theorem loadText_spec (h : host.Faithful view delay read write) (hinner : Echoes inner)
    (text : String) {s : Session δ κ σ} (hs : view.sound s.outside)
    (hphase : s.arbiter.phase = .textToTree) :
    ∃ w, loadText host inner text s =
        (⟨{ s.arbiter with nodes := (read text).nodes, window := (read text).window }, w⟩, none) ∧
      view.sound w ∧ view.text w = view.text s.outside ∧
      ∀ consumer ∈ s.arbiter.consumers, view.shown w consumer = some (read text).nodes := by
  rcases h.read text s.outside hs with ⟨hread, hsame⟩
  rcases push_shown h hinner (read text).nodes
    (s := ⟨{ s.arbiter with nodes := (read text).nodes, window := (read text).window },
      (host.read text s.outside).2⟩) hsame.sound hphase with ⟨w, hw, hsound, htext, hshown⟩
  refine ⟨w, ?_, hsound, htext.trans hsame.text, hshown⟩
  rw [loadText, show host.read text s.outside
    = (.ok (read text), (host.read text s.outside).2) from Prod.ext hread rfl]
  exact congrArg (·, none) hw

/-- A tree is written into the document, if it can be written. -/
theorem writeTree_spec (h : host.Faithful view delay read write) (hinner : Echoes inner)
    (nodes : Forest) {s : Session δ κ σ} (hs : view.sound s.outside)
    (hphase : s.arbiter.phase = .treeToText) :
    ∃ w, settle (writeTree host inner nodes s) =
        ⟨match write ⟨s.arbiter.window, nodes⟩ with
          | .ok text => { s.arbiter with phase := .idle, lastText := some text }
          | .error fault => { s.arbiter with phase := .idle, lastFault := some fault }, w⟩ ∧
      view.sound w ∧ view.shown w = view.shown s.outside ∧
      view.text w = (write ⟨s.arbiter.window, nodes⟩).toOption.getD (view.text s.outside) := by
  rcases h.write ⟨s.arbiter.window, nodes⟩ s.outside hs with ⟨hwrite, hsame⟩
  rw [writeTree, show host.write ⟨s.arbiter.window, nodes⟩ s.outside
    = (write ⟨s.arbiter.window, nodes⟩, (host.write ⟨s.arbiter.window, nodes⟩ s.outside).2)
    from Prod.ext hwrite rfl]
  cases hwritten : write ⟨s.arbiter.window, nodes⟩ with
  | error fault => exact ⟨_, rfl, hsame.sound, hsame.shown, hsame.text⟩
  | ok text =>
      simp only [agreeOn, update]
      rcases h.replace { s.arbiter with lastText := some text } text _ hsame.sound with
        ⟨hfault, hsound, htext, hshown, hcalls⟩
      refine ⟨_, ?_, hsound, hshown.trans hsame.shown, htext⟩
      -- The document echoes the text while the phase says that a tree is being written.
      rw [react_of_forall fun c hc => by
        rcases hcalls c hc with ⟨echo, rfl⟩
        exact hinner.text _ echo hphase]
      simp only [hfault]
      rfl

/-- Unless a newer change of the tree waits, passing the text on makes its document the
    current one and shows the tree to every consumer. -/
theorem propagateText_spec (h : host.Faithful view delay read write) (hinner : Echoes inner)
    {s : Session δ κ σ} (hs : view.sound s.outside)
    (hnew : (s.arbiter.treeTimer.pending && s.arbiter.textEvent < s.arbiter.treeEvent) = false) :
    ∃ w, propagateText host inner s =
        ⟨afterText (view.text s.outside) (read (view.text s.outside)) s.arbiter, w⟩ ∧
      view.sound w ∧ view.text w = view.text s.outside ∧
      ∀ consumer ∈ s.arbiter.consumers,
        view.shown w consumer = some (read (view.text s.outside)).nodes := by
  have hcancel := h.same_cancel hs s.arbiter.treeTimer
  -- The timer of the tree is forgotten before the text is read; that is not seen in the
  -- document.
  have htext : host.text (s.arbiter.treeTimer.cancel host.timers s.outside).2
      = .ok (view.text s.outside) := by
    rw [h.text _ hcancel.sound, hcancel.text]
  rw [propagateText]
  simp only [hnew, Bool.false_eq_true, if_false, cancel, Arbiter.timer, Debouncer.cancel_fst,
    Arbiter.setTimer, setPending, enter, update, htext, agreeOn, remember]
  rcases loadText_spec h hinner (view.text s.outside)
    (s := ⟨{ s.arbiter with
      phase := .textToTree, treeTimer := s.arbiter.treeTimer.idle, pendingNodes := none
      lastText := some (view.text s.outside), lastFault := none }, _⟩) hcancel.sound rfl with
    ⟨w, hw, hsound, htext, hshown⟩
  refine ⟨w, ?_, hsound, htext.trans hcancel.text, hshown⟩
  rw [hw]
  rfl

/-- Where a newer change of the tree waits, the text is not passed on. -/
theorem propagateText_superseded {s : Session δ κ σ}
    (hnew : (s.arbiter.treeTimer.pending && s.arbiter.textEvent < s.arbiter.treeEvent) = true) :
    propagateText host inner s = s := by
  rw [propagateText]
  simp only [hnew, if_true]

/-- Unless a newer change of the text waits, passing the tree on makes it the current
    one and puts it into the document if it can be written. -/
theorem propagateTree_spec (h : host.Faithful view delay read write) (hinner : Echoes inner)
    {s : Session δ κ σ} (hs : view.sound s.outside)
    (hnew : (s.arbiter.textTimer.pending && s.arbiter.treeEvent < s.arbiter.textEvent) = false)
    {nodes : Forest} (hnodes : s.arbiter.pendingNodes = some nodes) :
    ∃ w, propagateTree host inner s =
        ⟨afterTree nodes (write ⟨s.arbiter.window, nodes⟩) s.arbiter, w⟩ ∧
      view.sound w ∧ view.shown w = view.shown s.outside ∧
      view.text w = (write ⟨s.arbiter.window, nodes⟩).toOption.getD (view.text s.outside) := by
  have hcancel := h.same_cancel hs s.arbiter.textTimer
  rw [propagateTree]
  simp only [hnew, Bool.false_eq_true, if_false, cancel, Arbiter.timer, Debouncer.cancel_fst,
    Arbiter.setTimer, hnodes, setPending, enter, update, remember]
  rcases writeTree_spec h hinner nodes
    (s := ⟨{ s.arbiter with
      phase := .treeToText, textTimer := s.arbiter.textTimer.idle, pendingNodes := none, nodes
      lastFault := none }, _⟩) hcancel.sound rfl with ⟨w, hw, hsound, hshown, htext⟩
  refine ⟨w, ?_, hsound, hshown.trans hcancel.shown, by rw [htext, hcancel.text]⟩
  rw [hw]
  simp only
  cases write ⟨s.arbiter.window, nodes⟩ with
  | error fault => rfl
  | ok text => rfl

/-- Where a newer change of the text waits, the tree is dropped. -/
theorem propagateTree_superseded {s : Session δ κ σ}
    (hnew : (s.arbiter.textTimer.pending && s.arbiter.treeEvent < s.arbiter.textEvent) = true) :
    propagateTree host inner s = setPending none s := by
  rw [propagateTree]
  simp only [hnew, if_true]

variable (inner) in
/-- Without a tree that waits there is nothing to pass on but the timer of the text. -/
theorem propagateTree_of_none (h : host.Faithful view delay read write) {s : Session δ κ σ}
    (hs : view.sound s.outside)
    (hnew : (s.arbiter.textTimer.pending && s.arbiter.treeEvent < s.arbiter.textEvent) = false)
    (hnodes : s.arbiter.pendingNodes = none) :
    ∃ w, propagateTree host inner s =
        ⟨{ s.arbiter with textTimer := s.arbiter.textTimer.idle }, w⟩ ∧ view.Same s.outside w := by
  refine ⟨_, ?_, h.same_cancel hs s.arbiter.textTimer⟩
  rw [propagateTree]
  simp only [hnew, Bool.false_eq_true, if_false, cancel, Arbiter.timer, Debouncer.cancel_fst,
    Arbiter.setTimer, hnodes]

variable (inner) in
/-- A side waits from now on, or it is passed on at once. -/
theorem schedule_spec (h : host.Faithful view delay read write) (side : Side)
    {s : Session δ κ σ} (hs : view.sound s.outside)
    (hdelay : (s.arbiter.timer side).delay = delay) :
    (∃ number w, schedule host inner side s =
        (⟨s.arbiter.setTimer { delay, waiting := some (number, ()) } side, w⟩, none) ∧
      view.Same s.outside w) ∨
    ∃ w, schedule host inner side s =
        (propagate host inner side ⟨s.arbiter.setTimer { delay } side, w⟩, none) ∧
      view.Same s.outside w := by
  have hcancel := h.same_cancel hs (s.arbiter.timer side)
  have hidle : (s.arbiter.timer side).idle = { delay } := by
    rw [Debouncer.idle, hdelay]
  have hpair : (s.arbiter.timer side).cancel host.timers s.outside
      = ({ delay }, ((s.arbiter.timer side).cancel host.timers s.outside).2) :=
    Prod.ext ((Debouncer.cancel_fst _ _ _).trans hidle) rfl
  rw [schedule, Debouncer.schedule, hpair]
  simp only
  -- A timer is either started, or the world cannot wait and the side is passed on at once.
  rcases h.after side _ hcancel.sound with ⟨number, w, hafter, hw⟩ | ⟨message, hafter⟩
  · left
    rw [hafter]
    exact ⟨number, w, rfl, hcancel.trans hw⟩
  · right
    rw [hafter]
    exact ⟨_, rfl, hcancel⟩

variable (inner) in
/-- A side that waits is passed on at once. -/
theorem flushSide_spec (h : host.Faithful view delay read write) (side : Side)
    {s : Session δ κ σ} (hs : view.sound s.outside) :
    ∃ w, view.Same s.outside w ∧ flushSide host inner side s =
      let s' : Session δ κ σ := ⟨s.arbiter.setTimer (s.arbiter.timer side).idle side, w⟩
      if (s.arbiter.timer side).pending then propagate host inner side s' else s' := by
  refine ⟨_, h.same_cancel hs (s.arbiter.timer side), ?_⟩
  rw [flushSide, Debouncer.flush, Debouncer.pending]
  simp only [Debouncer.cancel_fst]
  cases (s.arbiter.timer side).waiting with
  | none => rfl
  | some waiting => rfl

/-- So is a side whose timer goes off. -/
theorem goOff_spec (side : Side) (s : Session δ κ σ) :
    goOff host inner side s =
      let s' : Session δ κ σ := ⟨s.arbiter.setTimer (s.arbiter.timer side).idle side, s.outside⟩
      if (s.arbiter.timer side).pending then propagate host inner side s' else s' := by
  rw [goOff, Debouncer.goOff, Debouncer.pending]
  cases (s.arbiter.timer side).waiting with
  | none => rfl
  | some waiting => rfl

end Session

/-- A document and consumers that work, with timers that never go off by themselves. -/
structure Desk where
  /-- The text of the document. -/
  text : String
  /-- The tree that each consumer was shown last. -/
  shown : String → Option Forest := fun _ => none
  /-- The number of the next timer. -/
  next : Nat := 0

namespace Desk

/-- What can be seen of a desk is all of it. -/
def view : View String Desk where
  sound _ := True
  text desk := desk.text
  shown desk := desk.shown
  put text desk := { desk with text }

/-- The collaborators at a desk. The document echoes every text that it takes, and each
    consumer moves the first widget of the tree, as if the user had dragged it. -/
def host (read : String → Document) (write : Document → Except Fault String) :
    Host Unit String Desk where
  text desk := .ok desk.text
  replace _ text desk := { outside := { desk with text }, calls := [.textChanged none] }
  consume consumer _ nodes desk :=
    { outside :=
        { desk with
          shown := fun other => if other = consumer then some nodes else desk.shown other }
      calls := nodes.take 1 |>.map fun n =>
        .treeChanged (.move n.id (some (.int 0)) (some (.int 0))) }
  read text desk := (.ok (read text), desk)
  write d desk := (write d, desk)
  timers :=
    { after := fun _ _ desk => .ok (desk.next, { desk with next := desk.next + 1 })
      cancel := fun _ desk => desk }

/-- A desk is a faithful host for any reader and any writer. -/
theorem host_faithful (read : String → Document) (write : Document → Except Fault String) :
    (host read write).Faithful view () read write where
  text _ _ := rfl
  put _ _ _ := ⟨trivial, rfl, rfl⟩
  replace _ _ _ _ := ⟨rfl, trivial, rfl, rfl, fun _ hc => ⟨none, List.mem_singleton.mp hc⟩⟩
  consume consumer _ nodes desk _ := by
    refine ⟨rfl, trivial, rfl, if_pos rfl, fun other hother => if_neg hother, fun c hc => ?_⟩
    rcases List.mem_map.mp hc with ⟨n, -, rfl⟩
    exact .inl ⟨_, rfl⟩
  read _ _ _ := ⟨rfl, .refl trivial⟩
  write _ _ _ := ⟨rfl, .refl trivial⟩
  after _ _ _ := .inl ⟨_, _, rfl, trivial, rfl, rfl⟩
  cancel _ _ _ := .refl trivial

/-- A desk with documents in markup. -/
def forms : Host Unit String Desk :=
  host (fun text => (Markup.readDocument {} text).1) Markup.writeDocument

end Desk

end WidgetSync
