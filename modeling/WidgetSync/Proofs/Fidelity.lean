import WidgetSync.Proofs.Agreement
import WidgetSync.Proofs.Edits

/-!
# Edits Stay Faithful

What an editor does to the tree of a typed document can be read in the text.

The arbiter is started on the text of a typed document, and from then on only the tree
changes, by values of the right kind. In every state the tree and the one that waits
are orderly, the text never waits, and the text of the document is what is written for
the current tree. Since reading undoes writing on typed documents, reading the text
gives the current tree and window again.

If integers that are too long to be written get into the tree, it is not written, and
the text falls behind until they have gone. If the editor brings in short integers
only, that never happens.

## Main definitions

* `Editing`: What an editor of forms does.
* `Session.Mirrored`: The invariant.

## Theorems

* `Session.Mirrored.meet`: What an editor does keeps the invariant.
* `Session.mirrored_started`: It holds when the arbiter has been started.
* `Session.edits_readable`: Edits of typed documents can be read in the text.
-/

namespace WidgetSync

open Markup

variable {δ κ σ : Type} {short : Prop}

/-- What an editor of forms does: it changes the tree by values of the right kind, sends
    whole trees of such values, and has them passed on. -/
inductive Editing (short : Prop) : Happening → Prop where
  /-- The tree is changed. -/
  | changed {change : Change} (h : TypedChange short change) : Editing short (.changed change)
  /-- A whole tree is sent. -/
  | sent {ns : Forest} (h : Incoming short (Forest.walk ns)) : Editing short (.sent ns)
  /-- What waits is passed on. -/
  | flushed : Editing short .flushed
  /-- A timer goes off. -/
  | wentOff {side : Side} : Editing short (.wentOff side)

/-- An orderly forest in a typed window is a typed document. -/
theorem Orderly.typedDocument {w : Window} (hw : TypedWindow w) {ns : Forest}
    (h : Orderly short (Forest.walk ns)) : TypedDocument ⟨w, ns⟩ :=
  ⟨hw, fun n hn => ⟨(h.regular n hn).toTypedBody, h.named n hn⟩, h.distinct⟩

namespace Session

/-- The tree and the one that waits are orderly, and the document holds the text that is
    written for the tree, if it can be written. -/
structure Mirrored (short : Prop) (view : View κ σ) (delay : δ) (consumers : List κ)
    (window : Window) (s : Session δ κ σ) : Prop where
  steady : Steady view delay consumers s
  quiet : s.arbiter.textTimer.pending = false
  window : s.arbiter.window = window ∧ TypedWindow s.arbiter.window
  nodes : Orderly short (Forest.walk s.arbiter.nodes)
  waiting : ∀ ns, s.arbiter.pendingNodes = some ns → Orderly short (Forest.walk ns)
  text : Document.fits ⟨s.arbiter.window, s.arbiter.nodes⟩ = true →
    writeDocument ⟨s.arbiter.window, s.arbiter.nodes⟩ = .ok (view.text s.outside)

variable {host : Host δ κ σ} {view : View κ σ} {delay : δ} {consumers : List κ}
  {read : String → Document} {inner : Call κ → Session δ κ σ → Served δ κ σ} {window : Window}

/-- The tree to which the next change applies is orderly. -/
theorem Mirrored.base {s : Session δ κ σ} (h : Mirrored short view delay consumers window s) :
    Orderly short (Forest.walk s.arbiter.base) := by
  rw [Arbiter.base]
  cases hpending : s.arbiter.pendingNodes with
  | none => exact h.nodes
  | some ns => exact h.waiting ns hpending

theorem Mirrored.of_same {a : Arbiter δ κ} {w w' : σ}
    (h : Mirrored short view delay consumers window ⟨a, w⟩) (hw : view.Same w w') :
    Mirrored short view delay consumers window ⟨a, w'⟩ := by
  refine { h with steady := { h.steady with sound := hw.sound, agreed := ?_ }, text := ?_ }
  · rw [hw.text]
    exact h.steady.agreed
  · intro hfits
    rw [hw.text]
    exact h.text hfits

/-- A timer of the tree may run or not. -/
theorem Mirrored.setTreeTimer {s : Session δ κ σ}
    (h : Mirrored short view delay consumers window s) {d : Debouncer δ Unit}
    (hd : d.delay = delay) :
    Mirrored short view delay consumers window
      ⟨s.arbiter.setTimer d .tree, s.outside⟩ :=
  { h with steady := { h.steady with treeDelay := hd } }

/-- The tree is passed on, if one waits. -/
theorem Mirrored.passTree (hhost : host.Faithful view delay read writeDocument)
    (hinner : Echoes inner) {s : Session δ κ σ}
    (h : Mirrored short view delay consumers window s) :
    Mirrored short view delay consumers window (propagateTree host inner s) := by
  have hnew : (s.arbiter.textTimer.pending && s.arbiter.treeEvent < s.arbiter.textEvent)
      = false := by
    rw [h.quiet, Bool.false_and]
  cases hpending : s.arbiter.pendingNodes with
  | none =>
      rcases propagateTree_of_none inner hhost h.steady.sound hnew hpending with
        ⟨w, hpassed, hw⟩
      rw [hpassed]
      exact Mirrored.of_same (w := s.outside)
        { h with steady := { h.steady with }, quiet := rfl, waiting := h.waiting } hw
  | some ns =>
      rcases propagateTree_spec hhost hinner h.steady.sound hnew hpending with
        ⟨w, hpassed, hsound, -, htext⟩
      rw [hpassed]
      unfold afterTree
      have hagreed := h.steady.agreed
      have hnone : ∀ ns, (none : Option Forest) = some ns → Orderly short (Forest.walk ns) :=
        fun _ hns => absurd hns (by simp only [reduceCtorEq, not_false_eq_true])
      cases hwritten : writeDocument ⟨s.arbiter.window, ns⟩ with
      | error fault =>
          rw [hwritten] at htext
          refine ⟨{ h.steady with sound := hsound, idle := rfl, agreed := ?_ }, rfl, h.window,
            h.waiting ns hpending, hnone, fun hfits => ?_⟩
          · exact hagreed.trans (congrArg some htext.symm)
          · -- A typed tree whose integers fit can be written, so there was no fault.
            rcases ((h.waiting ns hpending).typedDocument h.window.2).restored {} hfits with
              ⟨text, htext, -⟩
            rw [hwritten] at htext
            exact absurd htext (by simp only [reduceCtorEq, not_false_eq_true])
      | ok text =>
          rw [hwritten] at htext
          refine ⟨{ h.steady with
            sound := hsound, idle := rfl, agreed := congrArg some htext.symm }, rfl, h.window,
            h.waiting ns hpending, hnone, fun hfits => ?_⟩
          simp only
          rw [hwritten, htext]
          rfl

/-- A side is passed on. Since no text waits, only the tree can be. -/
theorem Mirrored.pass (hhost : host.Faithful view delay read writeDocument)
    (hinner : Echoes inner) {s : Session δ κ σ}
    (h : Mirrored short view delay consumers window s) {side : Side} {w : σ}
    (hw : view.Same s.outside w) :
    let s' : Session δ κ σ := ⟨s.arbiter.setTimer (s.arbiter.timer side).idle side, w⟩
    Mirrored short view delay consumers window
      (if (s.arbiter.timer side).pending then propagate host inner side s' else s') := by
  intro s'
  have hidle : Mirrored short view delay consumers window s' := by
    refine Mirrored.of_same (w := s.outside) ?_ hw
    cases side with
    | text => exact { h with steady := { h.steady with }, quiet := rfl }
    | tree => exact h.setTreeTimer h.steady.treeDelay
  by_cases hpending : (s.arbiter.timer side).pending = true
  · rw [if_pos hpending]
    cases side with
    -- Editors send no texts, so the timer of the text does not run.
    | text =>
        have hquiet := h.quiet
        rw [show s.arbiter.textTimer.pending = true from hpending] at hquiet
        exact absurd hquiet (by decide)
    | tree => exact hidle.passTree hhost hinner
  · rw [if_neg hpending]
    exact hidle

/-- A tree is accepted. -/
theorem Mirrored.acceptTree (hhost : host.Faithful view delay read writeDocument)
    (hinner : Echoes inner) {s : Session δ κ σ}
    (h : Mirrored short view delay consumers window s) {ns : Forest}
    (hns : Orderly short (Forest.walk ns)) :
    Mirrored short view delay consumers window (acceptTree host inner ns s).1 := by
  unfold Session.acceptTree
  have hcounted : Mirrored short view delay consumers window
      (update (·.count .tree) (setPending (some ns) s)) := by
    have hsteady : Steady view delay consumers
        (update (·.count .tree) (setPending (some ns) s)) :=
      { h.steady with
        textEvent := Nat.le_succ_of_le h.steady.textEvent, treeEvent := Nat.le_refl _ }
    refine { h with steady := hsteady, waiting := fun ns' hns' => ?_ }
    rw [← Option.some.inj hns']
    exact hns
  rcases schedule_spec inner hhost .tree (s := update (·.count .tree) (setPending
      (some ns) s)) h.steady.sound h.steady.treeDelay with
    ⟨number, w, hwaits, hw⟩ | ⟨w, hpassed, hw⟩
  · rw [hwaits]
    exact (hcounted.setTreeTimer rfl).of_same hw
  · rw [hpassed]
    exact ((hcounted.setTreeTimer rfl).of_same hw).passTree hhost hinner

section Runs

variable [BEq κ]

/-- What an editor does keeps the invariant. -/
theorem Mirrored.meet (hhost : host.Faithful view delay read writeDocument) {s : Session δ κ σ}
    (h : Mirrored short view delay consumers window s) {happening : Happening}
    (hediting : Editing short happening) :
    Mirrored short view delay consumers window (s.meet host view happening) := by
  have hinner : Echoes (serveWithin host 199) := serveWithin_echoes host 198
  have hserve : ∀ (c : Call κ) (s : Session δ κ σ),
      serve host c s = call host (serveWithin host 199) c s := fun _ _ => rfl
  have hremember : ∀ fault, Mirrored short view delay consumers window (s.remember fault) :=
    fun fault => { h with steady := { h.steady with } }
  have hheard : ¬(!s.arbiter.listens || s.arbiter.phase = .textToTree) = true := by
    rw [h.steady.heard .textToTree (by decide)]
    exact Bool.false_ne_true
  cases hediting with
  | @changed change hchange =>
      rw [Session.meet, hserve, call, treeChanged, if_neg hheard]
      cases happlied : change.apply s.arbiter.base with
      | error fault => exact hremember (some fault)
      | ok applied => exact h.acceptTree hhost hinner (hchange.apply h.base happlied)
  | @sent ns hns =>
      rcases assignIds_orderly hns with ⟨hfault, horderly⟩
      rw [Session.meet, hserve, call, treeSent, if_neg hheard]
      simp only [hfault]
      exact h.acceptTree hhost hinner horderly
  | flushed =>
      have hside : ∀ (side : Side) {s : Session δ κ σ},
          Mirrored short view delay consumers window s →
          Mirrored short view delay consumers window
            (flushSide host (serveWithin host 199) side s) := by
        intro side s h
        rcases flushSide_spec (serveWithin host 199) hhost side h.steady.sound with
          ⟨w, hw, hflushed⟩
        rw [hflushed]
        exact h.pass hhost hinner hw
      exact hside .tree (hside .text h)
  | @wentOff side =>
      rw [Session.meet, hserve, call, goOff_spec]
      exact h.pass hhost hinner (.refl h.steady.sound)

theorem Mirrored.run (hhost : host.Faithful view delay read writeDocument)
    (happenings : List Happening) :
    ∀ {s : Session δ κ σ} {latest : Latest}, Mirrored short view delay consumers window s →
      (∀ happening ∈ happenings, Editing short happening) →
      Mirrored short view delay consumers window (run host view happenings (s, latest)).1 := by
  induction happenings with
  | nil =>
      intro s latest h _
      exact h
  | cons happening happenings ih =>
      intro s latest h hall
      exact ih (h.meet hhost (hall happening List.mem_cons_self))
        fun other hother => hall other (List.mem_cons_of_mem _ hother)

/-- When the arbiter has been started on the text of a typed document, that document is the
    current one. -/
theorem mirrored_started {settings : Settings}
    (hhost : host.Faithful view delay (fun text => (readDocument settings text).1) writeDocument)
    {d : Document} (hd : TypedDocument d) {w : σ} (hw : view.sound w)
    (hwritten : writeDocument d = .ok (view.text w)) (window : Window) :
    Mirrored short view delay consumers d.window
      (started host window delay consumers w) := by
  have hfits : d.fits = true := hd.formed.fits_of_written typed_carried hwritten
  have hread : (readDocument settings (view.text w)).1 = d := by
    rcases hd.restored settings hfits with ⟨text, htext, hread⟩
    rw [hwritten] at htext
    rw [Except.ok.inj htext]
    exact hread
  have horderly : Orderly short (Forest.walk d.nodes) :=
    ⟨fun n hn => ⟨(hd.nodes n hn).toTypedBody, fun _ => (Document.fits_mem hfits).2.2.2 n hn⟩,
      fun n hn => (hd.nodes n hn).id, hd.distinct⟩
  rcases started_spec hhost window consumers hw with ⟨w', hstarted, hsound, htext, -⟩
  rw [hstarted, hread]
  refine ⟨⟨hsound, rfl, rfl, rfl, rfl, rfl, congrArg some htext.symm, Nat.le_refl _,
    Nat.zero_le _⟩, rfl, ⟨rfl, hd.window⟩, horderly, fun _ hns => ?_, fun _ => ?_⟩
  · exact absurd hns (by simp only [afterText, reduceCtorEq, not_false_eq_true])
  · rw [htext]
    exact hwritten

/-- Edits of a typed document can be read in its text. After any run of them the window is
    still the same and the document a typed one. If its integers can be written, as they
    can when all that came in are short, then what is written for it stands in the
    document, and reading that gives it again. -/
theorem edits_readable {settings : Settings}
    (hhost : host.Faithful view delay (fun text => (readDocument settings text).1) writeDocument)
    (d : Document) (hd : TypedDocument d) (w : σ) (hw : view.sound w)
    (hwritten : writeDocument d = .ok (view.text w)) (window : Window) (consumers : List κ)
    (happenings : List Happening) (hediting : ∀ h ∈ happenings, Editing short h) :
    let s := (run host view happenings
      (started host window delay consumers w, .byText (view.text w))).1
    let now : Document := ⟨s.arbiter.window, s.arbiter.nodes⟩
    now.window = d.window ∧ TypedDocument now ∧ (short → now.fits = true) ∧
      (now.fits = true → writeDocument now = .ok (view.text s.outside) ∧
        (readDocument settings (view.text s.outside)).1 = now) := by
  intro s now
  have hmirrored : Mirrored short view delay consumers d.window s :=
    (mirrored_started hhost hd hw hwritten window).run hhost happenings hediting
  have htyped : TypedDocument now := hmirrored.nodes.typedDocument hmirrored.window.2
  have hfits := Document.fits_mem (hd.formed.fits_of_written typed_carried hwritten)
  refine ⟨hmirrored.window.1, htyped, fun hshort => ?_, fun hnow => ?_⟩
  · -- The window is that of the given document, and the widgets are made of short integers.
    have hnodes : (Forest.walk s.arbiter.nodes).all Node.fits = true :=
      List.all_eq_true.mpr fun n hn => (hmirrored.nodes.regular n hn).fits hshort
    have hwindow : now.window = d.window := hmirrored.window.1
    rw [Document.fits, hwindow, hfits.1, hfits.2.1, hfits.2.2.1, Bool.and_self, Bool.true_and]
    exact hnodes
  · rcases htyped.restored settings hnow with ⟨text, htext, hread⟩
    have hmirror : writeDocument now = .ok (view.text s.outside) := hmirrored.text hnow
    refine ⟨hmirror, ?_⟩
    rw [hmirror] at htext
    rw [Except.ok.inj htext]
    exact hread

end Runs

/-- A user puts a button elsewhere and gives it a text and an id that is taken, adds a label
    of the same name to the frame, and deletes the label that was there. -/
def sampleEdits : List Happening :=
  [.changed (.move (.text "ok") (some (.int 5)) (some (.int (-6)))),
    .changed (.property (.text "ok") (some (.text "text")) (some (.text "\"\x7b\n"))),
    .wentOff .tree,
    .changed (.property (.text "ok") (some (.text "id")) (some (.text "frame"))),
    .changed (.add (some { type := .text "Label", id := .text "frame" }) (.text "frame")
      (.int (-1))),
    .changed (.delete (.text "_1")), .flushed]

theorem sampleEdits_editing : ∀ h ∈ sampleEdits, Editing True h := by
  have hlabel : Incoming True
      (Node.depthFirst { type := .text "Label", id := .text "frame" }) := by
    intro m hm
    rw [Node.depthFirst, Forest.walk, List.mem_singleton] at hm
    subst hm
    exact ⟨⟨⟨⟨_, rfl, by decide +kernel, by decide +kernel⟩, ⟨_, rfl⟩, ⟨_, rfl⟩, ⟨_, rfl⟩,
      ⟨_, rfl⟩, by decide, fun f hf => absurd hf List.not_mem_nil⟩, fun _ => by decide +kernel⟩,
      _, rfl⟩
  intro h hh
  simp only [sampleEdits, List.mem_cons, List.not_mem_nil, or_false] at hh
  rcases hh with rfl | rfl | rfl | rfl | rfl | rfl | rfl
  · exact .changed (.move fun _ => ⟨by decide +kernel, by decide +kernel⟩)
  · exact .changed (.property (.plain (listed_of_admits (by decide +kernel)))
      fun _ => by decide +kernel)
  · exact .wentOff
  · exact .changed .rename
  · exact .changed (.add hlabel)
  · exact .changed .delete
  · exact .flushed

theorem sampleEdits_readable :
    TypedDocument sampleForm ∧ (∀ h ∈ sampleEdits, Editing True h) ∧
      ∃ text, writeDocument sampleForm = .ok text ∧
        let s := (run Desk.forms Desk.view sampleEdits
          (started Desk.forms (.usual {}) () ["canvas"] { text }, .byText text)).1
        (readDocument {} s.outside.text).1 = ⟨s.arbiter.window, s.arbiter.nodes⟩ := by
  rcases sampleForm_typed.restored {} (by decide +kernel) with ⟨text, htext, -⟩
  rcases edits_readable (Desk.host_faithful _ _) sampleForm sampleForm_typed { text } trivial htext
    (.usual {}) ["canvas"] sampleEdits sampleEdits_editing with ⟨-, -, hshort, hread⟩
  exact ⟨sampleForm_typed, sampleEdits_editing, text, htext, (hread (hshort trivial)).2⟩

end Session

end WidgetSync
