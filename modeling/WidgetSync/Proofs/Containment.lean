import WidgetSync.Proofs.Refusal
import WidgetSync.Proofs.Timers

/-!
# Failures Are Contained

What an arbiter does when its collaborators fail, whichever of them and however often.

A host is aloof if its collaborators do not call back; that they fail is left open, except
that the text of the document can be had and that a timer is started or refused. A
failure then never leaves the arbiter, which is idle after every call, and does not keep
a consumer from being shown the tree.

To say who was shown what, the collaborators of a host write down each dealing with them,
and whether they failed. A host whose collaborators do so is a host like any other, and
nothing that happens depends on what is written down. So each operation is described by two
equations at once: what it does without the notes is what it does with them, and the notes
grow by certain dealings. The dealings of one call come in passages, each of one of four
forms, and where a tree is shown in one of them, every consumer is shown it once.

The last failure that an arbiter remembers is a fold over dealings. A passage begins it
anew, so that after a passage none is remembered just if none of its dealings failed.

## Main definitions

* `Dealing`, `failure`: What collaborators are asked, and the last failure among it.
* `Host.Aloof`: Collaborators that do not call back.
* `Host.noting`, `Session.noted`: Collaborators that write down what they are asked.
* `Showing`, `Reading`, `Writing`, `Restoring`, `Loading`: The forms in which collaborators
  are dealt with.
* `Arbiter.Passes`: The turn of a side has come.
* `Session.Relayed`, `Session.Contained`: What holds of a passage, and of a call.
* `Session.Possible`: The sessions that there can be.

## Theorems

* `Session.push_noted`: Every consumer is shown the tree once, whoever fails.
* `Session.propagateText_relayed`, `Session.propagateTree_relayed`,
  `Session.restore_relayed`, `Session.loadTree_relayed`: What is passed on, and what is
  remembered then.
* `Session.call_contained`: No failure leaves a call.
* `Session.failures_contained`: All of this, for every session that there can be.
-/

namespace WidgetSync

variable {δ κ σ : Type}

/-- Something that a collaborator was asked, and what came of it. -/
inductive Dealing (κ : Type) where
  /-- The format was to read a text. -/
  | read (text : String) (answer : Except Fault Document)
  /-- The format was to write a document. -/
  | wrote (d : Document) (answer : Except Fault String)
  /-- The document was given a text. -/
  | replaced (text : String) (fault : Option Fault)
  /-- A consumer was shown a tree. -/
  | shown (consumer : κ) (nodes : Forest) (fault : Option Fault)

namespace Dealing

/-- Why the collaborator failed, if it did. -/
def fault? : Dealing κ → Option Fault
  | .read _ (.error fault) => some fault
  | .read _ (.ok _) => none
  | .wrote _ (.error fault) => some fault
  | .wrote _ (.ok _) => none
  | .replaced _ fault => fault
  | .shown _ _ fault => fault

/-- Who was shown which tree. -/
def showing? : Dealing κ → Option (κ × Forest)
  | .shown consumer nodes _ => some (consumer, nodes)
  | _ => none

end Dealing

/-- The last failure after some dealings, from the last one before. -/
def failure (before : Option Fault) (ds : List (Dealing κ)) : Option Fault :=
  ds.foldl (fun last d => d.fault?.or last) before

theorem failure_append (before : Option Fault) (ds ds' : List (Dealing κ)) :
    failure before (ds ++ ds') = failure (failure before ds) ds' :=
  List.foldl_append

/-- There is no last failure just if nothing failed. -/
theorem failure_eq_none_iff {before : Option Fault} {ds : List (Dealing κ)} :
    failure before ds = none ↔ before = none ∧ ∀ d ∈ ds, d.fault? = none := by
  induction ds generalizing before with
  | nil => exact ⟨fun h => ⟨h, nofun⟩, And.left⟩
  | cons d ds ih =>
      rw [failure, List.foldl_cons]
      refine ih.trans ?_
      rw [Option.or_eq_none_iff, List.forall_mem_cons, and_assoc, and_left_comm]

/-- Collaborators that do not call back. The text of the document can be had, and a timer
    is started or refused. -/
structure Host.Aloof (host : Host δ κ σ) : Prop where
  text : ∀ w, ∃ text, host.text w = .ok text
  replace : ∀ arbiter text w, (host.replace arbiter text w).calls = []
  consume : ∀ consumer arbiter nodes w, (host.consume consumer arbiter nodes w).calls = []
  after : ∀ delay side w fault, host.timers.after delay side w = .error fault →
    ∃ reason, fault = .refused reason

/-- Collaborators that write down what they are asked. -/
def Host.noting (host : Host δ κ σ) : Host δ κ (σ × List (Dealing κ)) where
  text w := host.text w.1
  replace arbiter text w :=
    let r := host.replace arbiter text w.1
    { r with outside := (r.outside, w.2 ++ [.replaced text r.fault]) }
  consume consumer arbiter nodes w :=
    let r := host.consume consumer arbiter nodes w.1
    { r with outside := (r.outside, w.2 ++ [.shown consumer nodes r.fault]) }
  read text w :=
    let (answer, w') := host.read text w.1
    (answer, w', w.2 ++ [.read text answer])
  write d w :=
    let (answer, w') := host.write d w.1
    (answer, w', w.2 ++ [.wrote d answer])
  timers :=
    { after := fun delay side w =>
        (host.timers.after delay side w.1).map fun (number, w') => (number, w', w.2)
      cancel := fun number w => (host.timers.cancel number w.1, w.2) }

/-- All consumers were shown a tree, each one once and in order. -/
def Showing (consumers : List κ) (nodes : Forest) (ds : List (Dealing κ)) : Prop :=
  ds.map Dealing.showing? = consumers.map fun consumer => some (consumer, nodes)

/-- A text was read, and if that could be done, its tree was shown. -/
inductive Reading (consumers : List κ) (text : String) : List (Dealing κ) → Prop where
  | failed (fault : Fault) : Reading consumers text [.read text (.error fault)]
  | shown (d : Document) {ds : List (Dealing κ)} (hshown : Showing consumers d.nodes ds) :
      Reading consumers text (.read text (.ok d) :: ds)

/-- A tree was written, and if that could be done, the document was given the text. -/
inductive Writing (nodes : Forest) : List (Dealing κ) → Prop where
  | failed (window : Window) (fault : Fault) : Writing nodes [.wrote ⟨window, nodes⟩ (.error fault)]
  | given (window : Window) (text : String) (fault : Option Fault) :
      Writing nodes [.wrote ⟨window, nodes⟩ (.ok text), .replaced text fault]

/-- The document was given a text, and if it took it, the text was read. -/
inductive Restoring (consumers : List κ) (text : String) : List (Dealing κ) → Prop where
  | failed (fault : Fault) : Restoring consumers text [.replaced text (some fault)]
  | taken {ds : List (Dealing κ)} (hread : Reading consumers text ds) :
      Restoring consumers text (.replaced text none :: ds)

/-- A tree was shown, and then it was written. -/
inductive Loading (consumers : List κ) (nodes : Forest) : List (Dealing κ) → Prop where
  | shown {ds ds' : List (Dealing κ)} (hshown : Showing consumers nodes ds)
      (hwritten : Writing nodes ds') : Loading consumers nodes (ds ++ ds')

/-- The dealings in which one thing was passed on. -/
inductive Passage (consumers : List κ) (ds : List (Dealing κ)) : Prop where
  /-- The text was passed on. -/
  | text (text : String) (h : Reading consumers text ds)
  /-- The tree was passed on. -/
  | tree (nodes : Forest) (h : Writing nodes ds)
  /-- A text was restored. -/
  | restored (text : String) (h : Restoring consumers text ds)
  /-- A tree was loaded. -/
  | loaded (nodes : Forest) (h : Loading consumers nodes ds)

/-- A side is passed on when its turn has come: no newer event waits on the other side, and
    there is something to be written. -/
def Arbiter.Passes (a : Arbiter δ κ) : Side → Prop
  | .text => ¬ (a.treeTimer.pending && a.textEvent < a.treeEvent)
  | .tree => ¬ (a.textTimer.pending && a.treeEvent < a.textEvent) ∧ a.pendingNodes ≠ none

namespace Session

/-- The session in a world with notes. -/
def noted (notes : List (Dealing κ)) (s : Session δ κ σ) : Session δ κ (σ × List (Dealing κ)) :=
  ⟨s.arbiter, s.outside, notes⟩

theorem noted_arbiter (notes : List (Dealing κ)) (s : Session δ κ σ) :
    (s.noted notes).arbiter = s.arbiter :=
  rfl

/-- The first session became the second one with some dealings, which were noted. -/
structure Dealt (notes ds : List (Dealing κ)) (s t : Session δ κ σ)
    (t' : Session δ κ (σ × List (Dealing κ))) : Prop where
  noted : t' = t.noted (notes ++ ds)
  consumers : t.arbiter.consumers = s.arbiter.consumers
  fault : t.arbiter.lastFault = failure s.arbiter.lastFault ds

/-- One thing was passed on between the two sessions. -/
structure Relayed (notes ds : List (Dealing κ)) (s t : Session δ κ σ)
    (t' : Session δ κ (σ × List (Dealing κ))) : Prop where
  /-- It was the same with notes. -/
  noted : t' = t.noted (notes ++ ds)
  consumers : t.arbiter.consumers = s.arbiter.consumers
  /-- The arbiter is idle. -/
  idle : t.arbiter.phase = .idle
  /-- No failure is remembered just if there was none. -/
  fault : t.arbiter.lastFault = none ↔ ∀ d ∈ ds, d.fault? = none

/-- Dealings after which the arbiter is idle, and before which it has forgotten the last
    failure. -/
theorem Dealt.relayed {notes ds : List (Dealing κ)} {s u t : Session δ κ σ}
    {t' : Session δ κ (σ × List (Dealing κ))} (h : Dealt notes ds u t t')
    (hfault : u.arbiter.lastFault = none) (hconsumers : u.arbiter.consumers = s.arbiter.consumers)
    (hidle : t.arbiter.phase = .idle) : Relayed notes ds s t t' where
  noted := h.noted
  consumers := h.consumers.trans hconsumers
  idle := hidle
  fault := by
    rw [h.fault, failure_eq_none_iff]
    exact and_iff_right hfault

/-- The session in which a tree that is loaded is shown. -/
def loading (host : Host δ κ σ) (nodes : Forest) (window : Option Window) (s : Session δ κ σ) :
    Session δ κ σ :=
  enter .textToTree (update (fun a => { a with nodes, window := window.getD a.window })
    (remember none (cancelAll host s)))

/-- Some things were passed on between the two sessions, one after the other. -/
structure Passed (notes : List (Dealing κ)) (passages : List (List (Dealing κ)))
    (s t : Session δ κ σ) (t' : Session δ κ (σ × List (Dealing κ))) : Prop where
  noted : t' = t.noted (notes ++ passages.flatten)
  passage : ∀ p ∈ passages, Passage s.arbiter.consumers p
  consumers : t.arbiter.consumers = s.arbiter.consumers
  quiet : passages = [] → t.arbiter.lastFault = s.arbiter.lastFault
  fault : ∀ p ∈ passages.getLast?, (t.arbiter.lastFault = none ↔ ∀ d ∈ p, d.fault? = none)

/-- No failure has left a call. What the arbiter has dealt with came in passages, and no failure is
    remembered after the last of them just if nothing failed in it. -/
structure Contained (notes : List (Dealing κ)) (passages : List (List (Dealing κ)))
    (consumers : List κ) (served : Served δ κ σ)
    (served' : Served δ κ (σ × List (Dealing κ))) : Prop where
  unfailed : served.2 = none
  noted : served' = (served.1.noted (notes ++ passages.flatten), none)
  passage : ∀ p ∈ passages, Passage consumers p
  fault : ∀ p ∈ passages.getLast?, (served.1.arbiter.lastFault = none ↔ ∀ d ∈ p, d.fault? = none)

section Passages

variable {notes ds : List (Dealing κ)} {passages passages' : List (List (Dealing κ))}
  {s t u : Session δ κ σ} {t' u' : Session δ κ (σ × List (Dealing κ))}

theorem Dealt.passed (h : Dealt notes [] s t t') : Passed notes [] s t t' :=
  ⟨h.noted, nofun, h.consumers, fun _ => h.fault, nofun⟩

theorem Relayed.passed (h : Relayed notes ds s t t')
    (hpassage : Passage s.arbiter.consumers ds) : Passed notes [ds] s t t' where
  noted := by rw [h.noted, List.flatten_cons, List.flatten_nil, List.append_nil]
  passage p hp := List.mem_singleton.mp hp ▸ hpassage
  consumers := h.consumers
  quiet := nofun
  fault p hp := Option.mem_some.mp hp ▸ h.fault

theorem Passed.trans (h : Passed notes passages s t t')
    (h' : Passed (notes ++ passages.flatten) passages' t u u') :
    Passed notes (passages ++ passages') s u u' where
  noted := by rw [h'.noted, List.flatten_append, List.append_assoc]
  passage p hp := by
    rcases List.mem_append.mp hp with hp | hp
    · exact h.passage p hp
    · exact h.consumers ▸ h'.passage p hp
  consumers := h'.consumers.trans h.consumers
  quiet hnil := by
    rcases List.append_eq_nil_iff.mp hnil with ⟨hnone, hnone'⟩
    exact (h'.quiet hnone').trans (h.quiet hnone)
  fault p hp := by
    -- The last passage is one of the second part, unless that part is empty.
    cases passages' with
    | nil =>
        rw [List.append_nil] at hp
        rw [h'.quiet rfl]
        exact h.fault p hp
    | cons q qs =>
        rw [List.getLast?_append, List.getLast?_cons, Option.some_or, ← List.getLast?_cons] at hp
        exact h'.fault p hp

theorem Passed.contained (h : Passed notes passages s t t') :
    Contained notes passages s.arbiter.consumers (t, none) (t', none) :=
  ⟨rfl, congrArg (·, none) h.noted, h.passage, h.fault⟩

/-- Where nothing is passed on, nobody is dealt with. -/
theorem contained_quiet {consumers : List κ} (h : t' = t.noted notes) :
    Contained notes [] consumers (t, none) (t', none) :=
  ⟨rfl, by rw [h, List.flatten_nil, List.append_nil], nofun, nofun⟩

end Passages

section Operations

variable {host : Host δ κ σ} {inner : Call κ → Session δ κ σ → Served δ κ σ}
  {inner' : Call κ → Session δ κ (σ × List (Dealing κ)) → Served δ κ (σ × List (Dealing κ))}

theorem react_of_silent (inner : Call κ → Session δ κ σ → Served δ κ σ) {r : Reaction κ σ}
    (h : r.calls = []) (s : Session δ κ σ) :
    react inner r s = ({ s with outside := r.outside }, r.fault) := by
  rw [react, h]
  rfl

/-- A consumer that does not call back is shown a tree, and its failure is remembered. -/
theorem showTo_of_silent (inner : Call κ → Session δ κ σ → Served δ κ σ) {nodes : Forest}
    {consumer : κ} {s : Session δ κ σ}
    (h : (host.consume consumer s.arbiter nodes s.outside).calls = []) :
    showTo host inner nodes s consumer =
      let r := host.consume consumer s.arbiter nodes s.outside
      ⟨{ s.arbiter with lastFault := r.fault.or s.arbiter.lastFault }, r.outside⟩ := by
  rw [showTo, react_of_silent inner h]
  rcases host.consume consumer s.arbiter nodes s.outside with ⟨w, calls, fault⟩
  cases fault with
  | none => rfl
  | some fault => rfl

variable (inner inner') (notes : List (Dealing κ)) (s : Session δ κ σ)

theorem cancel_noted (side : Side) :
    cancel host.noting side (s.noted notes) = (cancel host side s).noted notes := by
  have htimer : (s.noted notes).arbiter.timer side = s.arbiter.timer side := rfl
  rw [cancel, cancel, htimer, Debouncer.cancel, Debouncer.cancel]
  cases (s.arbiter.timer side).waiting with
  | none => rfl
  | some waiting => rfl

variable (host) in
theorem cancel_passed (side : Side) :
    Passed notes [] s (cancel host side s) (cancel host.noting side (s.noted notes)) := by
  have hnoted : cancel host.noting side (s.noted notes)
      = (cancel host side s).noted (notes ++ []) := by
    rw [cancel_noted, List.append_nil]
  cases side with
  | text => exact Dealt.passed ⟨hnoted, rfl, rfl⟩
  | tree => exact Dealt.passed ⟨hnoted, rfl, rfl⟩

theorem cancelAll_noted :
    cancelAll host.noting (s.noted notes) = (cancelAll host s).noted notes := by
  rw [cancelAll, cancelAll, cancel_noted, cancel_noted]
  rfl

variable (h : host.Aloof)
include h

/-- A consumer is shown a tree. -/
theorem showTo_noted (nodes : Forest) (consumer : κ) :
    ∃ fault w,
      showTo host inner nodes s consumer
        = ⟨{ s.arbiter with lastFault := fault.or s.arbiter.lastFault }, w⟩ ∧
      showTo host.noting inner' nodes (s.noted notes) consumer
        = ⟨{ s.arbiter with lastFault := fault.or s.arbiter.lastFault }, w,
            notes ++ [.shown consumer nodes fault]⟩ := by
  have hcalls := h.consume consumer s.arbiter nodes s.outside
  exact ⟨_, _, showTo_of_silent inner hcalls, showTo_of_silent inner' hcalls⟩

/-- Consumers are shown a tree one after the other, whoever of them fails. -/
theorem foldl_showTo_noted (nodes : Forest) (consumers : List κ) :
    ∃ ds w, Showing consumers nodes ds ∧
      consumers.foldl (showTo host inner nodes) s
        = ⟨{ s.arbiter with lastFault := failure s.arbiter.lastFault ds }, w⟩ ∧
      consumers.foldl (showTo host.noting inner' nodes) (s.noted notes)
        = ⟨{ s.arbiter with lastFault := failure s.arbiter.lastFault ds }, w, notes ++ ds⟩ := by
  -- Both runs go on from what the first consumer has left, so the notes and the failure vary.
  induction consumers generalizing notes s with
  | nil => exact ⟨[], s.outside, rfl, rfl, by rw [List.append_nil]; rfl⟩
  | cons consumer consumers ih =>
      rcases showTo_noted inner inner' notes s h nodes consumer with ⟨fault, w, hshow, hshow'⟩
      rcases ih (notes ++ [.shown consumer nodes fault])
        ⟨{ s.arbiter with lastFault := fault.or s.arbiter.lastFault }, w⟩ with
        ⟨ds, w', hshown, hrest, hrest'⟩
      refine ⟨.shown consumer nodes fault :: ds, w', congrArg (_ :: ·) hshown, ?_, ?_⟩
      · rw [List.foldl_cons, hshow]
        exact hrest
      · rw [List.append_assoc] at hrest'
        rw [List.foldl_cons, hshow']
        exact hrest'

/-- Every consumer is shown the tree once, whoever fails. -/
theorem push_noted (nodes : Forest) :
    ∃ ds w, Showing s.arbiter.consumers nodes ds ∧
      push host inner nodes s
        = ⟨{ s.arbiter with lastFault := failure s.arbiter.lastFault ds }, w⟩ ∧
      push host.noting inner' nodes (s.noted notes)
        = ⟨{ s.arbiter with lastFault := failure s.arbiter.lastFault ds }, w, notes ++ ds⟩ :=
  foldl_showTo_noted inner inner' notes s h nodes s.arbiter.consumers

theorem push_dealt (nodes : Forest) :
    ∃ ds, Showing s.arbiter.consumers nodes ds ∧
      Dealt notes ds s (push host inner nodes s)
        (push host.noting inner' nodes (s.noted notes)) := by
  rcases push_noted inner inner' notes s h nodes with ⟨ds, w, hshown, hpush, hpush'⟩
  rw [hpush, hpush']
  exact ⟨ds, hshown, rfl, rfl, rfl⟩

/-- A text is read and its tree is shown. -/
theorem loadText_noted (text : String) :
    ∃ ds, Reading s.arbiter.consumers text ds ∧
      Dealt notes ds s (settle (loadText host inner text s))
        (settle (loadText host.noting inner' text (s.noted notes))) := by
  rw [loadText, loadText]
  cases hread : host.read text s.outside with
  | mk answer w =>
      have hread' : host.noting.read text (s.noted notes).outside
          = (answer, w, notes ++ [.read text answer]) := by
        simp only [Host.noting, noted, hread]
      rw [hread']
      cases answer with
      | error fault => exact ⟨_, .failed fault, rfl, rfl, rfl⟩
      | ok d =>
          rcases push_noted inner inner' (notes ++ [.read text (.ok d)])
            (update (fun a => { a with nodes := d.nodes, window := d.window })
              { s with outside := w }) h d.nodes with ⟨ds, w', hshown, hpush, hpush'⟩
          rw [List.append_assoc] at hpush'
          refine ⟨.read text (.ok d) :: ds, .shown d hshown, ?_⟩
          simp only
          rw [hpush]
          exact ⟨congrArg (enter .idle) hpush', rfl, rfl⟩

/-- A text is given to the document. -/
theorem replace_noted (text : String) :
    ∃ fault w, react inner (host.replace s.arbiter text s.outside) s = (⟨s.arbiter, w⟩, fault) ∧
      react inner' (host.noting.replace (s.noted notes).arbiter text (s.noted notes).outside)
          (s.noted notes)
        = (⟨s.arbiter, w, notes ++ [.replaced text fault]⟩, fault) := by
  have hcalls := h.replace s.arbiter text s.outside
  have hcalls' : (host.noting.replace (s.noted notes).arbiter text (s.noted notes).outside).calls
      = [] := hcalls
  exact ⟨_, _, react_of_silent inner hcalls s, react_of_silent inner' hcalls' (s.noted notes)⟩

/-- A tree is written, and its text is given to the document. -/
theorem writeTree_noted (nodes : Forest) :
    ∃ ds, Writing nodes ds ∧
      Dealt notes ds s (settle (writeTree host inner nodes s))
        (settle (writeTree host.noting inner' nodes (s.noted notes))) := by
  rw [writeTree, writeTree]
  cases hwrite : host.write ⟨s.arbiter.window, nodes⟩ s.outside with
  | mk answer w =>
      have hwrite' : host.noting.write ⟨(s.noted notes).arbiter.window, nodes⟩
            (s.noted notes).outside
          = (answer, w, notes ++ [.wrote ⟨s.arbiter.window, nodes⟩ answer]) := by
        simp only [Host.noting, noted, hwrite]
      rw [hwrite']
      cases answer with
      | error fault => exact ⟨_, .failed s.arbiter.window fault, rfl, rfl, rfl⟩
      | ok text =>
          rcases replace_noted inner inner' (notes ++ [.wrote ⟨s.arbiter.window, nodes⟩ (.ok text)])
            (agreeOn text { s with outside := w }) h text with ⟨fault, w', hreplace, hreplace'⟩
          rw [List.append_assoc] at hreplace'
          refine ⟨_, .given s.arbiter.window text fault, ?_⟩
          simp only
          rw [hreplace]
          cases fault with
          | none => exact ⟨congrArg settle hreplace', rfl, rfl⟩
          | some fault => exact ⟨congrArg settle hreplace', rfl, rfl⟩

omit h in
variable (host) in
/-- What passing the text on comes to when its turn has come. -/
theorem propagateText_eq {text : String} (hpasses : s.arbiter.Passes .text)
    (htext : host.text (cancel host .tree s).outside = .ok text) :
    propagateText host inner s = settle (loadText host inner text (remember none
      (agreeOn text (enter .textToTree (setPending none (cancel host .tree s)))))) := by
  have htext' : host.text (enter .textToTree (setPending none (cancel host .tree s))).outside
      = .ok text := htext
  rw [propagateText]
  simp only
  rw [if_neg hpasses, htext']

omit h in
variable (host) in
/-- What passing the tree on comes to when its turn has come. -/
theorem propagateTree_eq {nodes : Forest} (hpasses : s.arbiter.Passes .tree)
    (hnodes : s.arbiter.pendingNodes = some nodes) :
    propagateTree host inner s = settle (writeTree host inner nodes (remember none
      (update (fun a => { a with nodes })
        (enter .treeToText (setPending none (cancel host .text s)))))) := by
  have hnodes' : (cancel host .text s).arbiter.pendingNodes = some nodes := hnodes
  rw [propagateTree]
  simp only
  rw [if_neg hpasses.1, hnodes']

/-- The text is passed on when its turn has come. -/
theorem propagateText_relayed (hpasses : s.arbiter.Passes .text) :
    ∃ text ds, Reading s.arbiter.consumers text ds ∧
      Relayed notes ds s (propagateText host inner s)
        (propagateText host.noting inner' (s.noted notes)) := by
  rcases h.text (cancel host .tree s).outside with ⟨text, htext⟩
  have htext' : host.noting.text (cancel host.noting .tree (s.noted notes)).outside = .ok text := by
    rw [cancel_noted]
    exact htext
  rw [propagateText_eq host inner s hpasses htext,
    propagateText_eq host.noting inner' (s.noted notes) hpasses htext', cancel_noted]
  rcases loadText_noted inner inner' notes (remember none (agreeOn text
    (enter .textToTree (setPending none (cancel host .tree s))))) h text with ⟨ds, hread, hdealt⟩
  exact ⟨text, ds, hread, hdealt.relayed rfl rfl (settle_phase _)⟩

/-- The tree is passed on when its turn has come. -/
theorem propagateTree_relayed (hpasses : s.arbiter.Passes .tree) :
    ∃ nodes ds, s.arbiter.pendingNodes = some nodes ∧ Writing nodes ds ∧
      Relayed notes ds s (propagateTree host inner s)
        (propagateTree host.noting inner' (s.noted notes)) := by
  rcases Option.ne_none_iff_exists'.mp hpasses.2 with ⟨nodes, hnodes⟩
  rw [propagateTree_eq host inner s hpasses hnodes,
    propagateTree_eq host.noting inner' (s.noted notes) hpasses hnodes, cancel_noted]
  rcases writeTree_noted inner inner' notes (remember none (update (fun a => { a with nodes })
    (enter .treeToText (setPending none (cancel host .text s))))) h nodes with
    ⟨ds, hwritten, hdealt⟩
  exact ⟨nodes, ds, hnodes, hwritten, hdealt.relayed rfl rfl (settle_phase _)⟩

/-- A text is restored, as far as that can be done. -/
theorem restore_relayed (text : String) :
    ∃ ds, Restoring s.arbiter.consumers text ds ∧
      Relayed notes ds s (restore host inner text s)
        (restore host.noting inner' text (s.noted notes)) := by
  rcases replace_noted inner inner' notes (agreeOn text (enter .treeToText
    (remember none (cancelAll host s)))) h text with ⟨fault, w, hplain, hnoted⟩
  have hmoved : agreeOn text (enter .treeToText (remember none ((cancelAll host s).noted notes)))
      = noted notes (agreeOn text (enter .treeToText (remember none (cancelAll host s)))) := rfl
  rw [restore, restore, cancelAll_noted, hplain, hmoved, hnoted]
  cases fault with
  | some fault =>
      have hsome : some fault ≠ none := Option.some_ne_none fault
      exact ⟨_, .failed fault, rfl, rfl, rfl,
        iff_of_false hsome fun h => hsome (h _ List.mem_cons_self)⟩
  | none =>
      -- Reading goes on with what remembers nothing: the document has taken the text.
      rcases loadText_noted inner inner' (notes ++ [.replaced text none])
        (enter .textToTree
          ⟨(agreeOn text (enter .treeToText (remember none (cancelAll host s)))).arbiter, w⟩)
        h text with ⟨ds, hread, hdealt⟩
      have hassoc := List.append_assoc notes [.replaced text none] ds
      have hall : Dealt notes (.replaced text none :: ds) (remember none s) _ _ :=
        ⟨hdealt.noted.trans (congrArg (noted · _) hassoc), hdealt.consumers, hdealt.fault⟩
      exact ⟨_, .taken hread, hall.relayed rfl rfl (settle_phase _)⟩

omit h in
variable (host) in
/-- What loading a tree comes to when it can be given ids. -/
theorem loadTree_eq {nodes : Forest} (window : Option Window)
    (hassigned : (Forest.assignIds nodes).fault = none) :
    loadTree host inner nodes window s =
      let t := enter .treeToText (push host inner (Forest.assignIds nodes).nodes
        (loading host (Forest.assignIds nodes).nodes window s))
      settle (writeTree host inner t.arbiter.nodes t) := by
  rw [loadTree]
  simp only [hassigned]
  rfl

/-- A tree that can be given ids is loaded, as far as that can be done. -/
theorem loadTree_relayed {nodes : Forest} (window : Option Window)
    (hassigned : (Forest.assignIds nodes).fault = none) :
    ∃ ds, Loading s.arbiter.consumers (Forest.assignIds nodes).nodes ds ∧
      Relayed notes ds s (loadTree host inner nodes window s)
        (loadTree host.noting inner' nodes window (s.noted notes)) := by
  have hloading : loading host.noting (Forest.assignIds nodes).nodes window (s.noted notes)
      = (loading host (Forest.assignIds nodes).nodes window s).noted notes := by
    rw [loading, cancelAll_noted]
    rfl
  rcases push_noted inner inner' notes (loading host (Forest.assignIds nodes).nodes window s) h
    (Forest.assignIds nodes).nodes with ⟨ds, w, hshown, hpush, hpush'⟩
  rw [loadTree_eq host inner s window hassigned, loadTree_eq host.noting inner' _ window hassigned,
    hloading, hpush, hpush']
  rcases writeTree_noted inner inner' (notes ++ ds) (enter .treeToText
    ⟨{ (loading host (Forest.assignIds nodes).nodes window s).arbiter with
        lastFault := failure none ds }, w⟩) h (Forest.assignIds nodes).nodes with
    ⟨ds', hwritten, hdealt⟩
  have hassoc := List.append_assoc notes ds ds'
  have hall : Dealt notes (ds ++ ds') (remember none s) _ _ :=
    ⟨hdealt.noted.trans (congrArg (noted · _) hassoc), hdealt.consumers,
      hdealt.fault.trans (failure_append _ _ _).symm⟩
  exact ⟨_, .shown hshown hwritten, hall.relayed rfl rfl (settle_phase _)⟩

omit h in
/-- A side whose turn has not come is not passed on. -/
theorem propagate_waits (side : Side) (hpasses : ¬ s.arbiter.Passes side) :
    Dealt notes [] s (propagate host inner side s)
      (propagate host.noting inner' side (s.noted notes)) := by
  have hnil := (List.append_nil notes).symm
  cases side with
  | text =>
      have hturn := Decidable.not_not.mp hpasses
      rw [propagate, propagate, propagateText, propagateText]
      simp only
      rw [noted_arbiter, if_pos hturn, if_pos hturn]
      exact ⟨congrArg (noted · s) hnil, rfl, rfl⟩
  | tree =>
      rw [propagate, propagate, propagateTree, propagateTree]
      simp only
      rw [noted_arbiter, cancel_noted, noted_arbiter]
      by_cases hturn :
          (s.arbiter.textTimer.pending && s.arbiter.treeEvent < s.arbiter.textEvent) = true
      · rw [if_pos hturn, if_pos hturn]
        exact ⟨congrArg (noted · (setPending none s)) hnil, rfl, rfl⟩
      · have hnone : (cancel host .text s).arbiter.pendingNodes = none :=
          Decidable.not_not.mp fun hne => hpasses ⟨hturn, hne⟩
        rw [if_neg hturn, if_neg hturn, hnone]
        exact ⟨congrArg (noted · (cancel host .text s)) hnil, rfl, rfl⟩

theorem propagate_passed (side : Side) :
    ∃ passages, Passed notes passages s (propagate host inner side s)
      (propagate host.noting inner' side (s.noted notes)) := by
  by_cases hpasses : s.arbiter.Passes side
  · cases side with
    | text =>
        rcases propagateText_relayed inner inner' notes s h hpasses with ⟨text, ds, hread, hrelayed⟩
        exact ⟨_, hrelayed.passed (.text text hread)⟩
    | tree =>
        rcases propagateTree_relayed inner inner' notes s h hpasses with
          ⟨nodes, ds, -, hwritten, hrelayed⟩
        exact ⟨_, hrelayed.passed (.tree nodes hwritten)⟩
  · exact ⟨_, (propagate_waits inner inner' notes s side hpasses).passed⟩

/-- A side waits, or it is passed on at once where no timer can be had. -/
theorem schedule_contained (side : Side) :
    ∃ passages, Contained notes passages s.arbiter.consumers (schedule host inner side s)
      (schedule host.noting inner' side (s.noted notes)) := by
  have hconsumers := (cancel_passed host notes s side).consumers
  rw [schedule_eq, schedule_eq, cancel_noted]
  simp only
  cases hafter : host.timers.after ((cancel host side s).arbiter.timer side).delay side
      (cancel host side s).outside with
  | error fault =>
      -- Without a timer the side is passed on at once.
      rcases h.after _ _ _ _ hafter with ⟨reason, rfl⟩
      have hafter' : host.noting.timers.after
          (((cancel host side s).noted notes).arbiter.timer side).delay side
          ((cancel host side s).noted notes).outside = .error (.refused reason) := by
        simp only [Host.noting, noted, hafter, Except.map]
      rw [hafter']
      rcases propagate_passed inner inner' notes (cancel host side s) h side with
        ⟨passages, hpassed⟩
      exact ⟨passages, hconsumers ▸ hpassed.contained⟩
  | ok started =>
      have hafter' : host.noting.timers.after
          (((cancel host side s).noted notes).arbiter.timer side).delay side
          ((cancel host side s).noted notes).outside = .ok (started.1, started.2, notes) := by
        simp only [Host.noting, noted, hafter, Except.map]
      rw [hafter']
      exact ⟨[], contained_quiet rfl⟩

theorem flushSide_passed (side : Side) :
    ∃ passages, Passed notes passages s (flushSide host inner side s)
      (flushSide host.noting inner' side (s.noted notes)) := by
  have hcancelled := cancel_passed host notes s side
  rw [flushSide_eq, flushSide_eq, noted_arbiter]
  by_cases hpending : (s.arbiter.timer side).pending = true
  · rw [if_pos hpending, if_pos hpending, hcancelled.noted]
    rcases propagate_passed inner inner' _ (cancel host side s) h side with ⟨passages, hpassed⟩
    exact ⟨_, hcancelled.trans hpassed⟩
  · rw [if_neg hpending, if_neg hpending]
    exact ⟨_, hcancelled⟩

/-- A timer has gone off on a side, which waits no longer. -/
theorem goOff_passed (side : Side) :
    ∃ passages, Passed notes passages s (goOff host inner side s)
      (goOff host.noting inner' side (s.noted notes)) := by
  rw [goOff_spec, goOff_spec]
  simp only
  -- The side stops waiting first, whether anything comes of it or not.
  generalize hidle : Session.mk (s.arbiter.setTimer (s.arbiter.timer side).idle side) s.outside = t
  have hidle' : Session.mk (s.arbiter.setTimer (s.arbiter.timer side).idle side)
      (s.noted notes).outside = t.noted (notes ++ [].flatten) := by
    rw [← hidle, List.flatten_nil, List.append_nil]
    rfl
  have hstruck : Passed notes [] s t (t.noted (notes ++ [].flatten)) := by
    rw [← hidle]
    cases side with
    | text => exact Dealt.passed ⟨rfl, rfl, rfl⟩
    | tree => exact Dealt.passed ⟨rfl, rfl, rfl⟩
  rw [noted_arbiter, hidle']
  by_cases hpending : (s.arbiter.timer side).pending = true
  · rw [if_pos hpending, if_pos hpending]
    rcases propagate_passed inner inner' _ t h side with ⟨passages, hpassed⟩
    exact ⟨_, hstruck.trans hpassed⟩
  · rw [if_neg hpending, if_neg hpending]
    exact ⟨_, hstruck⟩

theorem flush_passed :
    ∃ passages, Passed notes passages s (flush host inner s)
      (flush host.noting inner' (s.noted notes)) := by
  rcases flushSide_passed inner inner' notes s h .text with ⟨passages, htext⟩
  rcases flushSide_passed inner inner' (notes ++ passages.flatten) (flushSide host inner .text s) h
    .tree with ⟨passages', htree⟩
  rw [flush, flush, htext.noted]
  exact ⟨_, htext.trans htree⟩

theorem acceptText_contained (text : String) :
    ∃ passages, Contained notes passages s.arbiter.consumers (acceptText host inner text s)
      (acceptText host.noting inner' text (s.noted notes)) := by
  rw [acceptText, acceptText, noted_arbiter]
  by_cases hknown : s.arbiter.lastText = some text
  · rw [if_pos hknown, if_pos hknown]
    exact ⟨_, contained_quiet rfl⟩
  · rw [if_neg hknown, if_neg hknown]
    exact schedule_contained inner inner' notes (update (·.count .text) (agreeOn text s)) h .text

theorem acceptTree_contained (nodes : Forest) :
    ∃ passages, Contained notes passages s.arbiter.consumers (acceptTree host inner nodes s)
      (acceptTree host.noting inner' nodes (s.noted notes)) :=
  schedule_contained inner inner' notes (update (·.count .tree) (setPending (some nodes) s)) h .tree

omit h in
/-- A tree that cannot be given ids is not loaded, and nobody is dealt with. -/
theorem loadTree_refused {nodes : Forest} {fault : Fault} (window : Option Window)
    (hassigned : (Forest.assignIds nodes).fault = some fault) :
    loadTree host.noting inner' nodes window (s.noted notes)
        = (loadTree host inner nodes window s).noted notes ∧
      (loadTree host inner nodes window s).arbiter.phase = .idle ∧
      (loadTree host inner nodes window s).arbiter.lastFault = some fault := by
  rw [loadTree, loadTree, cancelAll_noted]
  simp only [hassigned]
  exact ⟨rfl, rfl, rfl⟩

theorem textChanged_contained (told : Option String) :
    ∃ passages, Contained notes passages s.arbiter.consumers (textChanged host inner told s)
      (textChanged host.noting inner' told (s.noted notes)) := by
  have hhears : (s.noted notes).hearsText = s.hearsText := rfl
  have htold : textTold host.noting told (s.noted notes) = textTold host told s := rfl
  rw [textChanged_eq, textChanged_eq, hhears, htold]
  cases s.hearsText with
  | false => exact ⟨_, contained_quiet rfl⟩
  | true =>
      have hread : ∃ text, textTold host told s = .ok text := by
        cases told with
        | some text => exact ⟨text, rfl⟩
        | none => exact h.text s.outside
      rcases hread with ⟨text, hread⟩
      rw [if_pos rfl, if_pos rfl, hread]
      exact acceptText_contained inner inner' notes s h text

/-- A change that cannot be applied is refused, and nobody is dealt with. -/
theorem treeChanged_contained (change : Change) :
    ∃ passages, Contained notes passages s.arbiter.consumers (treeChanged host inner change s)
      (treeChanged host.noting inner' change (s.noted notes)) := by
  have hhears : (s.noted notes).hearsTree = s.hearsTree := rfl
  rw [treeChanged_eq, treeChanged_eq, hhears, noted_arbiter]
  cases s.hearsTree with
  | false => exact ⟨_, contained_quiet rfl⟩
  | true =>
      rw [if_pos rfl, if_pos rfl]
      cases change.apply s.arbiter.base with
      | error fault => exact ⟨_, contained_quiet rfl⟩
      | ok changed => exact acceptTree_contained inner inner' notes s h changed.1

/-- So is a tree that cannot be given ids. -/
theorem treeSent_contained (nodes : Forest) :
    ∃ passages, Contained notes passages s.arbiter.consumers (treeSent host inner nodes s)
      (treeSent host.noting inner' nodes (s.noted notes)) := by
  have hhears : (s.noted notes).hearsTree = s.hearsTree := rfl
  rw [treeSent_eq, treeSent_eq, hhears]
  cases s.hearsTree with
  | false => exact ⟨_, contained_quiet rfl⟩
  | true =>
      rw [if_pos rfl, if_pos rfl]
      cases (Forest.assignIds nodes).fault with
      | some fault => exact ⟨_, contained_quiet rfl⟩
      | none => exact acceptTree_contained inner inner' notes s h (Forest.assignIds nodes).nodes

/-- No failure leaves a call. -/
theorem call_contained [BEq κ] (c : Call κ) :
    ∃ passages, Contained notes passages s.arbiter.consumers (call host inner c s)
      (call host.noting inner' c (s.noted notes)) := by
  cases c with
  | textChanged told => exact textChanged_contained inner inner' notes s h told
  | treeChanged change => exact treeChanged_contained inner inner' notes s h change
  | treeSent nodes => exact treeSent_contained inner inner' notes s h nodes
  | start =>
      rcases h.text (cancelAll host s).outside with ⟨text, htext⟩
      have htext' : host.noting.text ((cancelAll host s).noted notes).outside = .ok text := htext
      rw [call, call, start, start, cancelAll_noted, htext, htext']
      rcases propagate_passed inner inner' notes (update (·.count .text)
        (agreeOn text (cancelAll host s))) h .text with ⟨passages, hpassed⟩
      exact ⟨_, hpassed.contained⟩
  | flush =>
      rcases flush_passed inner inner' notes s h with ⟨passages, hpassed⟩
      exact ⟨_, hpassed.contained⟩
  | loadTree nodes window =>
      cases hassigned : (Forest.assignIds nodes).fault with
      | none =>
          rcases loadTree_relayed inner inner' notes s h window hassigned with ⟨ds, hload, hrelayed⟩
          exact ⟨_, (hrelayed.passed (.loaded _ hload)).contained⟩
      | some fault =>
          exact ⟨_, contained_quiet (loadTree_refused inner inner' notes s window hassigned).1⟩
  | restore text =>
      rcases restore_relayed inner inner' notes s h text with ⟨ds, hrestore, hrelayed⟩
      exact ⟨_, (hrelayed.passed (.restored text hrestore)).contained⟩
  | enable on =>
      cases on with
      | true => exact ⟨_, contained_quiet rfl⟩
      | false =>
          exact ⟨_, contained_quiet
            (cancelAll_noted notes (s.update fun a => { a with enabled := false }))⟩
  | join consumer => exact ⟨_, contained_quiet rfl⟩
  | leave consumer => exact ⟨_, contained_quiet rfl⟩
  | dispose => exact ⟨_, contained_quiet (congrArg (update _) (cancelAll_noted notes s))⟩
  | goOff side =>
      rcases goOff_passed inner inner' notes s h side with ⟨passages, hpassed⟩
      exact ⟨_, hpassed.contained⟩

end Operations

/-- The sessions that there can be, whatever is asked and whatever becomes of the world. -/
inductive Possible [BEq κ] (host : Host δ κ σ) : Session δ κ σ → Prop where
  /-- Nothing has happened yet. -/
  | fresh (window : Window) (delay : δ) (consumers : List κ) (w : σ) :
      Possible host ⟨.fresh window delay consumers, w⟩
  /-- The world has changed. -/
  | turned {s : Session δ κ σ} (w : σ) : Possible host s → Possible host { s with outside := w }
  /-- Something was asked, or a timer went off. -/
  | served {s : Session δ κ σ} (c : Call κ) : Possible host s → Possible host (serve host c s).1

theorem Possible.idle [BEq κ] {host : Host δ κ σ} {s : Session δ κ σ} (h : s.Possible host) :
    s.arbiter.phase = .idle := by
  induction h with
  | fresh window delay consumers w => rfl
  | turned w _ ih => exact ih
  | served c _ ih => exact serve_idle host c ih

/-- What holds of all that an arbiter passes on, with notes and without. -/
structure Weathers (host : Host δ κ σ) (inner : Call κ → Session δ κ σ → Served δ κ σ)
    (inner' : Call κ → Session δ κ (σ × List (Dealing κ)) → Served δ κ (σ × List (Dealing κ)))
    (notes : List (Dealing κ)) (s : Session δ κ σ) : Prop where
  /-- Every consumer is shown the tree once, whoever fails. -/
  push : ∀ nodes, ∃ ds, Showing s.arbiter.consumers nodes ds ∧
    Dealt notes ds s (push host inner nodes s) (push host.noting inner' nodes (s.noted notes))
  /-- The text is passed on when its turn has come. -/
  text : s.arbiter.Passes .text → ∃ text ds, Reading s.arbiter.consumers text ds ∧
    Relayed notes ds s (propagateText host inner s)
      (propagateText host.noting inner' (s.noted notes))
  /-- The tree is passed on when its turn has come. -/
  tree : s.arbiter.Passes .tree → ∃ nodes ds, s.arbiter.pendingNodes = some nodes ∧
    Writing nodes ds ∧ Relayed notes ds s (propagateTree host inner s)
      (propagateTree host.noting inner' (s.noted notes))
  /-- Otherwise nobody is dealt with. -/
  waits : ∀ side, ¬ s.arbiter.Passes side → Dealt notes [] s (propagate host inner side s)
    (propagate host.noting inner' side (s.noted notes))
  /-- A text is restored. -/
  restores : ∀ text, ∃ ds, Restoring s.arbiter.consumers text ds ∧
    Relayed notes ds s (restore host inner text s)
      (restore host.noting inner' text (s.noted notes))
  /-- A tree that can be given ids is loaded. -/
  loads : ∀ nodes window, (Forest.assignIds nodes).fault = none →
    ∃ ds, Loading s.arbiter.consumers (Forest.assignIds nodes).nodes ds ∧
      Relayed notes ds s (loadTree host inner nodes window s)
        (loadTree host.noting inner' nodes window (s.noted notes))
  /-- For any other tree nobody is dealt with, and its failure is remembered. -/
  refuses : ∀ nodes window fault, (Forest.assignIds nodes).fault = some fault →
    loadTree host.noting inner' nodes window (s.noted notes)
        = (loadTree host inner nodes window s).noted notes ∧
      (loadTree host inner nodes window s).arbiter.phase = .idle ∧
      (loadTree host inner nodes window s).arbiter.lastFault = some fault

/-- Whoever fails, and whenever: no failure leaves a call and the arbiter is idle after it,
    every consumer is shown every tree once, and after anything is passed on no failure is
    remembered just if there was none. -/
theorem failures_contained [BEq κ] {host : Host δ κ σ} (h : host.Aloof) {s : Session δ κ σ}
    (hs : s.Possible host) (notes : List (Dealing κ)) :
    (∀ c, (serve host c s).1.arbiter.phase = .idle ∧
      ∃ passages, Contained notes passages s.arbiter.consumers (serve host c s)
        (serve host.noting c (s.noted notes))) ∧
    ∀ inner inner' (t : Session δ κ σ), Weathers host inner inner' notes t := by
  refine ⟨fun c => ⟨serve_idle host c hs.idle, call_contained _ _ notes s h c⟩,
    fun inner inner' t => ?_⟩
  exact
    { push := push_dealt inner inner' notes t h
      text := propagateText_relayed inner inner' notes t h
      tree := propagateTree_relayed inner inner' notes t h
      waits := propagate_waits inner inner' notes t
      restores := restore_relayed inner inner' notes t h
      loads := fun _ window => loadTree_relayed inner inner' notes t h window
      refuses := fun _ window _ => loadTree_refused inner inner' notes t window }

/-- How a collaborator fares that is the next to be asked. -/
def trouble (asked : Nat) : Option Fault :=
  if asked % 3 = 1 then some (.unavailable "document closed") else none

/-- Collaborators that fail every third time, and timers that cannot be had. The world counts
    how often they were asked. -/
def fitful : Host Unit String Nat where
  text _ := .ok ""
  replace _ _ asked := { outside := asked + 1, fault := trouble asked }
  consume _ _ _ asked := { outside := asked + 1, fault := trouble asked }
  read _ asked :=
    match trouble asked with
    | some fault => (.error fault, asked + 1)
    | none => (.ok ⟨.usual {}, []⟩, asked + 1)
  write _ asked :=
    match trouble asked with
    | some fault => (.error fault, asked + 1)
    | none => (.ok "", asked + 1)
  timers :=
    { after := fun _ _ _ => .error (.refused "no running event loop")
      cancel := fun _ asked => asked }

theorem fitful_aloof : fitful.Aloof where
  text _ := ⟨_, rfl⟩
  replace _ _ _ := rfl
  consume _ _ _ _ := rfl
  after _ _ _ _ h := ⟨_, (Except.error.inj h).symm⟩

/-- The text has been passed on, and the first of two consumers has failed. -/
def canvasFailed : Session Unit String Nat :=
  (serve fitful .start ⟨.fresh (.usual {}) () ["canvas", "outline"], 0⟩).1

/-- A tree is loaded. The second consumer fails, after the first one has been shown the tree. -/
theorem canvasFailed_contained :
    fitful.Aloof ∧ canvasFailed.Possible fitful ∧
      canvasFailed.arbiter.lastFault = some (.unavailable "document closed") ∧
      (serve fitful (.loadTree [] none) canvasFailed).1.arbiter.phase = .idle ∧
      ((serve fitful.noting (.loadTree [] none) (canvasFailed.noted [])).1.outside.2.filterMap
        Dealing.showing?).map Prod.fst = ["canvas", "outline"] ∧
      (serve fitful (.loadTree [] none) canvasFailed).1.arbiter.lastFault
        = some (.unavailable "document closed") ∧
      ∃ passages, Contained [] passages ["canvas", "outline"]
        (serve fitful (.loadTree [] none) canvasFailed)
        (serve fitful.noting (.loadTree [] none) (canvasFailed.noted [])) := by
  have hpossible : canvasFailed.Possible fitful := .served .start (.fresh _ _ _ _)
  rcases (failures_contained fitful_aloof hpossible []).1 (.loadTree [] none) with
    ⟨hidle, hcontained⟩
  exact ⟨fitful_aloof, hpossible, rfl, hidle, rfl, rfl, hcontained⟩

end Session

end WidgetSync
