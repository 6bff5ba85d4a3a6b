import WidgetSync.Proofs.Agreement
import WidgetSync.Proofs.News

/-!
# Refused Changes

What remains of a change of the tree that cannot be applied.

A change that cannot be applied leaves the arbiter as it was, except that the
failure is remembered. The arbiter itself never looks at the failure that it
remembers, and it forgets it before it passes anything on, so collaborators never
see it either. Hence nothing that happens later depends on whether the change was
ever sent. `Impartial` says this of one operation: started with another failure in
memory, it ends with another failure in memory, and nothing else differs. `Unmoved`
is the same for operations that do not fail.

A whole tree that cannot be given ids is not refused in this way. It is kept, as far
as ids were given, in the place of the tree that waits, and the next change is
folded into it. `refused_tree_edited` is a run in which that comes to light.

## Main definitions

* `Session.Impartial`, `Session.Unmoved`: An operation does not depend on the failure
  in memory.
* `Session.serveEach`: A run of calls.

## Theorems

* `Session.propagate_unmoved`: Passing a side on does not depend on it.
* `Session.call_impartial`: Neither does any call.
* `Session.serveEach_unmoved`: Neither does any run of calls.
* `Session.refused_change_forgotten`: What a refused change leaves behind.
-/

namespace WidgetSync

variable {δ κ σ : Type}

namespace Session

/-- Started with another failure in memory, the operation ends with another failure
    in memory, and nothing else differs. -/
def Impartial (op : Session δ κ σ → Served δ κ σ) : Prop :=
  ∀ (s : Session δ κ σ) (fault : Option Fault),
    ∃ later, op (s.remember fault) = ((op s).1.remember later, (op s).2)

/-- The same for an operation that does not fail. -/
def Unmoved (op : Session δ κ σ → Session δ κ σ) : Prop :=
  ∀ (s : Session δ κ σ) (fault : Option Fault),
    ∃ later, op (s.remember fault) = (op s).remember later

theorem Unmoved.comp {f g : Session δ κ σ → Session δ κ σ} (hf : Unmoved f) (hg : Unmoved g) :
    Unmoved fun s => g (f s) := by
  intro s fault
  rcases hf s fault with ⟨between, hbetween⟩
  rcases hg (f s) between with ⟨later, hlater⟩
  exact ⟨later, (congrArg g hbetween).trans hlater⟩

theorem Unmoved.served {f : Session δ κ σ → Session δ κ σ} (hf : Unmoved f) :
    Impartial fun s => (f s, none) := by
  intro s fault
  rcases hf s fault with ⟨later, hlater⟩
  exact ⟨later, congrArg (fun t => (t, none)) hlater⟩

theorem Impartial.after {f : Session δ κ σ → Session δ κ σ} {g : Session δ κ σ → Served δ κ σ}
    (hf : Unmoved f) (hg : Impartial g) : Impartial fun s => g (f s) := by
  intro s fault
  rcases hf s fault with ⟨between, hbetween⟩
  rcases hg (f s) between with ⟨later, hlater⟩
  exact ⟨later, (congrArg g hbetween).trans hlater⟩

/-- Changing the arbiter in a way that has nothing to do with the failure. -/
theorem update_unmoved {f : Arbiter δ κ → Arbiter δ κ}
    (hf : ∀ a fault, f { a with lastFault := fault } = { f a with lastFault := fault }) :
    Unmoved (σ := σ) (update f) := by
  intro s fault
  refine ⟨fault, ?_⟩
  rw [remember, update, update, hf]
  rfl

variable (host : Host δ κ σ)

theorem cancel_unmoved (side : Side) : Unmoved (cancel host side) := by
  intro s fault
  cases side with
  | text => exact ⟨fault, rfl⟩
  | tree => exact ⟨fault, rfl⟩

theorem cancelAll_unmoved : Unmoved (cancelAll host) :=
  ((cancel_unmoved host .text).comp (cancel_unmoved host .tree)).comp
    (update_unmoved fun _ _ => rfl)

variable (inner : Call κ → Session δ κ σ → Served δ κ σ)

/-- Passing the text on forgets the failure before anybody is called. -/
theorem propagateText_unmoved : Unmoved (propagateText host inner) := by
  intro s fault
  have hnewer : ((s.remember fault).arbiter.treeTimer.pending
      && (s.remember fault).arbiter.textEvent < (s.remember fault).arbiter.treeEvent)
      = (s.arbiter.treeTimer.pending && s.arbiter.textEvent < s.arbiter.treeEvent) := rfl
  rw [propagateText, propagateText, hnewer]
  by_cases hsuperseded :
      (s.arbiter.treeTimer.pending && s.arbiter.textEvent < s.arbiter.treeEvent) = true
  · rw [if_pos hsuperseded, if_pos hsuperseded]
    exact ⟨fault, rfl⟩
  · rw [if_neg hsuperseded, if_neg hsuperseded]
    have hentered : (setPending none (cancel host .tree (s.remember fault))).enter .textToTree
        = ((setPending none (cancel host .tree s)).enter .textToTree).remember fault := rfl
    rw [hentered]
    generalize (setPending none (cancel host .tree s)).enter .textToTree = t
    have htext : host.text (t.remember fault).outside = host.text t.outside := rfl
    simp only [htext]
    cases host.text t.outside with
    | error failed => exact ⟨some failed, rfl⟩
    | ok text => exact ⟨_, rfl⟩

/-- So does passing the tree on, if there is one. -/
theorem propagateTree_unmoved : Unmoved (propagateTree host inner) := by
  intro s fault
  have hnewer : ((s.remember fault).arbiter.textTimer.pending
      && (s.remember fault).arbiter.treeEvent < (s.remember fault).arbiter.textEvent)
      = (s.arbiter.textTimer.pending && s.arbiter.treeEvent < s.arbiter.textEvent) := rfl
  rw [propagateTree, propagateTree, hnewer]
  by_cases hsuperseded :
      (s.arbiter.textTimer.pending && s.arbiter.treeEvent < s.arbiter.textEvent) = true
  · rw [if_pos hsuperseded, if_pos hsuperseded]
    exact ⟨fault, rfl⟩
  · rw [if_neg hsuperseded, if_neg hsuperseded]
    have hcancelled : cancel host .text (s.remember fault) = (cancel host .text s).remember fault :=
      rfl
    have hwaits : ((cancel host .text s).remember fault).arbiter.pendingNodes
        = (cancel host .text s).arbiter.pendingNodes := rfl
    simp only [hcancelled, hwaits]
    cases (cancel host .text s).arbiter.pendingNodes with
    | none => exact ⟨fault, rfl⟩
    | some nodes => exact ⟨_, rfl⟩

/-- Passing a side on does not depend on the failure in memory. -/
theorem propagate_unmoved (side : Side) : Unmoved (propagate host inner side) := by
  cases side with
  | text => exact propagateText_unmoved host inner
  | tree => exact propagateTree_unmoved host inner

theorem timer_remember (side : Side) (s : Session δ κ σ) (fault : Option Fault) :
    (s.remember fault).arbiter.timer side = s.arbiter.timer side := by
  cases side with
  | text => rfl
  | tree => rfl

theorem setTimer_remember (side : Side) (s : Session δ κ σ) (fault : Option Fault)
    (d : Debouncer δ Unit) (w : σ) :
    (⟨(s.remember fault).arbiter.setTimer d side, w⟩ : Session δ κ σ)
      = Session.remember fault ⟨s.arbiter.setTimer d side, w⟩ := by
  cases side with
  | text => rfl
  | tree => rfl

theorem schedule_impartial (side : Side) : Impartial (schedule host inner side) := by
  intro s fault
  have houtside : (s.remember fault).outside = s.outside := rfl
  rw [schedule, schedule, timer_remember, houtside]
  rcases (s.arbiter.timer side).schedule host.timers side () s.outside with ⟨⟨d, w⟩, refused⟩
  simp only [setTimer_remember]
  cases refused with
  | none => exact ⟨fault, rfl⟩
  | some failed =>
      cases failed with
      | refused message =>
          exact (propagate_unmoved host inner side).served ⟨s.arbiter.setTimer d side, w⟩ fault
      | _ => exact ⟨fault, rfl⟩

theorem flushSide_unmoved (side : Side) : Unmoved (flushSide host inner side) := by
  intro s fault
  have houtside : (s.remember fault).outside = s.outside := rfl
  rw [flushSide, flushSide, timer_remember, houtside]
  rcases (s.arbiter.timer side).flush host.timers s.outside with ⟨⟨d, w⟩, waiting⟩
  simp only [setTimer_remember]
  cases waiting with
  | none => exact ⟨fault, rfl⟩
  | some _ => exact propagate_unmoved host inner side ⟨s.arbiter.setTimer d side, w⟩ fault

theorem goOff_unmoved (side : Side) : Unmoved (goOff host inner side) := by
  intro s fault
  have hset : ∀ d : Debouncer δ Unit, (s.remember fault).update (fun a => a.setTimer d side)
      = (s.update fun a => a.setTimer d side).remember fault :=
    fun d => setTimer_remember side s fault d s.outside
  rw [goOff, goOff, timer_remember]
  rcases (s.arbiter.timer side).goOff with ⟨d, waiting⟩
  simp only [hset]
  cases waiting with
  | none => exact ⟨fault, rfl⟩
  | some _ => exact propagate_unmoved host inner side _ fault

theorem acceptText_impartial (text : String) : Impartial (acceptText host inner text) := by
  intro s fault
  have hknown : (s.remember fault).arbiter.lastText = s.arbiter.lastText := rfl
  rw [acceptText, acceptText, hknown]
  by_cases hsame : s.arbiter.lastText = some text
  · rw [if_pos hsame, if_pos hsame]
    exact ⟨fault, rfl⟩
  · rw [if_neg hsame, if_neg hsame]
    exact schedule_impartial host inner .text (update (·.count .text) (agreeOn text s)) fault

theorem acceptTree_impartial (nodes : Forest) : Impartial (acceptTree host inner nodes) := by
  intro s fault
  exact schedule_impartial host inner .tree (update (·.count .tree) (setPending (some nodes) s))
    fault

theorem textChanged_impartial (told : Option String) : Impartial (textChanged host inner told) := by
  intro s fault
  have hears : (s.remember fault).hearsText = s.hearsText := rfl
  have htold : textTold host told (s.remember fault) = textTold host told s := rfl
  rw [textChanged_eq, textChanged_eq, hears, htold]
  cases s.hearsText with
  | false => exact ⟨fault, rfl⟩
  | true =>
      cases textTold host told s with
      | error failed => exact ⟨fault, rfl⟩
      | ok text => exact acceptText_impartial host inner text s fault

theorem treeChanged_impartial (change : Change) : Impartial (treeChanged host inner change) := by
  intro s fault
  have hears : (s.remember fault).hearsTree = s.hearsTree := rfl
  have hbase : (s.remember fault).arbiter.base = s.arbiter.base := rfl
  rw [treeChanged_eq, treeChanged_eq, hears, hbase]
  cases s.hearsTree with
  | false => exact ⟨fault, rfl⟩
  | true =>
      cases change.apply s.arbiter.base with
      | error failed => exact ⟨some failed, rfl⟩
      | ok applied => exact acceptTree_impartial host inner applied.1 s fault

theorem treeSent_impartial (nodes : Forest) : Impartial (treeSent host inner nodes) := by
  intro s fault
  have hears : (s.remember fault).hearsTree = s.hearsTree := rfl
  rw [treeSent_eq, treeSent_eq, hears]
  cases s.hearsTree with
  | false => exact ⟨fault, rfl⟩
  | true =>
      cases (Forest.assignIds nodes).fault with
      | some failed => exact ⟨some failed, rfl⟩
      | none => exact acceptTree_impartial host inner _ s fault

theorem start_impartial : Impartial (start host inner) := by
  intro s fault
  rcases cancelAll_unmoved host s fault with ⟨later, hcancelled⟩
  have htext : host.text ((cancelAll host s).remember later).outside
      = host.text (cancelAll host s).outside := rfl
  simp only [start, hcancelled, htext]
  cases host.text (cancelAll host s).outside with
  | error failed => exact ⟨later, rfl⟩
  | ok text =>
      exact (propagateText_unmoved host inner).served
        (update (·.count .text) (agreeOn text (cancelAll host s))) later

theorem flush_unmoved : Unmoved (flush host inner) :=
  (flushSide_unmoved host inner .text).comp (flushSide_unmoved host inner .tree)

-- Both sides are replaced, and the failure is forgotten first.
theorem loadTree_unmoved (nodes : Forest) (window : Option Window) :
    Unmoved (loadTree host inner nodes window) := by
  intro s fault
  rcases cancelAll_unmoved host s fault with ⟨later, hcancelled⟩
  have hforgotten : ((cancelAll host s).remember later).remember none
      = (cancelAll host s).remember none := rfl
  rw [loadTree, hcancelled, hforgotten]
  exact ⟨_, rfl⟩

theorem restore_unmoved (text : String) : Unmoved (restore host inner text) := by
  intro s fault
  rcases cancelAll_unmoved host s fault with ⟨later, hcancelled⟩
  have hforgotten : ((cancelAll host s).remember later).remember none
      = (cancelAll host s).remember none := rfl
  rw [restore, hcancelled, hforgotten]
  exact ⟨_, rfl⟩

theorem enable_unmoved (on : Bool) : Unmoved (enable host on) := by
  have hset : Unmoved (σ := σ) (κ := κ) (δ := δ) (update fun a => { a with enabled := on }) :=
    update_unmoved fun _ _ => rfl
  cases on with
  | true => exact hset
  | false => exact hset.comp (cancelAll_unmoved host)

theorem dispose_unmoved : Unmoved (dispose host) :=
  (cancelAll_unmoved host).comp (update_unmoved fun _ _ => rfl)

section Calls

variable [BEq κ]

theorem join_unmoved (consumer : κ) : Unmoved (σ := σ) (δ := δ) (join consumer) := by
  refine update_unmoved fun a fault => ?_
  by_cases hmember : a.consumers.contains consumer = true
  · rw [if_pos hmember, if_pos hmember]
  · rw [if_neg hmember, if_neg hmember]

/-- No call depends on the failure in memory. -/
theorem call_impartial (c : Call κ) : Impartial (call host inner c) := by
  cases c with
  | textChanged text => exact textChanged_impartial host inner text
  | treeChanged change => exact treeChanged_impartial host inner change
  | treeSent nodes => exact treeSent_impartial host inner nodes
  | start => exact start_impartial host inner
  | flush => exact (flush_unmoved host inner).served
  | loadTree nodes window => exact (loadTree_unmoved host inner nodes window).served
  | restore text => exact (restore_unmoved host inner text).served
  | enable on => exact (enable_unmoved host on).served
  | join consumer => exact (join_unmoved consumer).served
  | leave consumer => exact (update_unmoved fun _ _ => rfl : Unmoved (leave consumer)).served
  | dispose => exact (dispose_unmoved host).served
  | goOff side => exact (goOff_unmoved host inner side).served

/-- The session after some calls, one after the other, whether they fail or not. -/
def serveEach (calls : List (Call κ)) (s : Session δ κ σ) : Session δ κ σ :=
  calls.foldl (fun s c => (serve host c s).1) s

/-- Neither does a run of calls. -/
theorem serveEach_unmoved (calls : List (Call κ)) : Unmoved (serveEach host calls) := by
  induction calls with
  | nil => exact fun _ fault => ⟨fault, rfl⟩
  | cons c calls ih =>
      intro s fault
      rcases call_impartial host (serveWithin host 199) c s fault with ⟨between, hbetween⟩
      rcases ih (serve host c s).1 between with ⟨later, hlater⟩
      refine ⟨later, ?_⟩
      have hserved : (serve host c (s.remember fault)).1 = (serve host c s).1.remember between :=
        congrArg Prod.fst hbetween
      rw [serveEach, List.foldl_cons, hserved]
      exact hlater

/-- A change that cannot be applied leaves the arbiter and the world as they were but for
    the failure that is remembered, and whatever is called next ends as if the change had
    never been sent. A whole tree that cannot be given ids takes the place of the tree
    that waits, as far as ids were given, and whatever is called next ends as if that
    tree had waited before. -/
theorem refused_change_forgotten (s : Session δ κ σ) :
    (∀ (change : Change) (fault : Fault), change.apply s.arbiter.base = .error fault →
      call host inner (.treeChanged change) s
          = (if s.hearsTree then s.remember (some fault) else s, none) ∧
        ∀ calls, ∃ later, serveEach host calls (call host inner (.treeChanged change) s).1
          = (serveEach host calls s).remember later) ∧
    ∀ (nodes : Forest) (fault : Fault), (Forest.assignIds nodes).fault = some fault →
      let usurped :=
        if s.hearsTree then setPending (some (Forest.assignIds nodes).nodes) s else s
      call host inner (.treeSent nodes) s
          = (if s.hearsTree then usurped.remember (some fault) else s, none) ∧
        ∀ calls, ∃ later, serveEach host calls (call host inner (.treeSent nodes) s).1
          = (serveEach host calls usurped).remember later := by
  have hsame : ∀ (calls : List (Call κ)) (t : Session δ κ σ),
      ∃ later, serveEach host calls t = (serveEach host calls t).remember later :=
    fun _ _ => ⟨_, rfl⟩
  refine ⟨fun change fault hrefused => ?_, fun nodes fault hrefused => ?_⟩
  · have hserved : call host inner (.treeChanged change) s
        = (if s.hearsTree then s.remember (some fault) else s, none) := by
      rw [call, treeChanged_eq, hrefused]
      split
      · rfl
      · rfl
    refine ⟨hserved, fun calls => ?_⟩
    rw [hserved]
    by_cases hears : s.hearsTree = true
    · simp only [if_pos hears]
      exact serveEach_unmoved host calls s (some fault)
    · simp only [if_neg hears]
      exact hsame calls s
  · intro usurped
    have hserved : call host inner (.treeSent nodes) s
        = (if s.hearsTree then usurped.remember (some fault) else s, none) := by
      rw [call, treeSent_eq, hrefused]
      by_cases hears : s.hearsTree = true
      · simp only [usurped, if_pos hears]
      · simp only [if_neg hears]
    refine ⟨hserved, fun calls => ?_⟩
    rw [hserved]
    by_cases hears : s.hearsTree = true
    · simp only [if_pos hears]
      exact serveEach_unmoved host calls usurped (some fault)
    · simp only [usurped, if_neg hears]
      exact hsame calls s

end Calls

/-- A desk where a button has been moved and the move still waits. -/
def movedButton : Session Unit String Desk where
  arbiter :=
    { Arbiter.fresh (.usual {}) () ["canvas"] with
      nodes := [{ type := .text "Button", id := .text "a" }]
      pendingNodes := some [{ type := .text "Button", id := .text "a", x := .int 5 }]
      events := 1, treeEvent := 1, treeTimer := { delay := (), waiting := some (0, ()) } }
  outside := { text := "Button { id: a }", next := 1 }

/-- A move without a place is forgotten there; a tree of something without a type is not. -/
theorem movedButton_kept :
    (Change.move (.text "a") none none).apply movedButton.arbiter.base = .error (.missing "x") ∧
      call Desk.forms (serveWithin Desk.forms 199) (.treeChanged (.move (.text "a") none none))
          movedButton = (movedButton.remember (some (.missing "x")), none) ∧
      (∀ calls, ∃ later, serveEach Desk.forms calls (call Desk.forms (serveWithin Desk.forms 199)
          (.treeChanged (.move (.text "a") none none)) movedButton).1
        = (serveEach Desk.forms calls movedButton).remember later) ∧
      (Forest.assignIds [{ type := .int 5 }]).fault = some .lacking ∧
      call Desk.forms (serveWithin Desk.forms 199) (.treeSent [{ type := .int 5 }]) movedButton
        = ((setPending (some (Forest.assignIds [{ type := .int 5 }]).nodes) movedButton).remember
            (some .lacking), none) := by
  have hmove : (Change.move (.text "a") none none).apply movedButton.arbiter.base
      = .error (.missing "x") := rfl
  have htree : (Forest.assignIds [{ type := .int 5 }]).fault = some .lacking := rfl
  have hforgotten := refused_change_forgotten Desk.forms (serveWithin Desk.forms 199) movedButton
  have hchange := hforgotten.1 _ _ hmove
  exact ⟨hmove, hchange.1, hchange.2, htree, (hforgotten.2 _ _ htree).1⟩

/-- Nothing waits, a tree is refused, and the button is moved. The move is folded into the
    refused tree, and what is written in the end is that tree, not the button. -/
theorem refused_tree_edited :
    let s := started Desk.forms (.usual {}) () [] { text := "Button { id: a }" }
    let refused := (serve Desk.forms (.treeSent [{ type := .int 5 }]) s).1
    let moved := serveEach Desk.forms
      [.treeChanged (.move (.text "a") (some (.int 5)) (some (.int 6))), .goOff .tree]
    (Forest.assignIds [{ type := .int 5 }]).fault = some .lacking ∧
      s.arbiter.pendingNodes.isSome = false ∧ refused.arbiter.pendingNodes.isSome = true ∧
      (moved s).arbiter.nodes.map (·.type.asText?) = [some "Button"] ∧
      (moved refused).arbiter.nodes.map (·.type.asText?) = [none] := by
  decide +kernel

end Session

end WidgetSync
