import WidgetSync.Proofs.Clocks
import WidgetSync.Proofs.Ids

/-!
# Replacing Both Sides

What restoring a text and loading a tree do, in whatever state the arbiter is.

Both cancel what waits, and then deal with the document and with the consumers, one
after the other, each in the phase in which what these call back does not count. A
consumer may fail after that, which is remembered and changes nothing else.

What is delivered is written in a log: the texts that the document was given, and the
trees that the consumers were shown, all in order. So that every consumer has been
shown the tree once is an equation between logs. A consumer that was named twice at the
beginning stands in the list twice, and counts as two.

Timers that were running before are those for which the arbiter waited. None of them ever
goes off, whatever happens later: each timer that does has a number that was still to be had.

## Main definitions

* `Log`: What the world has been told, and what stands in the document.
* `Host.Takes`, `Host.Tells`: The document and the format work, the consumers listen.
* `Session.Replaced`: Both sides have become a document, and nothing else goes on.
* `Session.Forgets`: Nothing is left of earlier timers.
* `Bench`: A document, consumers and an exact clock, to show what the theorems say.

## Theorems

* `Session.push_told`: Every consumer is shown the tree once.
* `Session.writeTree_given`: A tree is written once.
* `Session.restore_replaced`, `Session.loadTree_replaced`: What the two operations do.
* `Session.Wound.forgets`: Earlier timers do not go off.
* `Session.both_sides_replaced`: All of this, for every state that can be reached.
-/

namespace WidgetSync

variable {δ κ σ : Type}

/-- What has been delivered in a world. -/
structure Log (κ σ : Type) where
  /-- The collaborators work. -/
  works : σ → Prop
  /-- The text of the document. -/
  text : σ → String
  /-- The texts that the document was given, in order. -/
  given : σ → List String
  /-- The trees that consumers were shown, in order. -/
  shown : σ → List (κ × Forest)

namespace Log

/-- Nothing was delivered between two worlds. -/
structure Same (log : Log κ σ) (before after : σ) : Prop where
  works : log.works after
  text : log.text after = log.text before
  given : log.given after = log.given before
  shown : log.shown after = log.shown before

/-- A text was given to the document, once. -/
structure Given (log : Log κ σ) (text : String) (before after : σ) : Prop where
  works : log.works after
  holds : log.text after = text
  given : log.given after = log.given before ++ [text]
  shown : log.shown after = log.shown before

/-- Trees were shown to consumers, in order. -/
structure Told (log : Log κ σ) (trees : List (κ × Forest)) (before after : σ) : Prop where
  works : log.works after
  text : log.text after = log.text before
  given : log.given after = log.given before
  shown : log.shown after = log.shown before ++ trees

variable {log : Log κ σ} {w w' w'' : σ}

theorem Same.refl (h : log.works w) : log.Same w w :=
  ⟨h, rfl, rfl, rfl⟩

theorem Same.trans (h : log.Same w w') (h' : log.Same w' w'') : log.Same w w'' :=
  ⟨h'.works, h'.text.trans h.text, h'.given.trans h.given, h'.shown.trans h.shown⟩

theorem Same.give {text : String} (h : log.Same w w') (h' : log.Given text w' w'') :
    log.Given text w w'' :=
  ⟨h'.works, h'.holds, h.given ▸ h'.given, h'.shown.trans h.shown⟩

theorem Same.tell {trees : List (κ × Forest)} (h : log.Same w w') (h' : log.Told trees w' w'') :
    log.Told trees w w'' :=
  ⟨h'.works, h'.text.trans h.text, h'.given.trans h.given, h.shown ▸ h'.shown⟩

theorem Told.nil (h : log.works w) : log.Told [] w w :=
  ⟨h, rfl, rfl, (List.append_nil _).symm⟩

theorem Told.trans {trees trees' : List (κ × Forest)} (h : log.Told trees w w')
    (h' : log.Told trees' w' w'') : log.Told (trees ++ trees') w w'' :=
  ⟨h'.works, h'.text.trans h.text, h'.given.trans h.given,
    by rw [h'.shown, h.shown, List.append_assoc]⟩

end Log

/-- A document that takes texts, perhaps with an echo, and a format that writes. -/
structure Host.Takes (host : Host δ κ σ) (log : Log κ σ)
    (write : Document → Except Fault String) : Prop where
  /-- The document takes a text and does no more than tell so. -/
  replace : ∀ arbiter text w, log.works w →
    (host.replace arbiter text w).fault = none ∧
    log.Given text w (host.replace arbiter text w).outside ∧
    ∀ c ∈ (host.replace arbiter text w).calls, ∃ echo, c = .textChanged echo
  /-- Documents are written, or they cannot be. -/
  write : ∀ d w, log.works w → (host.write d w).1 = write d ∧ log.Same w (host.write d w).2
  /-- Timers can be cancelled. -/
  cancel : ∀ number w, log.works w → log.Same w (host.timers.cancel number w)

/-- Consumers that listen, and may fail after that, and a format that reads. -/
structure Host.Tells (host : Host δ κ σ) (log : Log κ σ)
    (read : String → Except Fault Document) : Prop where
  /-- A consumer is shown a tree and does no more than change it. -/
  consume : ∀ consumer arbiter nodes w, log.works w →
    log.Told [(consumer, nodes)] w (host.consume consumer arbiter nodes w).outside ∧
    ∀ c ∈ (host.consume consumer arbiter nodes w).calls,
      (∃ change, c = .treeChanged change) ∨ ∃ sent, c = .treeSent sent
  /-- Texts are read, or they cannot be. -/
  read : ∀ text w, log.works w → (host.read text w).1 = read text ∧ log.Same w (host.read text w).2

namespace Session

variable {host : Host δ κ σ} {log : Log κ σ} {write : Document → Except Fault String}
  {read : String → Except Fault Document} {inner : Call κ → Session δ κ σ → Served δ κ σ}
  {s : Session δ κ σ}

theorem same_cancel (h : host.Takes log write) (side : Side) (hs : log.works s.outside) :
    log.Same s.outside (cancel host side s).outside := by
  rw [cancel, Debouncer.cancel]
  cases (s.arbiter.timer side).waiting with
  | none => exact .refl hs
  | some waiting => exact h.cancel waiting.1 s.outside hs

theorem same_cancelAll (h : host.Takes log write) (hs : log.works s.outside) :
    log.Same s.outside (cancelAll host s).outside :=
  have htext := same_cancel h .text hs
  htext.trans (same_cancel h .tree htext.works)

/-- Nothing waits any longer, and nothing else changes in the arbiter. -/
theorem cancelAll_arbiter (host : Host δ κ σ) (s : Session δ κ σ) :
    (cancelAll host s).arbiter =
      { s.arbiter with
        textTimer := s.arbiter.textTimer.idle, treeTimer := s.arbiter.treeTimer.idle
        pendingNodes := none } := by
  simp only [cancelAll, cancel, Arbiter.timer, Arbiter.setTimer, Debouncer.cancel_fst, setPending,
    update]

/-- A consumer is shown a tree once, and may fail. -/
theorem showTo_told (h : host.Tells log read) (hinner : Echoes inner) (nodes : Forest)
    (consumer : κ) (hs : log.works s.outside) (hphase : s.arbiter.phase = .textToTree) :
    ∃ fault w, showTo host inner nodes s consumer = ⟨{ s.arbiter with lastFault := fault }, w⟩ ∧
      log.Told [(consumer, nodes)] s.outside w := by
  rcases h.consume consumer s.arbiter nodes s.outside hs with ⟨htold, hcalls⟩
  rw [showTo, react_of_forall fun c hc => by
    rcases hcalls c hc with ⟨change, rfl⟩ | ⟨sent, rfl⟩
    · exact hinner.change _ change hphase
    · exact hinner.sent _ sent hphase]
  cases (host.consume consumer s.arbiter nodes s.outside).fault with
  | none => exact ⟨_, _, rfl, htold⟩
  | some fault => exact ⟨_, _, rfl, htold⟩

theorem foldl_showTo_told (h : host.Tells log read) (hinner : Echoes inner) (nodes : Forest)
    (consumers : List κ) (hs : log.works s.outside) (hphase : s.arbiter.phase = .textToTree) :
    ∃ fault w, consumers.foldl (showTo host inner nodes) s
        = ⟨{ s.arbiter with lastFault := fault }, w⟩ ∧
      log.Told (consumers.map (·, nodes)) s.outside w := by
  induction consumers generalizing s with
  | nil => exact ⟨_, _, rfl, .nil hs⟩
  | cons consumer consumers ih =>
      rcases showTo_told h hinner nodes consumer hs hphase with ⟨failed, w, hshow, htold⟩
      rcases ih (s := ⟨{ s.arbiter with lastFault := failed }, w⟩) htold.works hphase with
        ⟨fault, w', hshow', htold'⟩
      refine ⟨fault, w', ?_, htold.trans htold'⟩
      rw [List.foldl_cons, hshow, hshow']

/-- Every consumer is shown the tree once, in order. -/
theorem push_told (h : host.Tells log read) (hinner : Echoes inner) (nodes : Forest)
    (hs : log.works s.outside) (hphase : s.arbiter.phase = .textToTree) :
    ∃ fault w, push host inner nodes s = ⟨{ s.arbiter with lastFault := fault }, w⟩ ∧
      log.Told (s.arbiter.consumers.map (·, nodes)) s.outside w :=
  foldl_showTo_told h hinner nodes s.arbiter.consumers hs hphase

/-- A text that can be read is the current document, and its tree is shown. -/
theorem loadText_told (h : host.Tells log read) (hinner : Echoes inner) {text : String}
    {d : Document} (hread : read text = .ok d) (hs : log.works s.outside)
    (hphase : s.arbiter.phase = .textToTree) :
    ∃ fault w, loadText host inner text s =
        (⟨{ s.arbiter with nodes := d.nodes, window := d.window, lastFault := fault }, w⟩, none) ∧
      log.Told (s.arbiter.consumers.map (·, d.nodes)) s.outside w := by
  rcases h.read text s.outside hs with ⟨hanswer, hsame⟩
  rcases push_told h hinner d.nodes
    (s := ⟨{ s.arbiter with nodes := d.nodes, window := d.window }, (host.read text s.outside).2⟩)
    hsame.works hphase with ⟨fault, w, hpush, htold⟩
  refine ⟨fault, w, ?_, hsame.tell htold⟩
  rw [loadText, show host.read text s.outside = (.ok d, (host.read text s.outside).2)
    from Prod.ext (hanswer.trans hread) rfl]
  exact congrArg (·, none) hpush

/-- A text is put into the document once. Its echoes do not count. -/
theorem replace_given (h : host.Takes log write) (hinner : Echoes inner) (text : String)
    (hs : log.works s.outside) (hphase : s.arbiter.phase = .treeToText) :
    react inner (host.replace s.arbiter text s.outside) s
        = (⟨s.arbiter, (host.replace s.arbiter text s.outside).outside⟩, none) ∧
      log.Given text s.outside (host.replace s.arbiter text s.outside).outside := by
  rcases h.replace s.arbiter text s.outside hs with ⟨hfault, hgiven, hcalls⟩
  refine ⟨?_, hgiven⟩
  rw [react_of_forall fun c hc => by
    rcases hcalls c hc with ⟨echo, rfl⟩
    exact hinner.text _ echo hphase]
  rw [hfault]

/-- A tree that can be written is put into the document once. -/
theorem writeTree_given (h : host.Takes log write) (hinner : Echoes inner) {nodes : Forest}
    {text : String} (hwrite : write ⟨s.arbiter.window, nodes⟩ = .ok text)
    (hs : log.works s.outside) (hphase : s.arbiter.phase = .treeToText) :
    let w := (host.replace { s.arbiter with lastText := some text } text
      (host.write ⟨s.arbiter.window, nodes⟩ s.outside).2).outside
    writeTree host inner nodes s = (⟨{ s.arbiter with lastText := some text }, w⟩, none) ∧
      log.Given text s.outside w := by
  rcases h.write ⟨s.arbiter.window, nodes⟩ s.outside hs with ⟨hanswer, hsame⟩
  rcases replace_given h hinner text
    (s := ⟨{ s.arbiter with lastText := some text },
      (host.write ⟨s.arbiter.window, nodes⟩ s.outside).2⟩) hsame.works hphase with
    ⟨hreact, hgiven⟩
  refine ⟨?_, hsame.give hgiven⟩
  rw [writeTree, show host.write ⟨s.arbiter.window, nodes⟩ s.outside
    = (.ok text, (host.write ⟨s.arbiter.window, nodes⟩ s.outside).2)
    from Prod.ext (hanswer.trans hwrite) rfl]
  exact hreact

/-- A document is the current one on both sides, with its text: the document was given the
    text, each consumer was shown the tree once, and nothing waits. -/
structure Replaced (log : Log κ σ) (text : String) (d : Document) (s s' : Session δ κ σ) :
    Prop where
  holds : log.text s'.outside = text
  lastText : s'.arbiter.lastText = some text
  nodes : s'.arbiter.nodes = d.nodes
  window : s'.arbiter.window = d.window
  given : log.given s'.outside = log.given s.outside ++ [text]
  shown : log.shown s'.outside = log.shown s.outside ++ s.arbiter.consumers.map (·, d.nodes)
  pending : s'.arbiter.pending = false
  pendingNodes : s'.arbiter.pendingNodes = none
  idle : s'.arbiter.phase = .idle

/-- Restoring a text that can be read replaces both sides by its document. -/
theorem restore_replaced (htakes : host.Takes log write) (htells : host.Tells log read)
    (hinner : Echoes inner) {text : String} {d : Document} (hread : read text = .ok d)
    (hs : log.works s.outside) : Replaced log text d s (restore host inner text s) := by
  -- Once everything is cancelled, only the world is not known in full.
  have hcancelled := same_cancelAll htakes hs
  have harbiter := cancelAll_arbiter host s
  rw [restore]
  generalize cancelAll host s = c at hcancelled harbiter ⊢
  rcases c with ⟨a, w⟩
  simp only at harbiter
  subst harbiter
  simp only [remember, enter, agreeOn, update]
  rcases replace_given htakes hinner text
    (s := ⟨{ s.arbiter with
      phase := .treeToText, textTimer := s.arbiter.textTimer.idle
      treeTimer := s.arbiter.treeTimer.idle, pendingNodes := none
      lastFault := none, lastText := some text }, w⟩) hcancelled.works rfl with ⟨hreact, hgiven⟩
  rw [hreact]
  simp only
  rcases loadText_told htells hinner hread
    (s := ⟨{ s.arbiter with
      phase := .textToTree, textTimer := s.arbiter.textTimer.idle
      treeTimer := s.arbiter.treeTimer.idle, pendingNodes := none
      lastFault := none, lastText := some text }, _⟩) hgiven.works rfl with
    ⟨fault, w', hload, htold⟩
  rw [hload]
  have hgave := hcancelled.give hgiven
  exact
    { holds := htold.text.trans hgave.holds
      lastText := rfl
      nodes := rfl
      window := rfl
      given := htold.given.trans hgave.given
      shown := htold.shown.trans (congrArg (· ++ _) hgave.shown)
      pending := rfl
      pendingNodes := rfl
      idle := rfl }

/-- Loading a tree that can be written replaces both sides by it. -/
theorem loadTree_replaced (htakes : host.Takes log write) (htells : host.Tells log read)
    (hinner : Echoes inner) {nodes : Forest} {window : Option Window} {text : String}
    (hassigned : (Forest.assignIds nodes).fault = none)
    (hwrite : write ⟨window.getD s.arbiter.window, (Forest.assignIds nodes).nodes⟩ = .ok text)
    (hs : log.works s.outside) :
    Replaced log text ⟨window.getD s.arbiter.window, (Forest.assignIds nodes).nodes⟩ s
      (loadTree host inner nodes window s) := by
  have hcancelled := same_cancelAll htakes hs
  have harbiter := cancelAll_arbiter host s
  rw [loadTree]
  generalize cancelAll host s = c at hcancelled harbiter ⊢
  rcases c with ⟨a, w⟩
  simp only at harbiter
  subst harbiter
  simp only [hassigned, remember, enter, update]
  -- The consumers are shown the tree first, and then it is written.
  rcases push_told htells hinner (Forest.assignIds nodes).nodes
    (s := ⟨{ s.arbiter with
      phase := .textToTree, textTimer := s.arbiter.textTimer.idle
      treeTimer := s.arbiter.treeTimer.idle, pendingNodes := none, lastFault := none
      nodes := (Forest.assignIds nodes).nodes, window := window.getD s.arbiter.window }, w⟩)
    hcancelled.works rfl with ⟨fault, w', hpush, htold⟩
  rw [hpush]
  rcases writeTree_given htakes hinner
    (s := ⟨{ s.arbiter with
      phase := .treeToText, textTimer := s.arbiter.textTimer.idle
      treeTimer := s.arbiter.treeTimer.idle, pendingNodes := none, lastFault := fault
      nodes := (Forest.assignIds nodes).nodes, window := window.getD s.arbiter.window }, w'⟩)
    hwrite htold.works rfl with ⟨hwritten, hgiven⟩
  rw [hwritten]
  have htold := hcancelled.tell htold
  exact
    { holds := hgiven.holds
      lastText := rfl
      nodes := rfl
      window := rfl
      given := hgiven.given.trans (congrArg (· ++ _) htold.given)
      shown := hgiven.shown.trans htold.shown
      pending := rfl
      pendingNodes := rfl
      idle := rfl }

section Forgets

variable [BEq κ] {roster : Roster σ} {delay : δ} {first : Nat}

/-- No timer that was started before one state goes off after another one, or is waited for
    again, whatever happens. -/
structure Forgets (host : Host δ κ σ) (roster : Roster σ) (s s' : Session δ κ σ) : Prop where
  /-- What the arbiter waits for was started before. -/
  before : ∀ number, s.arbiter.Awaits number → number < roster.next s.outside
  /-- What goes off or is waited for later is new. -/
  later : ∀ ran t, Leads host roster s' ran t →
    ∀ number, number ∈ ran ∨ t.arbiter.Awaits number → roster.next s.outside ≤ number

omit [BEq κ] in
theorem next_le_cancel (hhost : host.Timed roster delay) (side : Side) (s : Session δ κ σ) :
    roster.next s.outside ≤ roster.next (cancel host side s).outside := by
  rw [cancel, Debouncer.cancel]
  cases (s.arbiter.timer side).waiting with
  | none => exact Nat.le_refl _
  | some waiting => exact (hhost.cancel waiting.1 s.outside).2

/-- What begins by cancelling everything forgets the timers that were started before. -/
theorem Wound.forgets (hhost : host.Timed roster delay) (h : s.Wound roster delay first)
    {s' : Session δ κ σ} (hkept : ∀ first, (Session.cancelAll host s).Wound roster delay first →
      s'.Wound roster delay first) : Forgets host roster s s' := by
  refine ⟨fun number hawaits => (h.awaits hawaits).2, fun ran t hleads number hlater => ?_⟩
  have hcancelled : roster.next s.outside ≤ roster.next (Session.cancelAll host s).outside :=
    Nat.le_trans (next_le_cancel hhost .text s) (next_le_cancel hhost .tree _)
  -- From now on only numbers count that no timer has had before.
  have hanew := (h.cancelAll hhost).anew (cancelAll_pending host s)
  rcases hleads.wound hhost (hkept _ hanew) with ⟨hwound, hran⟩
  rcases hlater with hmem | hawaits
  · exact Nat.le_trans hcancelled (hran number hmem)
  · exact Nat.le_trans hcancelled (hwound.awaits hawaits).1

/-- In every state, restoring a text and loading a tree replace both sides by the document
    and do not fail. If the state is one that can be reached, no timer that was started before
    goes off afterwards. -/
theorem both_sides_replaced (hhost : host.Timed roster delay) (htakes : host.Takes log write)
    (htells : host.Tells log read) (hs : log.works s.outside) :
    (∀ text d, read text = .ok d →
      let served := serve host (.restore text) s
      served.2 = none ∧ Replaced log text d s served.1 ∧
        (s.Reached host roster delay → Forgets host roster s served.1)) ∧
    ∀ nodes window text, (∀ n ∈ Forest.walk nodes, ∃ t, n.type.asText? = some t) →
      let d : Document := ⟨window.getD s.arbiter.window, (Forest.assignIds nodes).nodes⟩
      write d = .ok text →
      let served := serve host (.loadTree nodes window) s
      served.2 = none ∧ Replaced log text d s served.1 ∧
        (s.Reached host roster delay → Forgets host roster s served.1) := by
  have hinner := serveWithin_echoes host 198
  refine ⟨fun text d hread => ⟨rfl, restore_replaced htakes htells hinner hread hs, ?_⟩,
    fun nodes window text htypes hwrite => ⟨rfl, loadTree_replaced htakes htells hinner
      (Forest.assignIds_fault htypes) hwrite hs, ?_⟩⟩
  · intro hreached
    exact (hreached.wound hhost).forgets hhost fun first h =>
      h.restore hhost (serveWithin_winds hhost 199) text
  · intro hreached
    exact (hreached.wound hhost).forgets hhost fun first h =>
      h.loadTree hhost (serveWithin_winds hhost 199) nodes window

end Forgets

end Session

/-- A document that counts what it takes, consumers that fail, and an exact clock. -/
structure Bench where
  /-- The text of the document. -/
  text : String
  /-- The texts that the document was given. -/
  given : List String := []
  /-- The trees that consumers were shown. -/
  shown : List (String × Forest) := []
  /-- The clock. -/
  clock : Clock Int Side := { now := 0 }

namespace Bench

/-- What the bench says of itself. -/
def log : Log String Bench where
  works _ := True
  text b := b.text
  given b := b.given
  shown b := b.shown

/-- The clock of the bench. -/
def dial : Dial Int Bench where
  read b := b.clock
  set clock b := { b with clock }

/-- The collaborators at the bench. The document echoes each text twice, and each consumer
    sends the tree back without its first widget, and then fails. -/
def host : Host Int String Bench where
  text b := .ok b.text
  replace _ text b :=
    { outside := { b with text, given := b.given ++ [text] }
      calls := [.textChanged none, .textChanged (some text)] }
  consume consumer _ nodes b :=
    { outside := { b with shown := b.shown ++ [(consumer, nodes)] }
      calls := [.treeSent nodes.tail]
      fault := some (.refused consumer) }
  read text b := (.ok (Markup.readDocument {} text).1, b)
  write d b := (Markup.writeDocument d, b)
  timers :=
    { after := fun delay side b =>
        .ok ((b.clock.after delay side).1, { b with clock := (b.clock.after delay side).2 })
      cancel := fun number b => { b with clock := b.clock.cancel number } }

theorem host_clocked (delay : Int) : host.Clocked dial delay delay where
  read_set _ _ := rfl
  after _ _ _ _ h := by
    rcases Prod.mk.inj (Except.ok.inj h) with ⟨rfl, rfl⟩
    rfl
  cancel _ _ := rfl
  replace _ _ _ := by
    refine ⟨rfl, fun c hc => ?_⟩
    rcases List.mem_pair.mp hc with rfl | rfl
    · trivial
    · trivial
  consume _ _ _ _ := ⟨rfl, fun _ hc => List.mem_singleton.mp hc ▸ trivial⟩
  read _ _ := rfl
  write _ _ := rfl

theorem host_takes : host.Takes log Markup.writeDocument where
  replace _ text _ _ := by
    refine ⟨rfl, ⟨trivial, rfl, rfl, rfl⟩, fun c hc => ?_⟩
    rcases List.mem_pair.mp hc with rfl | rfl
    · exact ⟨none, rfl⟩
    · exact ⟨some text, rfl⟩
  write _ _ _ := ⟨rfl, .refl trivial⟩
  cancel _ _ _ := ⟨trivial, rfl, rfl, rfl⟩

theorem host_tells : host.Tells log fun text => .ok (Markup.readDocument {} text).1 where
  consume _ _ nodes _ _ :=
    ⟨⟨trivial, rfl, rfl, rfl⟩, fun _ hc => .inr ⟨nodes.tail, List.mem_singleton.mp hc⟩⟩
  read _ _ _ := ⟨rfl, .refl trivial⟩

end Bench

namespace Session

/-- A bench where a button has been dragged, and the drag still waits. -/
def draggedButton : Session Int String Bench :=
  (serve Bench.host (.treeSent [{ type := .text "Button", id := .text "a" }])
    ⟨.fresh (.usual {}) 300 ["canvas"], { text := "Label {}" }⟩).1

/-- A tree to load. -/
def sampleLabel : Forest :=
  [{ type := .text "Label", id := .text "b" }]

/-- Whether a text is restored there or a tree is loaded, the drag is forgotten. -/
theorem draggedButton_replaced :
    draggedButton.Reached Bench.host Bench.dial.roster 300 ∧ draggedButton.arbiter.Awaits 0 ∧
      let restored := (serve Bench.host (.restore "Text {}") draggedButton).1
      let loaded := (serve Bench.host (.loadTree sampleLabel none) draggedButton).1
      (Replaced Bench.log "Text {}" (Markup.readDocument {} "Text {}").1 draggedButton restored ∧
        Forgets Bench.host Bench.dial.roster draggedButton restored) ∧
      (∃ text, Replaced Bench.log text ⟨.usual {}, (Forest.assignIds sampleLabel).nodes⟩
        draggedButton loaded) ∧
      Forgets Bench.host Bench.dial.roster draggedButton loaded := by
  have hreached : draggedButton.Reached Bench.host Bench.dial.roster 300 :=
    ⟨_, _, _, _, rfl, .asked _ .here trivial⟩
  rcases both_sides_replaced (s := draggedButton) (Bench.host_clocked 300).timed Bench.host_takes
    Bench.host_tells trivial with ⟨hrestore, hload⟩
  have htypes : ∀ n ∈ Forest.walk sampleLabel, ∃ t, n.type.asText? = some t := by
    intro n hn
    rcases List.mem_singleton.mp hn with rfl
    exact ⟨"Label", rfl⟩
  have hwritten : ∃ text, Markup.writeDocument
      ⟨.usual {}, (Forest.assignIds sampleLabel).nodes⟩ = .ok text :=
    ok_of_isOk (by decide +kernel)
  rcases hwritten with ⟨text, hwritten⟩
  rcases hrestore "Text {}" _ rfl with ⟨-, hrestored, hforgets⟩
  rcases hload sampleLabel none text htypes hwritten with ⟨-, hloaded, hforgets'⟩
  exact ⟨hreached, ⟨.tree, rfl⟩, ⟨hrestored, hforgets hreached⟩, ⟨text, hloaded⟩,
    hforgets' hreached⟩

end Session

end WidgetSync
