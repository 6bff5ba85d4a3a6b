import WidgetSync.Proofs.Refusal

/-!
# Echoes

What an arbiter writes and shows comes back to it, and nothing comes of that.

A document that is given a text tells that its text changed: at once, while the
arbiter still waits for it, and again whenever it likes, as long as the text stands in
it. A consumer that is shown a tree changes it. If the arbiter took any of this for
an edit, it would write and show again, without end. Two things keep it from doing so.
While it passes one side on, it does not listen to the other one. And a text that both
sides already agree on is no change, so it agrees on a text before it gives it away.

The collaborators are looked at through a `Watch`, which tells the text of a document,
the text that was given to it last, and how often it was given one. The same
collaborators without their echoes are a host of their own, `Host.quiet`. That echoes
change nothing is then an equation: a run among collaborators with echoes ends as the
run among quiet ones does, world and arbiter alike. Everything else is proved about
quiet collaborators, where an operation calls nobody back.

A document is given a text once for every tree that is passed on or loaded and every
text that is restored. A tree that cannot be given ids or cannot be written is not
passed on, and `ledger_refusesTree` is a run with such a tree.

## Main definitions

* `Watch`: What can be seen of a document that is written to.
* `Watch.Echo`: The document tells about the text that was given to it.
* `Host.Echoing`: Collaborators that echo.
* `Host.quiet`: The same collaborators without their echoes.
* `Session.Known`: The text that was given last is agreed on while it stands.
* `Incident`: What befalls an arbiter.
* `Session.dues`: How often the document is given a text.

## Theorems

* `Session.call_quiet`: A call does the same among quiet collaborators.
* `Session.echo_ignored`: A late echo does nothing.
* `Session.echoes_change_nothing`: Neither do all echoes of a run.
-/

namespace WidgetSync

variable {δ κ σ : Type}

/-- What can be seen of a document that is written to. -/
structure Watch (σ : Type) where
  /-- The text of the document. -/
  text : σ → String
  /-- The text that the arbiter gave to it last, if nobody has put in another since. -/
  given : σ → Option String
  /-- How often the arbiter gave it a text. -/
  writes : σ → Nat
  /-- The world after somebody else has put a text into the document. -/
  put : String → σ → σ

/-- The document is as before. -/
structure Watch.Same (watch : Watch σ) (before after : σ) : Prop where
  text : watch.text after = watch.text before
  given : watch.given after = watch.given before
  writes : watch.writes after = watch.writes before

/-- The document tells that its text changed, by name or not, and the text is the one that
    it was given. -/
def Watch.Echo (watch : Watch σ) (w : σ) (told : Option String) : Prop :=
  watch.given w = some (watch.text w) ∧ (told = none ∨ told = some (watch.text w))

namespace Watch.Same

variable {watch : Watch σ}

theorem refl (w : σ) : watch.Same w w :=
  ⟨rfl, rfl, rfl⟩

theorem trans {w w' w'' : σ} (h : watch.Same w w') (h' : watch.Same w' w'') : watch.Same w w'' :=
  ⟨h'.text.trans h.text, h'.given.trans h.given, h'.writes.trans h.writes⟩

end Watch.Same

/-- Collaborators that echo. The document and the consumers may fail, texts may be
    unreadable and timers may be refused, but only the arbiter and whoever edits the
    document give it another text. -/
structure Host.Echoing (host : Host δ κ σ) (watch : Watch σ)
    (write : Document → Except Fault String) : Prop where
  /-- The document shows its text. -/
  text : ∀ w, host.text w = .ok (watch.text w)
  /-- Somebody else may put in a text. -/
  put : ∀ text w, watch.text (watch.put text w) = text ∧
    watch.given (watch.put text w) = (if text = watch.text w then watch.given w else none) ∧
    watch.writes (watch.put text w) = watch.writes w
  /-- While the document is given a text, it tells that its text changed. -/
  replace : ∀ arbiter text w,
    watch.given (host.replace arbiter text w).outside = some text ∧
    watch.writes (host.replace arbiter text w).outside = watch.writes w + 1 ∧
    ∀ c ∈ (host.replace arbiter text w).calls, ∃ told, c = .textChanged told
  /-- While a consumer is shown a tree, it changes the tree, and the document may tell
      about its text once more. -/
  consume : ∀ consumer arbiter nodes w,
    watch.Same w (host.consume consumer arbiter nodes w).outside ∧
    ∀ c ∈ (host.consume consumer arbiter nodes w).calls,
      (∃ change, c = .treeChanged change) ∨ (∃ sent, c = .treeSent sent) ∨
      ∃ told, c = .textChanged told ∧
        watch.Echo (host.consume consumer arbiter nodes w).outside told
  /-- Reading leaves the document alone. -/
  read : ∀ text w, watch.Same w (host.read text w).2
  /-- So does writing, which depends on nothing but what is written. -/
  write : ∀ d w, (host.write d w).1 = write d ∧ watch.Same w (host.write d w).2
  /-- So do timers. -/
  after : ∀ delay side w number w',
    host.timers.after delay side w = .ok (number, w') → watch.Same w w'
  cancel : ∀ number w, watch.Same w (host.timers.cancel number w)

/-- The same collaborators, but they call nobody back. -/
def Host.quiet (host : Host δ κ σ) : Host δ κ σ :=
  { host with
    replace := fun arbiter text w => { host.replace arbiter text w with calls := [] }
    consume := fun consumer arbiter nodes w =>
      { host.consume consumer arbiter nodes w with calls := [] } }

theorem Host.Echoing.quiet {host : Host δ κ σ} {watch : Watch σ}
    {write : Document → Except Fault String} (h : host.Echoing watch write) :
    host.quiet.Echoing watch write :=
  { h with
    replace := fun arbiter text w => ⟨(h.replace arbiter text w).1, (h.replace arbiter text w).2.1,
      fun _ hc => absurd hc List.not_mem_nil⟩
    consume := fun consumer arbiter nodes w => ⟨(h.consume consumer arbiter nodes w).1,
      fun _ hc => absurd hc List.not_mem_nil⟩ }

namespace Session

/-- The text that was given to the document last is agreed on while it stands there. -/
def Known (watch : Watch σ) (s : Session δ κ σ) : Prop :=
  ∀ text, watch.given s.outside = some text → watch.text s.outside = text →
    s.arbiter.lastText = some text

/-- What a session becomes when the document is given a text so many times. -/
structure Carried (watch : Watch σ) (count : Nat) (s s' : Session δ κ σ) : Prop where
  /-- It knows what was given to the document. -/
  known : s.Known watch → s'.Known watch
  /-- The document was given a text. -/
  writes : watch.writes s'.outside = watch.writes s.outside + count

/-- The same, and no timer is pending that was not pending before. -/
structure Delivered (watch : Watch σ) (count : Nat) (s s' : Session δ κ σ) : Prop
    extends Carried watch count s s' where
  unarmed : ∀ side, (s'.arbiter.timer side).pending = true →
    (s.arbiter.timer side).pending = true

/-- Calls inside calls are served like other calls as far as echoes go. -/
structure Heeds (host : Host δ κ σ) (inner : Call κ → Session δ κ σ → Served δ κ σ) : Prop
    extends Echoes inner where
  /-- A text that is agreed on is no change. -/
  known : ∀ (s : Session δ κ σ) (told : Option String) (text : String),
    s.arbiter.lastText = some text → host.text s.outside = .ok text →
    (told = none ∨ told = some text) → inner (.textChanged told) s = (s, none)

variable {host : Host δ κ σ} {watch : Watch σ} {write : Document → Except Fault String}
  {inner : Call κ → Session δ κ σ → Served δ κ σ}

/-- A text that is agreed on is no change. -/
theorem textChanged_known {s : Session δ κ σ} {text : String} (told : Option String)
    (hknown : s.arbiter.lastText = some text) (htext : host.text s.outside = .ok text)
    (htold : told = none ∨ told = some text) : textChanged host inner told s = (s, none) := by
  -- Asked for or told, it is the text that is agreed on.
  have hread : textTold host told s = .ok text := by
    rcases htold with rfl | rfl
    · exact htext
    · rfl
  rw [textChanged_eq, hread]
  simp only [acceptText, hknown, if_true, ite_self]

theorem serveWithin_heeds [BEq κ] (host : Host δ κ σ) (depth : Nat) :
    Heeds host (serveWithin host (depth + 1)) :=
  { serveWithin_echoes host depth with
    known := fun _ told _ hknown htext htold => textChanged_known told hknown htext htold }

theorem Known.echo (hhost : host.Echoing watch write) {s : Session δ κ σ} (h : s.Known watch)
    {told : Option String} (htold : watch.Echo s.outside told) :
    s.arbiter.lastText = some (watch.text s.outside) ∧
      host.text s.outside = .ok (watch.text s.outside) ∧
      (told = none ∨ told = some (watch.text s.outside)) :=
  ⟨h _ htold.1 rfl, hhost.text _, htold.2⟩

/-- The document is as before, and the arbiter agrees on the same text with the same
    timers. -/
structure Kept (watch : Watch σ) (s s' : Session δ κ σ) : Prop where
  same : watch.Same s.outside s'.outside
  lastText : s'.arbiter.lastText = s.arbiter.lastText
  timer : ∀ side, s'.arbiter.timer side = s.arbiter.timer side

namespace Kept

variable {s s' s'' : Session δ κ σ}

theorem refl (s : Session δ κ σ) : Kept watch s s :=
  ⟨.refl _, rfl, fun _ => rfl⟩

theorem trans (h : Kept watch s s') (h' : Kept watch s' s'') : Kept watch s s'' :=
  ⟨h.same.trans h'.same, h'.lastText.trans h.lastText, fun side =>
    (h'.timer side).trans (h.timer side)⟩

/-- Nothing is known about the rest of the arbiter. -/
theorem of_update {f : Arbiter δ κ → Arbiter δ κ} (s : Session δ κ σ)
    (htext : (f s.arbiter).lastText = s.arbiter.lastText)
    (htimer : ∀ side, (f s.arbiter).timer side = s.arbiter.timer side) :
    Kept watch s (s.update f) :=
  ⟨.refl _, htext, htimer⟩

theorem known (h : Kept watch s s') (hs : s.Known watch) : s'.Known watch := by
  intro text hgiven htext
  rw [h.same.given] at hgiven
  rw [h.same.text] at htext
  exact h.lastText.trans (hs text hgiven htext)

theorem delivered (h : Kept watch s s') : Delivered watch 0 s s' :=
  ⟨⟨h.known, h.same.writes⟩, fun side hpending => by rwa [h.timer] at hpending⟩

end Kept

theorem Carried.trans {s s' s'' : Session δ κ σ} {m n : Nat} (h : Carried watch m s s')
    (h' : Carried watch n s' s'') : Carried watch (m + n) s s'' :=
  ⟨fun hs => h'.known (h.known hs), by rw [h'.writes, h.writes, Nat.add_assoc]⟩

theorem Delivered.trans {s s' s'' : Session δ κ σ} {m n : Nat} (h : Delivered watch m s s')
    (h' : Delivered watch n s' s'') : Delivered watch (m + n) s s'' :=
  ⟨h.toCarried.trans h'.toCarried, fun side hpending => h.unarmed side (h'.unarmed side hpending)⟩

theorem Delivered.keep {s s' s'' : Session δ κ σ} {n : Nat} (h : Delivered watch n s s')
    (h' : Kept watch s' s'') : Delivered watch n s s'' :=
  h.trans h'.delivered

theorem Kept.deliver {s s' s'' : Session δ κ σ} {n : Nat} (h : Kept watch s s')
    (h' : Delivered watch n s' s'') : Delivered watch n s s'' := by
  have hwhole := h.delivered.trans h'
  rwa [Nat.zero_add] at hwhole

section Quiet

variable (other : Call κ → Session δ κ σ → Served δ κ σ)

/-- What a consumer and the document say while a tree is shown does not count. -/
theorem showTo_quiet (hhost : host.Echoing watch write) (hinner : Heeds host inner)
    (nodes : Forest) (consumer : κ) {s : Session δ κ σ} (hphase : s.arbiter.phase = .textToTree)
    (hknown : s.Known watch) :
    showTo host inner nodes s consumer = showTo host.quiet other nodes s consumer ∧
      Kept watch s (showTo host.quiet other nodes s consumer) ∧
      ∃ fault, (showTo host.quiet other nodes s consumer).arbiter
        = { s.arbiter with lastFault := fault } := by
  rcases hhost.consume consumer s.arbiter nodes s.outside with ⟨hsame, hcalls⟩
  have hshown : Kept watch s
      { s with outside := (host.consume consumer s.arbiter nodes s.outside).outside } :=
    ⟨hsame, rfl, fun _ => rfl⟩
  have hloud : react inner (host.consume consumer s.arbiter nodes s.outside) s
      = ({ s with outside := (host.consume consumer s.arbiter nodes s.outside).outside },
        (host.consume consumer s.arbiter nodes s.outside).fault) :=
    react_of_forall fun c hc => by
      -- Changes of the tree do not count in this phase. A text does, but it is agreed on.
      rcases hcalls c hc with ⟨change, rfl⟩ | ⟨sent, rfl⟩ | ⟨told, rfl, htold⟩
      · exact hinner.change _ change hphase
      · exact hinner.sent _ sent hphase
      · rcases (hshown.known hknown).echo hhost htold with ⟨htext, hheld, hnamed⟩
        exact hinner.known _ told _ htext hheld hnamed
  have hquiet : react other (host.quiet.consume consumer s.arbiter nodes s.outside) s
      = ({ s with outside := (host.consume consumer s.arbiter nodes s.outside).outside },
        (host.consume consumer s.arbiter nodes s.outside).fault) :=
    react_of_forall fun _ hc => absurd hc List.not_mem_nil
  rw [showTo, showTo, hloud, hquiet]
  -- A consumer that fails is noted, and nothing else is.
  cases (host.consume consumer s.arbiter nodes s.outside).fault with
  | none => exact ⟨rfl, hshown, _, rfl⟩
  | some fault => exact ⟨rfl, hshown.trans (.of_update _ rfl fun _ => rfl), _, rfl⟩

theorem push_quiet (hhost : host.Echoing watch write) (hinner : Heeds host inner)
    (nodes : Forest) {s : Session δ κ σ} (hphase : s.arbiter.phase = .textToTree)
    (hknown : s.Known watch) :
    push host inner nodes s = push host.quiet other nodes s ∧
      Kept watch s (push host.quiet other nodes s) ∧
      ∃ fault, (push host.quiet other nodes s).arbiter
        = { s.arbiter with lastFault := fault } := by
  rw [push, push]
  -- Each consumer leaves the phase as it was, so the next one is not heard either.
  induction s.arbiter.consumers generalizing s with
  | nil => exact ⟨rfl, .refl s, _, rfl⟩
  | cons consumer consumers ih =>
      rcases showTo_quiet other hhost hinner nodes consumer hphase hknown with
        ⟨hsame, hkept, fault, harbiter⟩
      rcases ih (by rw [harbiter]; exact hphase) (hkept.known hknown) with
        ⟨hrest, hkept', fault', harbiter'⟩
      rw [List.foldl_cons, List.foldl_cons, hsame, hrest]
      exact ⟨rfl, hkept.trans hkept', fault', by rw [harbiter', harbiter]⟩

/-- Reading a text and showing its tree gives the document nothing. -/
theorem loadText_quiet (hhost : host.Echoing watch write) (hinner : Heeds host inner)
    (text : String) {s : Session δ κ σ} (hphase : s.arbiter.phase = .textToTree)
    (hknown : s.Known watch) :
    loadText host inner text s = loadText host.quiet other text s ∧
      Kept watch s (loadText host.quiet other text s).1 := by
  have hread := hhost.read text s.outside
  have hquiet : host.quiet.read text s.outside = host.read text s.outside := rfl
  rw [loadText, loadText, hquiet]
  rcases hfound : host.read text s.outside with ⟨found, w⟩
  rw [hfound] at hread
  have hkept : Kept watch s { s with outside := w } := ⟨hread, rfl, fun _ => rfl⟩
  cases found with
  | error fault => exact ⟨rfl, hkept⟩
  | ok d =>
      have hloaded : Kept watch s (update (fun a => { a with nodes := d.nodes, window := d.window })
          { s with outside := w }) := hkept.trans (.of_update _ rfl fun _ => rfl)
      rcases push_quiet other hhost hinner d.nodes (s := update (fun a => { a with
          nodes := d.nodes, window := d.window }) { s with outside := w }) hphase
          (hloaded.known hknown) with ⟨hsame, hpushed, -⟩
      exact ⟨congrArg (fun s => (s, none)) hsame, hloaded.trans hpushed⟩

/-- Settling changes neither the text that is agreed on nor the timers. -/
theorem Kept.settle {s : Session δ κ σ} {served : Served δ κ σ} (h : Kept watch s served.1) :
    Kept watch s (settle served) := by
  obtain ⟨s', fault⟩ := served
  cases fault with
  | none => exact h.trans ⟨.refl _, rfl, fun _ => rfl⟩
  | some fault => exact h.trans ⟨.refl _, rfl, fun _ => rfl⟩

/-- The text of the document is agreed on. -/
theorem agreeOn_delivered (s : Session δ κ σ) :
    Delivered watch 0 s (agreeOn (watch.text s.outside) s) :=
  ⟨⟨fun _ _ _ htext => congrArg some htext, rfl⟩, fun _ hpending => hpending⟩

theorem debouncer_cancel (hhost : host.Echoing watch write) {ω : Type} (d : Debouncer δ ω) (w : σ) :
    watch.Same w (d.cancel host.timers w).2 := by
  unfold Debouncer.cancel
  split
  · exact hhost.cancel _ _
  · exact .refl _

theorem debouncer_schedule (hhost : host.Echoing watch write) {ω : Type} (side : Side)
    (callback : ω) (d : Debouncer δ ω) (w : σ) :
    watch.Same w (d.schedule host.timers side callback w).1.2 := by
  have hcancelled := debouncer_cancel hhost d w
  unfold Debouncer.schedule
  rcases hcancel : d.cancel host.timers w with ⟨e, w'⟩
  rw [hcancel] at hcancelled
  simp only at hcancelled ⊢
  cases hafter : host.timers.after e.delay side w' with
  | error fault => exact hcancelled
  | ok timer => exact hcancelled.trans (hhost.after _ _ _ _ _ hafter)

/-- Stopping a timer gives the document nothing and arms nothing. -/
theorem cancel_delivered (hhost : host.Echoing watch write) (side : Side) (s : Session δ κ σ) :
    Delivered watch 0 s (cancel host side s) := by
  have hsame := debouncer_cancel hhost (s.arbiter.timer side) s.outside
  have htimer : ((s.arbiter.timer side).cancel host.timers s.outside).1.pending = false := by
    rw [Debouncer.cancel_fst, Debouncer.pending_idle]
  refine ⟨⟨fun h text hgiven htext => ?_, hsame.writes⟩, fun other hpending => ?_⟩
  · have hknown := h text (hsame.given ▸ hgiven) (hsame.text ▸ htext)
    cases side with
    | text => exact hknown
    | tree => exact hknown
  · -- The stopped timer is idle, and the other one is as it was.
    cases side with
    | text =>
        cases other with
        | text => exact absurd (htimer.symm.trans hpending) Bool.false_ne_true
        | tree => exact hpending
    | tree =>
        cases other with
        | text => exact hpending
        | tree => exact absurd (htimer.symm.trans hpending) Bool.false_ne_true

theorem cancelAll_delivered (hhost : host.Echoing watch write) (s : Session δ κ σ) :
    Delivered watch 0 s (cancelAll host s) :=
  ((cancel_delivered hhost .text s).trans (cancel_delivered hhost .tree _)).keep
    ⟨.refl _, rfl, fun _ => rfl⟩

/-- Giving the document a text. -/
theorem replace_quiet (hhost : host.Echoing watch write) (hinner : Heeds host inner)
    (text : String) {s : Session δ κ σ} (hphase : s.arbiter.phase = .treeToText)
    (hagreed : s.arbiter.lastText = some text) :
    react inner (host.replace s.arbiter text s.outside) s
        = react other (host.quiet.replace s.arbiter text s.outside) s ∧
      (react other (host.quiet.replace s.arbiter text s.outside) s).1.arbiter = s.arbiter ∧
      Known watch (react other (host.quiet.replace s.arbiter text s.outside) s).1 ∧
      Delivered watch 1 s (react other (host.quiet.replace s.arbiter text s.outside) s).1 := by
  rcases hhost.replace s.arbiter text s.outside with ⟨hgiven, hwrites, hcalls⟩
  have hloud : react inner (host.replace s.arbiter text s.outside) s
      = ({ s with outside := (host.replace s.arbiter text s.outside).outside },
        (host.replace s.arbiter text s.outside).fault) :=
    react_of_forall fun c hc => by
      -- Not even a wrong text counts while the tree is being written.
      rcases hcalls c hc with ⟨told, rfl⟩
      exact hinner.text _ told hphase
  have hquiet : react other (host.quiet.replace s.arbiter text s.outside) s
      = ({ s with outside := (host.replace s.arbiter text s.outside).outside },
        (host.replace s.arbiter text s.outside).fault) :=
    react_of_forall fun _ hc => absurd hc List.not_mem_nil
  have hknown : Known watch
      { s with outside := (host.replace s.arbiter text s.outside).outside } := by
    intro told htold _
    rw [hgiven] at htold
    exact hagreed.trans htold
  rw [hloud, hquiet]
  exact ⟨rfl, rfl, hknown, ⟨fun _ => hknown, hwrites⟩, fun _ hpending => hpending⟩

/-- How many texts a document gives: one if it can be written. -/
def textsOf (write : Document → Except Fault String) (d : Document) : Nat :=
  match write d with
  | .ok _ => 1
  | .error _ => 0

/-- Writing a tree gives the document one text, if the tree can be written. -/
theorem writeTree_quiet (hhost : host.Echoing watch write) (hinner : Heeds host inner)
    (nodes : Forest) {s : Session δ κ σ} (hphase : s.arbiter.phase = .treeToText) :
    writeTree host inner nodes s = writeTree host.quiet other nodes s ∧
      Delivered watch (textsOf write ⟨s.arbiter.window, nodes⟩) s
        (writeTree host.quiet other nodes s).1 := by
  rcases hhost.write ⟨s.arbiter.window, nodes⟩ s.outside with ⟨hwritten, hsame⟩
  have hquiet : host.quiet.write = host.write := rfl
  rw [writeTree, writeTree, hquiet, textsOf, ← hwritten]
  rcases hfound : host.write ⟨s.arbiter.window, nodes⟩ s.outside with ⟨written, w⟩
  rw [hfound] at hsame
  have hkept : Kept watch s { s with outside := w } := ⟨hsame, rfl, fun _ => rfl⟩
  cases written with
  | error fault => exact ⟨rfl, hkept.delivered⟩
  | ok text =>
      rcases replace_quiet other hhost hinner text (s := agreeOn text { s with outside := w })
        hphase rfl with ⟨hreplaced, -, hknown, hdelivered⟩
      -- The text was agreed on just before, so the document gets it once.
      have hwrites := hdelivered.writes.trans (congrArg (· + 1) hsame.writes)
      exact ⟨hreplaced, ⟨fun _ => hknown, hwrites⟩, hdelivered.unarmed⟩

/-- Passing the text on gives the document nothing. -/
theorem propagateText_quiet (hhost : host.Echoing watch write) (hinner : Heeds host inner)
    (s : Session δ κ σ) :
    propagateText host inner s = propagateText host.quiet other s ∧
      Delivered watch 0 s (propagateText host.quiet other s) := by
  have hquiet : host.quiet.text = host.text ∧ cancel host.quiet .tree s = cancel host .tree s :=
    ⟨rfl, rfl⟩
  rw [propagateText, propagateText, hquiet.1, hquiet.2]
  by_cases hnewer :
      (s.arbiter.treeTimer.pending && s.arbiter.textEvent < s.arbiter.treeEvent) = true
  · rw [if_pos hnewer, if_pos hnewer]
    exact ⟨rfl, (Kept.refl s).delivered⟩
  · rw [if_neg hnewer, if_neg hnewer]
    have hentered : Delivered watch 0 s
        (enter .textToTree (setPending none (cancel host .tree s))) :=
      (cancel_delivered hhost .tree s).keep ⟨.refl _, rfl, fun _ => rfl⟩
    generalize hs' : enter .textToTree (setPending none (cancel host .tree s)) = s' at hentered
    have hphase : s'.arbiter.phase = .textToTree := by rw [← hs']; rfl
    simp only [hhost.text]
    -- The text is agreed on before it is read, so an echo from a consumer finds it known.
    have hagreed : Delivered watch 0 s (remember none (agreeOn (watch.text s'.outside) s')) :=
      (hentered.trans (agreeOn_delivered s')).keep ⟨.refl _, rfl, fun _ => rfl⟩
    rcases loadText_quiet other hhost hinner (watch.text s'.outside)
        (s := remember none (agreeOn (watch.text s'.outside) s')) hphase
        (fun _ _ htext => congrArg some htext) with ⟨hloaded, hkept⟩
    rw [hloaded]
    exact ⟨rfl, hagreed.keep (Kept.settle hkept)⟩

/-- How many texts passing the tree on gives to the document. -/
def treeDues (write : Document → Except Fault String) (a : Arbiter δ κ) : Nat :=
  if a.textTimer.pending && a.treeEvent < a.textEvent then 0
  else
    match a.pendingNodes with
    | none => 0
    | some nodes => textsOf write ⟨a.window, nodes⟩

/-- Passing the tree on gives the document one text, if there is a tree and it can be
    written. -/
theorem propagateTree_quiet (hhost : host.Echoing watch write) (hinner : Heeds host inner)
    (s : Session δ κ σ) :
    propagateTree host inner s = propagateTree host.quiet other s ∧
      Delivered watch (treeDues write s.arbiter) s (propagateTree host.quiet other s) := by
  have hquiet : cancel host.quiet .text s = cancel host .text s := rfl
  rw [propagateTree, propagateTree, hquiet, treeDues]
  by_cases hnewer :
      (s.arbiter.textTimer.pending && s.arbiter.treeEvent < s.arbiter.textEvent) = true
  · rw [if_pos hnewer, if_pos hnewer, if_pos hnewer]
    exact ⟨rfl, (Kept.of_update _ rfl fun _ => rfl).delivered⟩
  · rw [if_neg hnewer, if_neg hnewer, if_neg hnewer]
    have hcancelled := cancel_delivered hhost .text s
    -- Stopping the other timer changes neither the tree that waits nor the window.
    have hpending : (cancel host .text s).arbiter.pendingNodes = s.arbiter.pendingNodes := rfl
    have hwindow : (cancel host .text s).arbiter.window = s.arbiter.window := rfl
    simp only [hpending, ← hwindow]
    generalize cancel host .text s = s' at hcancelled
    cases s.arbiter.pendingNodes with
    | none => exact ⟨rfl, hcancelled⟩
    | some nodes =>
        have hentered : Kept watch s' (remember none (update (fun a => { a with nodes })
            (enter .treeToText (setPending none s')))) := ⟨.refl _, rfl, fun _ => rfl⟩
        rcases writeTree_quiet other hhost hinner nodes (s := remember none (update (fun a =>
          { a with nodes }) (enter .treeToText (setPending none s')))) rfl with
          ⟨hwritten, hdelivered⟩
        refine ⟨congrArg settle hwritten, ?_⟩
        have hwhole := hcancelled.trans (hentered.deliver (hdelivered.keep (Kept.settle (.refl _))))
        rwa [Nat.zero_add] at hwhole

/-- Restoring a text gives it to the document. -/
theorem restore_quiet (hhost : host.Echoing watch write) (hinner : Heeds host inner)
    (text : String) (s : Session δ κ σ) :
    restore host inner text s = restore host.quiet other text s ∧
      Delivered watch 1 s (restore host.quiet other text s) := by
  have hentered : Delivered watch 0 s (enter .treeToText (remember none (cancelAll host s))) :=
    (cancelAll_delivered hhost s).keep ⟨.refl _, rfl, fun _ => rfl⟩
  have hquiet : cancelAll host.quiet s = cancelAll host s := rfl
  rw [restore, restore, hquiet]
  generalize hs' : enter .treeToText (remember none (cancelAll host s)) = s' at hentered
  have hphase : s'.arbiter.phase = .treeToText := by rw [← hs']; rfl
  rcases replace_quiet other hhost hinner text (s := agreeOn text s') hphase rfl with
    ⟨hreplaced, -, hknown, hdelivered⟩
  simp only [hreplaced]
  generalize react other (host.quiet.replace (agreeOn text s').arbiter text
    (agreeOn text s').outside) (agreeOn text s') = served at hknown hdelivered
  obtain ⟨u, failed⟩ := served
  -- What was agreed on before does not matter, since the text is given at once.
  have hgiven : Delivered watch 1 s u :=
    ⟨⟨fun _ => hknown, by rw [hdelivered.writes]; exact congrArg (· + 1) hentered.writes⟩,
      fun side hpending => hentered.unarmed side (hdelivered.unarmed side hpending)⟩
  cases failed with
  | none =>
      have hturned : Kept watch u (enter .textToTree u) := ⟨.refl _, rfl, fun _ => rfl⟩
      rcases loadText_quiet other hhost hinner text (s := enter .textToTree u) rfl
        (hturned.known hknown) with ⟨hloaded, hkept⟩
      exact ⟨congrArg settle hloaded, hgiven.keep (hturned.trans (Kept.settle hkept))⟩
  | some fault => exact ⟨rfl, hgiven.keep (Kept.settle (.refl _))⟩

/-- How many texts loading a tree gives to the document. -/
def loadDues (write : Document → Except Fault String) (nodes : Forest) (window : Window) : Nat :=
  match (Forest.assignIds nodes).fault with
  | some _ => 0
  | none => textsOf write ⟨window, (Forest.assignIds nodes).nodes⟩

/-- Loading a tree gives the document one text, if the tree can be given ids and be
    written. -/
theorem loadTree_quiet (hhost : host.Echoing watch write) (hinner : Heeds host inner)
    (nodes : Forest) (window : Option Window) {s : Session δ κ σ} (hknown : s.Known watch) :
    loadTree host inner nodes window s = loadTree host.quiet other nodes window s ∧
      Delivered watch (loadDues write nodes (window.getD s.arbiter.window)) s
        (loadTree host.quiet other nodes window s) := by
  have hcancelled := cancelAll_delivered hhost s
  have hquiet : cancelAll host.quiet s = cancelAll host s := rfl
  have hwindow : (cancelAll host s).arbiter.window = s.arbiter.window := rfl
  rw [loadTree, loadTree, hquiet, loadDues, ← hwindow]
  generalize cancelAll host s = s' at hcancelled
  simp only
  cases (Forest.assignIds nodes).fault with
  | some fault => exact ⟨rfl, hcancelled.keep ⟨.refl _, rfl, fun _ => rfl⟩⟩
  | none =>
      let ready : Session δ κ σ := enter .textToTree (update (fun a =>
        { a with window := window.getD a.window }) (update (fun a =>
          { a with nodes := (Forest.assignIds nodes).nodes }) (remember none s')))
      have hready : Kept watch s' ready := ⟨.refl _, rfl, fun _ => rfl⟩
      rcases push_quiet other hhost hinner (Forest.assignIds nodes).nodes (s := ready) rfl
        (hready.known (hcancelled.known hknown)) with ⟨hpushed, hkept, fault, harbiter⟩
      have hturned : Kept watch ready (enter .treeToText
          (push host.quiet other (Forest.assignIds nodes).nodes ready)) :=
        hkept.trans ⟨.refl _, rfl, fun _ => rfl⟩
      rcases writeTree_quiet other hhost hinner (Forest.assignIds nodes).nodes
        (s := enter .treeToText (push host.quiet other (Forest.assignIds nodes).nodes ready)) rfl
        with ⟨hwritten, hdelivered⟩
      -- Since the consumers change nothing but the failure, the tree that is written is the
      -- one that they were shown.
      have hnodes : (enter .treeToText (push host.quiet other (Forest.assignIds nodes).nodes
          ready)).arbiter.nodes = (Forest.assignIds nodes).nodes :=
        congrArg Arbiter.nodes harbiter
      have hshown : (enter .treeToText (push host.quiet other (Forest.assignIds nodes).nodes
          ready)).arbiter.window = window.getD s'.arbiter.window :=
        congrArg Arbiter.window harbiter
      rw [hshown] at hdelivered
      change settle (writeTree host inner (enter .treeToText (push host inner
          (Forest.assignIds nodes).nodes ready)).arbiter.nodes (enter .treeToText (push host inner
          (Forest.assignIds nodes).nodes ready)))
        = settle (writeTree host.quiet other (enter .treeToText (push host.quiet other
          (Forest.assignIds nodes).nodes ready)).arbiter.nodes (enter .treeToText (push host.quiet
          other (Forest.assignIds nodes).nodes ready))) ∧
        Delivered watch _ s (settle (writeTree host.quiet other (enter .treeToText (push host.quiet
          other (Forest.assignIds nodes).nodes ready)).arbiter.nodes (enter .treeToText (push
          host.quiet other (Forest.assignIds nodes).nodes ready))))
      rw [hpushed, hnodes, hwritten]
      have hwhole := hcancelled.trans ((hready.trans hturned).deliver
        (hdelivered.keep (Kept.settle (.refl _))))
      rw [Nat.zero_add] at hwhole
      exact ⟨rfl, hwhole⟩

/-- How many texts passing a side on gives to the document. -/
def sideDues (write : Document → Except Fault String) (a : Arbiter δ κ) : Side → Nat
  | .text => 0
  | .tree => treeDues write a

/-- Passing a side on. -/
theorem propagate_quiet (hhost : host.Echoing watch write) (hinner : Heeds host inner)
    (side : Side) (s : Session δ κ σ) :
    propagate host inner side s = propagate host.quiet other side s ∧
      Delivered watch (sideDues write s.arbiter side) s (propagate host.quiet other side s) := by
  cases side with
  | text => exact propagateText_quiet other hhost hinner s
  | tree => exact propagateTree_quiet other hhost hinner s

theorem sideDues_setTimer (a : Arbiter δ κ) (d : Debouncer δ Unit) (side : Side) :
    sideDues write (a.setTimer d side) side = sideDues write a side := by
  cases side with
  | text => rfl
  | tree => rfl

/-- How many texts letting a side wait gives to the document: those of passing it on, if
    no timer can be had. -/
def scheduleDues (host : Host δ κ σ) (write : Document → Except Fault String) (side : Side)
    (s : Session δ κ σ) : Nat :=
  match ((s.arbiter.timer side).schedule host.timers side () s.outside).2 with
  | some (.refused _) => sideDues write s.arbiter side
  | _ => 0

@[simp]
theorem scheduleDues_text (s : Session δ κ σ) : scheduleDues host write .text s = 0 := by
  unfold scheduleDues
  split
  · rfl
  · rfl

theorem setTimer_carried {s : Session δ κ σ} {side : Side} (d : Debouncer δ Unit) {w : σ}
    (hw : watch.Same s.outside w) : Carried watch 0 s ⟨s.arbiter.setTimer d side, w⟩ := by
  refine ⟨fun h text hgiven htext => ?_, hw.writes⟩
  have hknown := h text (hw.given ▸ hgiven) (hw.text ▸ htext)
  cases side with
  | text => exact hknown
  | tree => exact hknown

/-- Passing a side on when its timer has been set. -/
theorem pass_quiet (hhost : host.Echoing watch write) (hinner : Heeds host inner) (side : Side)
    (s : Session δ κ σ) (d : Debouncer δ Unit) {w : σ} (hw : watch.Same s.outside w) :
    propagate host inner side ⟨s.arbiter.setTimer d side, w⟩
        = propagate host.quiet other side ⟨s.arbiter.setTimer d side, w⟩ ∧
      Carried watch (sideDues write s.arbiter side) s
        (propagate host.quiet other side ⟨s.arbiter.setTimer d side, w⟩) := by
  rcases propagate_quiet other hhost hinner side ⟨s.arbiter.setTimer d side, w⟩ with
    ⟨hpassed, hdelivered⟩
  rw [sideDues_setTimer] at hdelivered
  have hwhole := (setTimer_carried d hw).trans hdelivered.toCarried
  rw [Nat.zero_add] at hwhole
  exact ⟨hpassed, hwhole⟩

theorem schedule_quiet (hhost : host.Echoing watch write) (hinner : Heeds host inner)
    (side : Side) (s : Session δ κ σ) :
    schedule host inner side s = schedule host.quiet other side s ∧
      Carried watch (scheduleDues host write side s) s (schedule host.quiet other side s).1 := by
  have hquiet : host.quiet.timers = host.timers := rfl
  have hsame := debouncer_schedule hhost side () (s.arbiter.timer side) s.outside
  rw [schedule, schedule, hquiet, scheduleDues]
  generalize (s.arbiter.timer side).schedule host.timers side () s.outside = scheduled at hsame
  obtain ⟨⟨d, w⟩, refused⟩ := scheduled
  cases refused with
  | none => exact ⟨rfl, setTimer_carried d hsame⟩
  | some fault =>
      cases fault with
      | refused message =>
          -- No timer can be had, so the side is passed on at once.
          rcases pass_quiet other hhost hinner side s d hsame with ⟨hpassed, hcarried⟩
          exact ⟨congrArg (fun s => (s, none)) hpassed, hcarried⟩
      | _ => exact ⟨rfl, setTimer_carried d hsame⟩

/-- How many texts passing a side on gives to the document, if the side waits. -/
def waitingDues (write : Document → Except Fault String) (a : Arbiter δ κ) (side : Side) : Nat :=
  if (a.timer side).pending then sideDues write a side else 0

@[simp]
theorem waitingDues_text (a : Arbiter δ κ) : waitingDues write a .text = 0 := by
  unfold waitingDues
  split
  · rfl
  · rfl

theorem flushSide_quiet (hhost : host.Echoing watch write) (hinner : Heeds host inner)
    (side : Side) (s : Session δ κ σ) :
    flushSide host inner side s = flushSide host.quiet other side s ∧
      Carried watch (waitingDues write s.arbiter side) s (flushSide host.quiet other side s) := by
  have hquiet : host.quiet.timers = host.timers := rfl
  have hsame := debouncer_cancel hhost (s.arbiter.timer side) s.outside
  rw [flushSide, flushSide, hquiet, Debouncer.flush, waitingDues, Debouncer.pending]
  generalize (s.arbiter.timer side).cancel host.timers s.outside = cancelled at hsame
  obtain ⟨d, w⟩ := cancelled
  cases (s.arbiter.timer side).waiting with
  | none => exact ⟨rfl, setTimer_carried d hsame⟩
  | some waiting => exact pass_quiet other hhost hinner side s d hsame

theorem goOff_quiet (hhost : host.Echoing watch write) (hinner : Heeds host inner)
    (side : Side) (s : Session δ κ σ) :
    goOff host inner side s = goOff host.quiet other side s ∧
      Carried watch (waitingDues write s.arbiter side) s (goOff host.quiet other side s) := by
  rw [goOff, goOff, Debouncer.goOff, waitingDues, Debouncer.pending]
  cases (s.arbiter.timer side).waiting with
  | none => exact ⟨rfl, setTimer_carried _ (.refl _)⟩
  | some waiting => exact pass_quiet other hhost hinner side s _ (.refl _)

/-- A text that the document holds is accepted. -/
theorem acceptText_quiet (hhost : host.Echoing watch write) (hinner : Heeds host inner)
    (text : String) (s : Session δ κ σ) :
    acceptText host inner text s = acceptText host.quiet other text s ∧
      (text = watch.text s.outside → Carried watch 0 s (acceptText host.quiet other text s).1) := by
  rw [acceptText, acceptText]
  by_cases hknown : s.arbiter.lastText = some text
  · rw [if_pos hknown, if_pos hknown]
    exact ⟨rfl, fun _ => (Kept.refl s).delivered.toCarried⟩
  · rw [if_neg hknown, if_neg hknown]
    rcases schedule_quiet other hhost hinner .text (update (·.count .text) (agreeOn text s)) with
      ⟨hscheduled, hcarried⟩
    -- A text that is not the one of the document would not be agreed on there.
    refine ⟨hscheduled, fun htext => ?_⟩
    subst htext
    have hcounted : Delivered watch 0 s
        (update (·.count .text) (agreeOn (watch.text s.outside) s)) :=
      (agreeOn_delivered s).keep ⟨.refl _, rfl, fun _ => rfl⟩
    rw [scheduleDues_text] at hcarried
    exact hcounted.toCarried.trans hcarried

/-- The document tells that its text changed. -/
theorem textChanged_quiet (hhost : host.Echoing watch write) (hinner : Heeds host inner)
    (told : Option String) (s : Session δ κ σ) :
    textChanged host inner told s = textChanged host.quiet other told s ∧
      ((told = none ∨ told = some (watch.text s.outside)) →
        Carried watch 0 s (textChanged host.quiet other told s).1) := by
  have hquiet : textTold host.quiet told s = textTold host told s := rfl
  rw [textChanged_eq, textChanged_eq, hquiet]
  cases s.hearsText with
  | false => exact ⟨rfl, fun _ => (Kept.refl s).delivered.toCarried⟩
  | true =>
      have hread : textTold host told s = .ok (told.getD (watch.text s.outside)) := by
        cases told with
        | some text => rfl
        | none => exact hhost.text s.outside
      rw [if_pos rfl, if_pos rfl, hread]
      rcases acceptText_quiet other hhost hinner (told.getD (watch.text s.outside)) s with
        ⟨haccepted, hcarried⟩
      refine ⟨haccepted, fun htold => hcarried ?_⟩
      rcases htold with rfl | rfl
      · rfl
      · rfl

/-- How many texts a tree that is accepted gives to the document. -/
def acceptDues (host : Host δ κ σ) (write : Document → Except Fault String) (nodes : Forest)
    (s : Session δ κ σ) : Nat :=
  scheduleDues host write .tree (update (·.count .tree) (setPending (some nodes) s))

theorem acceptTree_quiet (hhost : host.Echoing watch write) (hinner : Heeds host inner)
    (nodes : Forest) (s : Session δ κ σ) :
    acceptTree host inner nodes s = acceptTree host.quiet other nodes s ∧
      Carried watch (acceptDues host write nodes s) s (acceptTree host.quiet other nodes s).1 := by
  rcases schedule_quiet other hhost hinner .tree
    (update (·.count .tree) (setPending (some nodes) s)) with ⟨hscheduled, hcarried⟩
  have hcounted : Kept watch s (update (·.count .tree) (setPending (some nodes) s)) :=
    ⟨.refl _, rfl, fun _ => rfl⟩
  have hwhole := hcounted.delivered.toCarried.trans hcarried
  rw [Nat.zero_add] at hwhole
  exact ⟨hscheduled, hwhole⟩

/-- How many texts a call gives to the document: one for each tree that it passes on or
    loads and each text that it restores, if there is a text to give. -/
def dues (host : Host δ κ σ) (other : Call κ → Session δ κ σ → Served δ κ σ)
    (write : Document → Except Fault String) (c : Call κ) (s : Session δ κ σ) : Nat :=
  match c with
  | .treeChanged change =>
    if s.hearsTree then
      match change.apply s.arbiter.base with
      | .ok (nodes, _) => acceptDues host write nodes s
      | .error _ => 0
    else 0
  | .treeSent nodes =>
    if s.hearsTree then
      match (Forest.assignIds nodes).fault with
      | none => acceptDues host write (Forest.assignIds nodes).nodes s
      | some _ => 0
    else 0
  | .flush => waitingDues write (flushSide host other .text s).arbiter .tree
  | .loadTree nodes window => loadDues write nodes (window.getD s.arbiter.window)
  | .restore _ => 1
  | .goOff side => waitingDues write s.arbiter side
  | _ => 0

/-- What is told of the text of the document is true. -/
def Honest (watch : Watch σ) (s : Session δ κ σ) (c : Call κ) : Prop :=
  ∀ told, c = .textChanged told → told = none ∨ told = some (watch.text s.outside)

theorem treeChanged_quiet (hhost : host.Echoing watch write) (hinner : Heeds host inner)
    (change : Change) (s : Session δ κ σ) :
    treeChanged host inner change s = treeChanged host.quiet other change s ∧
      Carried watch (dues host.quiet other write (.treeChanged change) s) s
        (treeChanged host.quiet other change s).1 := by
  rw [treeChanged_eq, treeChanged_eq, dues]
  cases s.hearsTree with
  | false => exact ⟨rfl, (Kept.refl s).delivered.toCarried⟩
  | true =>
      simp only [if_true]
      cases change.apply s.arbiter.base with
      | error fault =>
          have hkept : Kept watch s (s.remember (some fault)) := ⟨.refl _, rfl, fun _ => rfl⟩
          exact ⟨rfl, hkept.delivered.toCarried⟩
      | ok applied => exact acceptTree_quiet other hhost hinner applied.1 s

theorem treeSent_quiet (hhost : host.Echoing watch write) (hinner : Heeds host inner)
    (nodes : Forest) (s : Session δ κ σ) :
    treeSent host inner nodes s = treeSent host.quiet other nodes s ∧
      Carried watch (dues host.quiet other write (.treeSent nodes) s) s
        (treeSent host.quiet other nodes s).1 := by
  rw [treeSent_eq, treeSent_eq, dues]
  cases s.hearsTree with
  | false => exact ⟨rfl, (Kept.refl s).delivered.toCarried⟩
  | true =>
      simp only [if_true]
      cases (Forest.assignIds nodes).fault with
      -- A refused tree takes the place of the one that waits, but no timer is set for it.
      | some fault =>
          have hkept : Kept watch s
              ((setPending (some (Forest.assignIds nodes).nodes) s).remember (some fault)) :=
            ⟨.refl _, rfl, fun _ => rfl⟩
          exact ⟨rfl, hkept.delivered.toCarried⟩
      | none => exact acceptTree_quiet other hhost hinner (Forest.assignIds nodes).nodes s

/-- Starting gives the document nothing. -/
theorem start_quiet (hhost : host.Echoing watch write) (hinner : Heeds host inner)
    (s : Session δ κ σ) :
    start host inner s = start host.quiet other s ∧
      Delivered watch 0 s (start host.quiet other s).1 := by
  have hquiet : host.quiet.text = host.text ∧ cancelAll host.quiet s = cancelAll host s :=
    ⟨rfl, rfl⟩
  have hcancelled := cancelAll_delivered hhost s
  rw [start, start, hquiet.1, hquiet.2]
  generalize cancelAll host s = s' at hcancelled
  simp only [hhost.text]
  rcases propagateText_quiet other hhost hinner
    (update (·.count .text) (agreeOn (watch.text s'.outside) s')) with ⟨hpassed, hdelivered⟩
  have hcounted : Delivered watch 0 s
      (update (·.count .text) (agreeOn (watch.text s'.outside) s')) :=
    (hcancelled.trans (agreeOn_delivered s')).keep ⟨.refl _, rfl, fun _ => rfl⟩
  exact ⟨congrArg (fun s => (s, none)) hpassed, hcounted.trans hdelivered⟩

theorem flush_quiet (hhost : host.Echoing watch write) (hinner : Heeds host inner)
    (s : Session δ κ σ) :
    flush host inner s = flush host.quiet other s ∧
      Carried watch (waitingDues write (flushSide host.quiet other .text s).arbiter .tree) s
        (flush host.quiet other s) := by
  rcases flushSide_quiet other hhost hinner .text s with ⟨htext, hcarried⟩
  rcases flushSide_quiet other hhost hinner .tree (flushSide host.quiet other .text s) with
    ⟨htree, hcarried'⟩
  -- Passing the text on gives the document nothing, so what is due is due to the tree.
  have hwhole := hcarried.trans hcarried'
  rw [waitingDues_text, Nat.zero_add] at hwhole
  rw [flush, flush, htext, htree]
  exact ⟨rfl, hwhole⟩

theorem join_kept [BEq κ] (consumer : κ) (s : Session δ κ σ) : Kept watch s (join consumer s) := by
  unfold join
  refine .of_update s ?_ fun side => ?_
  all_goals
    split
    · rfl
    · rfl

/-- A call does the same among quiet collaborators, and the document is given the texts
    that are due. -/
theorem call_quiet [BEq κ] (hhost : host.Echoing watch write) (hinner : Heeds host inner)
    (c : Call κ) {s : Session δ κ σ} (hknown : s.Known watch) :
    call host inner c s = call host.quiet other c s ∧
      (Honest watch s c →
        Carried watch (dues host.quiet other write c s) s (call host.quiet other c s).1) := by
  cases c with
  | textChanged told =>
      rcases textChanged_quiet other hhost hinner told s with ⟨htold, hcarried⟩
      exact ⟨htold, fun honest => hcarried (honest told rfl)⟩
  | treeChanged change =>
      rcases treeChanged_quiet other hhost hinner change s with ⟨hchanged, hcarried⟩
      exact ⟨hchanged, fun _ => hcarried⟩
  | treeSent nodes =>
      rcases treeSent_quiet other hhost hinner nodes s with ⟨hsent, hcarried⟩
      exact ⟨hsent, fun _ => hcarried⟩
  | start =>
      rcases start_quiet other hhost hinner s with ⟨hstarted, hdelivered⟩
      exact ⟨hstarted, fun _ => hdelivered.toCarried⟩
  | flush =>
      rcases flush_quiet other hhost hinner s with ⟨hflushed, hcarried⟩
      exact ⟨congrArg (fun s => (s, none)) hflushed, fun _ => hcarried⟩
  | loadTree nodes window =>
      rcases loadTree_quiet other hhost hinner nodes window hknown with ⟨hloaded, hdelivered⟩
      exact ⟨congrArg (fun s => (s, none)) hloaded, fun _ => hdelivered.toCarried⟩
  | restore text =>
      rcases restore_quiet other hhost hinner text s with ⟨hrestored, hdelivered⟩
      exact ⟨congrArg (fun s => (s, none)) hrestored, fun _ => hdelivered.toCarried⟩
  -- Switching off stops the timers, and nothing is passed on.
  | enable on =>
      refine ⟨rfl, fun _ => ?_⟩
      have hset : Kept watch s (update (fun a => { a with enabled := on }) s) :=
        ⟨.refl _, rfl, fun _ => rfl⟩
      cases on with
      | true => exact hset.delivered.toCarried
      | false => exact (hset.deliver (cancelAll_delivered hhost _)).toCarried
  | join consumer => exact ⟨rfl, fun _ => (join_kept consumer s).delivered.toCarried⟩
  | leave consumer =>
      have hkept : Kept watch s (leave consumer s) := ⟨.refl _, rfl, fun _ => rfl⟩
      exact ⟨rfl, fun _ => hkept.delivered.toCarried⟩
  | dispose =>
      have hdisposed : Delivered watch 0 s (dispose host s) :=
        (cancelAll_delivered hhost s).keep ⟨.refl _, rfl, fun _ => rfl⟩
      exact ⟨rfl, fun _ => hdisposed.toCarried⟩
  | goOff side =>
      rcases goOff_quiet other hhost hinner side s with ⟨hpassed, hcarried⟩
      exact ⟨congrArg (fun s => (s, none)) hpassed, fun _ => hcarried⟩

end Quiet

end Session

/-- What befalls an arbiter and its document. -/
inductive Incident where
  /-- Somebody puts a text into the document, which tells so, by name or not. -/
  | edited (text : String) (named : Bool)
  /-- Somebody puts a text into the document, which does not tell, since the arbiter is
      switched off. -/
  | slipped (text : String)
  /-- The tree is changed. -/
  | changed (change : Change)
  /-- A whole tree is sent. -/
  | sent (nodes : Forest)
  /-- The text is passed on for the first time, or once more. -/
  | started
  /-- What waits is passed on. -/
  | flushed
  /-- A tree is loaded. -/
  | loaded (nodes : Forest) (window : Option Window)
  /-- A text is restored. -/
  | restored (text : String)
  /-- The arbiter is switched on or off. -/
  | switched (on : Bool)
  /-- The timer of a side goes off. -/
  | wentOff (side : Side)

namespace Incident

/-- What the arbiter is called to do. -/
def call : Incident → Option (Call κ)
  | .edited text named => some (.textChanged (if named then some text else none))
  | .slipped _ => none
  | .changed change => some (.treeChanged change)
  | .sent nodes => some (.treeSent nodes)
  | .started => some .start
  | .flushed => some .flush
  | .loaded nodes window => some (.loadTree nodes window)
  | .restored text => some (.restore text)
  | .switched on => some (.enable on)
  | .wentOff side => some (.goOff side)

/-- The session when somebody has edited the document. -/
def edit (put : String → σ → σ) (s : Session δ κ σ) : Incident → Session δ κ σ
  | .edited text _ => { s with outside := put text s.outside }
  | .slipped text => if s.arbiter.enabled then s else { s with outside := put text s.outside }
  | _ => s

end Incident

namespace Session

section Edits

variable {host : Host δ κ σ} {watch : Watch σ} {write : Document → Except Fault String}

/-- Somebody else may edit the document. A text that was given before does not stand there
    any longer then, unless it is the one that is put in. -/
theorem edit_carried (hhost : host.Echoing watch write) (i : Incident) (s : Session δ κ σ) :
    Carried watch 0 s (i.edit watch.put s) := by
  have hput : ∀ text, Carried watch 0 s { s with outside := watch.put text s.outside } := by
    intro text
    rcases hhost.put text s.outside with ⟨htext, hgiven, hwrites⟩
    refine ⟨fun h told htold hstands => ?_, hwrites⟩
    rw [hgiven] at htold
    -- Putting in the text that stands there already leaves it the one that was given.
    by_cases hsame : text = watch.text s.outside
    · rw [if_pos hsame] at htold
      exact h told htold (by rw [← hstands, htext, hsame])
    · rw [if_neg hsame] at htold
      exact absurd htold.symm (Option.some_ne_none told)
  cases i with
  | edited text named => exact hput text
  | slipped text =>
      rw [Incident.edit]
      by_cases henabled : s.arbiter.enabled = true
      · rw [if_pos henabled]
        exact (Kept.refl s).delivered.toCarried
      · rw [if_neg henabled]
        exact hput text
  | _ => exact (Kept.refl s).delivered.toCarried

/-- What is told about an edit is true. -/
theorem edit_honest (hhost : host.Echoing watch write) (i : Incident) (s : Session δ κ σ)
    {c : Call κ} (hc : i.call = some c) : Honest watch (i.edit watch.put s) c := by
  rintro told rfl
  cases i with
  | edited text named =>
      have htold := Option.some.inj hc
      rw [Call.textChanged.injEq] at htold
      cases named with
      | true =>
          right
          rw [Incident.edit, (hhost.put text s.outside).1]
          exact htold.symm
      | false => exact .inl htold.symm
  | _ => exact absurd hc (by simp only [Incident.call, Option.some.injEq, reduceCtorEq,
      not_false_eq_true])

end Edits

variable [BEq κ] (host : Host δ κ σ) (watch : Watch σ) (write : Document → Except Fault String)
  (put : String → σ → σ)

/-- The session after an incident. -/
def undergo (s : Session δ κ σ) (i : Incident) : Session δ κ σ :=
  match i.call with
  | some c => (serve host c (i.edit put s)).1
  | none => i.edit put s

/-- The session after some incidents. -/
def lived (incidents : List Incident) (s : Session δ κ σ) : Session δ κ σ :=
  incidents.foldl (undergo host put) s

/-- How many texts some incidents give to the document. -/
def tally : List Incident → Session δ κ σ → Nat
  | [], _ => 0
  | i :: incidents, s =>
    (match i.call with
      | some c => dues host (serveWithin host 199) write c (i.edit put s)
      | none => 0) + tally incidents (s.undergo host put i)

/-- The session after the document has told once more, by name or not, that its text
    changed. It does so only while the text stands that it was given last. -/
def echo (s : Session δ κ σ) (named : Bool) : Session δ κ σ :=
  if watch.given s.outside = some (watch.text s.outside) then
    (serve host (.textChanged (if named then some (watch.text s.outside) else none)) s).1
  else s

/-- The session after some incidents, with any number of late echoes behind each. -/
def haunted : List (Incident × List Bool) → Session δ κ σ → Session δ κ σ
  | [], s => s
  | (i, echoes) :: episodes, s =>
    haunted episodes (echoes.foldl (echo host watch) (s.undergo host watch.put i))

variable {host watch write}

/-- A late echo does nothing. -/
theorem echo_ignored (hhost : host.Echoing watch write) {s : Session δ κ σ} (h : s.Known watch)
    {told : Option String} (htold : watch.Echo s.outside told) :
    serve host (.textChanged told) s = (s, none) := by
  rcases h.echo hhost htold with ⟨hknown, htext, hnamed⟩
  exact textChanged_known told hknown htext hnamed

theorem echoes_ignored (hhost : host.Echoing watch write) {s : Session δ κ σ} (h : s.Known watch)
    (echoes : List Bool) : echoes.foldl (echo host watch) s = s := by
  have hone : ∀ named, echo host watch s named = s := by
    intro named
    unfold echo
    by_cases hgiven : watch.given s.outside = some (watch.text s.outside)
    · rw [if_pos hgiven, echo_ignored hhost h ⟨hgiven, ?_⟩]
      cases named with
      | true => exact .inr rfl
      | false => exact .inl rfl
    · rw [if_neg hgiven]
  induction echoes with
  | nil => rfl
  | cons named echoes ih => rw [List.foldl_cons, hone, ih]

/-- An incident does the same among quiet collaborators. -/
theorem undergo_quiet (hhost : host.Echoing watch write) (i : Incident) {s : Session δ κ σ}
    (h : s.Known watch) :
    s.undergo host watch.put i = s.undergo host.quiet watch.put i ∧
      Carried watch (tally host.quiet write watch.put [i] s) s
        (s.undergo host.quiet watch.put i) := by
  have hedited := edit_carried hhost i s
  unfold undergo
  rw [tally, tally, Nat.add_zero]
  cases hc : i.call (κ := κ) with
  | none => exact ⟨rfl, hedited⟩
  | some c =>
      rcases call_quiet (serveWithin host.quiet 199) hhost (serveWithin_heeds host 198) c
        (hedited.known h) with ⟨hserved, hcarried⟩
      have hwhole := hedited.trans (hcarried (edit_honest hhost i s hc))
      rw [Nat.zero_add] at hwhole
      exact ⟨congrArg Prod.fst hserved, hwhole⟩

/-- A run with echoes is the run without them, and the document is given the texts that
    are due. -/
theorem haunted_quiet (hhost : host.Echoing watch write) (episodes : List (Incident × List Bool)) :
    ∀ {s : Session δ κ σ}, s.Known watch →
      haunted host watch episodes s
          = lived host.quiet watch.put (episodes.map Prod.fst) s ∧
        Carried watch (tally host.quiet write watch.put (episodes.map Prod.fst) s) s
          (haunted host watch episodes s) := by
  induction episodes with
  | nil =>
      intro s _
      exact ⟨rfl, (Kept.refl s).delivered.toCarried⟩
  | cons episode episodes ih =>
      intro s h
      obtain ⟨i, echoes⟩ := episode
      rcases undergo_quiet hhost i h with ⟨hsame, hcarried⟩
      -- The echoes behind the incident do nothing, so the rest starts where it would
      -- start without them.
      rw [haunted, hsame, echoes_ignored hhost (hcarried.known h)]
      rcases ih (hcarried.known h) with ⟨hrest, hcarried'⟩
      refine ⟨hrest, ?_⟩
      have hwhole := hcarried.trans hcarried'
      rwa [tally, tally, Nat.add_zero] at hwhole

/-- Echoes change nothing. The document may tell about a text while it is given it, while a
    tree is shown, and as often as it likes behind every incident, as long as the text
    stands, and the consumers may change the tree while it is shown: the run ends as it
    does among collaborators that never call back, and one more echo does nothing either.
    The document is given one text for every text that is restored and for every tree that
    is passed on or loaded, if the tree can be given ids and be written. Passing a side on,
    restoring and loading leave no timer pending that was not pending before. -/
theorem echoes_change_nothing (hhost : host.Echoing watch write) (window : Window) (delay : δ)
    (consumers : List κ) (w : σ) (hw : watch.given w = none)
    (episodes : List (Incident × List Bool)) :
    let fresh : Session δ κ σ := ⟨.fresh window delay consumers, w⟩
    let incidents := episodes.map Prod.fst
    let s := haunted host watch episodes fresh
    s = lived host.quiet watch.put incidents fresh ∧
      (∀ told, watch.Echo s.outside told → serve host (.textChanged told) s = (s, none)) ∧
      watch.writes s.outside = watch.writes w + tally host.quiet write watch.put incidents fresh ∧
      (∀ (t : Session δ κ σ) (side other : Side),
        ((propagate host (serveWithin host 199) side t).arbiter.timer other).pending = true →
          (t.arbiter.timer other).pending = true) ∧
      (∀ (text : String) (other : Side),
        ((serve host (.restore text) s).1.arbiter.timer other).pending = true →
          (s.arbiter.timer other).pending = true) ∧
      ∀ (nodes : Forest) (window : Option Window) (other : Side),
        ((serve host (.loadTree nodes window) s).1.arbiter.timer other).pending = true →
          (s.arbiter.timer other).pending = true := by
  intro fresh incidents s
  have hheeds := serveWithin_heeds host 198
  have hfresh : fresh.Known watch := by
    intro text hgiven _
    rw [hw] at hgiven
    exact absurd hgiven.symm (Option.some_ne_none text)
  -- Without its echoes the run is the same, and what was given is known at its end.
  rcases haunted_quiet hhost episodes hfresh with ⟨hsame, hcarried⟩
  have hknown : s.Known watch := hcarried.known hfresh
  refine ⟨hsame, fun told htold => echo_ignored hhost hknown htold, hcarried.writes,
    fun t side other => ?_, fun text other => ?_, fun nodes window other => ?_⟩
  · rcases propagate_quiet (serveWithin host 199) hhost hheeds side t with ⟨hpassed, hdelivered⟩
    rw [hpassed]
    exact hdelivered.unarmed other
  · rcases restore_quiet (serveWithin host 199) hhost hheeds text s with ⟨hrestored, hdelivered⟩
    have hserved : (serve host (.restore text) s).1
        = restore host (serveWithin host 199) text s := rfl
    rw [hserved, hrestored]
    exact hdelivered.unarmed other
  · rcases loadTree_quiet (serveWithin host 199) hhost hheeds nodes window hknown with
      ⟨hloaded, hdelivered⟩
    have hserved : (serve host (.loadTree nodes window) s).1
        = loadTree host (serveWithin host 199) nodes window s := rfl
    rw [hserved, hloaded]
    exact hdelivered.unarmed other

end Session

/-- A document that keeps account of what it was given, and timers that never go off by
    themselves. -/
structure Ledger where
  /-- The text of the document. -/
  text : String
  /-- The text that the document was given last, if it is still there. -/
  given : Option String := none
  /-- How often the document was given a text. -/
  writes : Nat := 0
  /-- How often a consumer was shown a tree. -/
  shows : Nat := 0
  /-- The number of the next timer. -/
  next : Nat := 0

namespace Ledger

/-- What the ledger says of the document. -/
def watch : Watch Ledger where
  text l := l.text
  given l := l.given
  writes l := l.writes
  put text l := { l with text, given := if text = l.text then l.given else none }

/-- The collaborators of a ledger. The document echoes each text twice, and each consumer
    sends the tree back that it is shown, without its first widget. -/
def host : Host Unit String Ledger where
  text l := .ok l.text
  replace _ text l :=
    { outside := { l with text, given := some text, writes := l.writes + 1 }
      calls := [.textChanged none, .textChanged (some text)] }
  consume _ _ nodes l :=
    { outside := { l with shows := l.shows + 1 }, calls := [.treeSent nodes.tail] }
  read text l := (.ok (Markup.readDocument {} text).1, l)
  write d l := (Markup.writeDocument d, l)
  timers :=
    { after := fun _ _ l => .ok (l.next, { l with next := l.next + 1 })
      cancel := fun _ l => l }

theorem host_echoing : host.Echoing watch Markup.writeDocument where
  text _ := rfl
  put _ _ := ⟨rfl, rfl, rfl⟩
  replace _ text l := by
    refine ⟨rfl, rfl, fun c hc => ?_⟩
    simp only [host, List.mem_cons, List.not_mem_nil, or_false] at hc
    rcases hc with rfl | rfl
    · exact ⟨none, rfl⟩
    · exact ⟨some text, rfl⟩
  consume _ _ nodes _ :=
    ⟨⟨rfl, rfl, rfl⟩, fun _ hc => .inr (.inl ⟨nodes.tail, List.mem_singleton.mp hc⟩)⟩
  read _ _ := .refl _
  write _ _ := ⟨rfl, .refl _⟩
  after _ _ l number l' h := by
    rw [← (Prod.mk.inj (Except.ok.inj h)).2]
    exact ⟨rfl, rfl, rfl⟩
  cancel _ _ := .refl _

end Ledger

namespace Session

/-- A widget is dragged, the text is written and told of again, and then restored. -/
def dragAndRestore : List (Incident × List Bool) :=
  [(.started, []), (.changed (.move (.text "a") (some (.int 5)) (some (.int 6))), []),
    (.wentOff .tree, [true, false]), (.restored "Button {}", [false])]

theorem dragAndRestore_quiet :
    let fresh : Session Unit String Ledger :=
      ⟨.fresh (.usual {}) () ["canvas"], { text := "Button \x7b id: a \x7d" }⟩
    Ledger.watch.given fresh.outside = none ∧
      haunted Ledger.host Ledger.watch dragAndRestore fresh
        = lived Ledger.host.quiet Ledger.watch.put (dragAndRestore.map Prod.fst) fresh :=
  ⟨rfl, (echoes_change_nothing Ledger.host_echoing (.usual {}) () ["canvas"]
    { text := "Button \x7b id: a \x7d" } rfl dragAndRestore).1⟩

/-- A tree that cannot be given ids is loaded, and the document is given nothing. -/
theorem ledger_refusesTree :
    let s := started Ledger.host (.usual {}) () [] { text := "Button {}" }
    let loaded := (serve Ledger.host (.loadTree [{ type := .int 5 }] none) s).1
    s.outside.writes = 0 ∧ loaded.outside.writes = 0 ∧ loaded.outside.writes ≠ 1 := by
  decide +kernel

end Session

end WidgetSync
