import WidgetSync.Change
import WidgetSync.Proofs.Gathering
import WidgetSync.Proofs.Surgery

/-!
# Ids as Keys

Ids join the text to the tree: they tell all widgets of a document apart, and no change
breaks that.

Whatever a text says, its widgets get ids that are safe and distinct. The two searches
for a free name run on until they find one, however many names are taken; what they find
is what `firstFree` finds within as many tries as there are taken names.

A change names its target by an id, so if two widgets had the same id, or one had an id
that no text can hold, later changes would go astray. Changes come from outside and may
bring in ids of any sort, for a whole subtree, for one widget or for a new forest. Each
of these is a different route to the same end: a subtree gets ids that neither the forest
nor its own earlier widgets have, a widget gets an id that no other widget has, and a new
forest is named from the start.

The proof goes over the pre-order. Ids are `Keyed` or not without regard to which node
stands below which, and every change works on a stretch of that list: it takes one out,
puts one in, or replaces one node. Since a change that fails leaves the forest as it was,
a run of changes of any length keeps the ids apart too.

## Main definitions

* `Apart`: The ids of some nodes are texts and no two are equal.
* `Change.undergo`: A forest after a change that may fail.

## Theorems

* `ids_tell_apart`: Ids are given out to every forest, and then they are safe and distinct.
* `Keyed.cut`, `Keyed.splice`, `Keyed.swap`: Operations on stretches.
* `Change.withFreshIds_keyed`: A new subtree gets ids that are safe and not taken.
* `Change.applyAdd_stretch`, `Change.applyTo_swap`: What changes do to the walk.
* `Change.apply_keyed`: Every change keeps ids safe and distinct.
* `Change.edits_keep_ids_apart`: So does every run of changes.
-/

namespace WidgetSync

/-- Ids tell all widgets apart. Both searches for a free name end, and the number of tries that
    `firstFree` gets is enough. Every forest whose types are texts gets ids that are safe and
    distinct, whatever its ids were, and nothing else about it changes; if they were so before,
    nothing changes at all. So the ids of everything that is read are safe and distinct. -/
theorem ids_tell_apart :
    (∀ (candidate : String) (taken : List String),
      Search (fun n => s!"{candidate}_{n}") taken 2
        (firstFree (fun n => s!"{candidate}_{n}") taken taken.length 2)) ∧
    (∀ (type : String) (taken : List String) (n : Nat),
      Search (typeName type) taken n (firstFree (typeName type) taken taken.length n)) ∧
    (∀ nodes : Forest, (∀ n ∈ Forest.walk nodes, ∃ t, n.type.asText? = some t) →
      (Forest.assignIds nodes).fault = none ∧
      Keyed (Forest.walk (Forest.assignIds nodes).nodes) ∧
      Forest.nameless (Forest.assignIds nodes).nodes = Forest.nameless nodes ∧
      Forest.assignIds (Forest.assignIds nodes).nodes
        = ⟨(Forest.assignIds nodes).nodes, [], none⟩) ∧
    (∀ nodes : Forest, Keyed (Forest.walk nodes) → Forest.assignIds nodes = ⟨nodes, [], none⟩) ∧
    ∀ (s : Settings) (source : String),
      Keyed (Forest.walk (Markup.readDocument s source).1.nodes) := by
  refine ⟨fun candidate taken => ?_, fun type taken n => ?_, fun nodes htypes => ?_,
    fun nodes h => Forest.assignIds_self h, fun s source => ?_⟩
  · exact search_firstFree _ (fun _ _ h => numbered_injective candidate h) taken 2
  · exact search_firstFree _ (fun _ _ h => typeName_injective type h) taken n
  · have hfault := Forest.assignIds_fault htypes
    have hkeyed := Forest.assignIds_keyed hfault
    refine ⟨hfault, hkeyed, ?_, Forest.assignIds_self hkeyed⟩
    exact (Forest.nameless_relabel Forest.nameChoice _ _).trans
      (Forest.nameless_relabel Forest.settleChoice _ _)
  · exact (Markup.readDocument_gained s source).ids.keyed

/-- A forest with two ids that are equal, one that is so once it is safe, one that is a number
    behind another, and nodes without an id whose names run into each other. -/
def sampleForest : Forest :=
  [{ type := .text "A", id := .text "a" },
    { type := .text "A", children := [{ type := .text "Row", id := .text "a" },
      { type := .text "A1", id := .raw "a 2" }] },
    { type := .text "A", id := .text "a_2" },
    { type := .text "A1" }, { type := .text "A", id := .text "a1" }]

/-- The sample gets ids that tell its widgets apart. -/
theorem sampleForest_told_apart :
    (∀ n ∈ Forest.walk sampleForest, ∃ t, n.type.asText? = some t) ∧
    Keyed (Forest.walk (Forest.assignIds sampleForest).nodes) ∧
    (Forest.walk (Forest.assignIds sampleForest).nodes).map (·.id.asText?)
      = ["a", "a2", "a_2", "a_2_2", "a_2_3", "a13", "a1"].map some := by
  have htypes : ∀ n ∈ Forest.walk sampleForest, ∃ t, n.type.asText? = some t := by
    intro n hn
    have hall : (Forest.walk sampleForest).all (fun n => n.type.asText?.isSome) = true := by decide
    exact Option.isSome_iff_exists.mp (List.all_eq_true.mp hall n hn)
  exact ⟨htypes, (ids_tell_apart.2.2.1 sampleForest htypes).2.1, by decide⟩

/-- The ids of the nodes are texts, and no two are equal. -/
structure Apart (ns : List Node) : Prop where
  texts : ∀ n ∈ ns, ∃ s, n.id.asText? = some s
  distinct : (ns.map (·.id.asText?)).Nodup

theorem Keyed.apart {ns : List Node} (h : Keyed ns) : Apart ns :=
  ⟨fun n hn => (h.named n hn).imp fun _ hs => hs.1, h.distinct⟩

/-- No other node has the id of a node. -/
theorem Apart.alone {as cs : List Node} {t : Node} (h : Apart (as ++ t :: cs)) :
    ∀ n ∈ as ++ cs, n.id.asText? ≠ t.id.asText? := by
  have hdistinct := h.distinct
  rw [List.map_append, List.map_cons, List.nodup_middle, List.nodup_cons, ← List.map_append]
    at hdistinct
  intro n hn heq
  exact hdistinct.1 (List.mem_map.mpr ⟨n, hn, heq⟩)

namespace Keyed

variable {as bs cs : List Node}

/-- Children do not count. -/
theorem bare_iff (ns : List Node) : Keyed (ns.map Node.bare) ↔ Keyed ns := by
  refine ⟨fun h => ⟨fun n hn => h.named n.bare (List.mem_map_of_mem hn), ?_⟩,
    fun h => ⟨List.forall_mem_map.mpr fun n hn => h.named n hn, ?_⟩⟩
  · have hdistinct := h.distinct
    rw [List.map_map] at hdistinct
    exact hdistinct
  · rw [List.map_map]
    exact h.distinct

/-- A stretch is taken out. -/
theorem cut (h : Keyed (as ++ (bs ++ cs))) : Keyed (as ++ cs) := by
  have hsub : List.Sublist (as ++ cs) (as ++ (bs ++ cs)) :=
    (List.Sublist.refl as).append (List.sublist_append_right bs cs)
  exact ⟨fun n hn => h.named n (hsub.subset hn), h.distinct.sublist (hsub.map _)⟩

/-- A stretch is put in whose ids are new. -/
theorem splice (h : Keyed (as ++ cs)) (hbs : Keyed bs)
    (hnew : ∀ b ∈ bs, ∀ n ∈ as ++ cs, n.id.asText? ≠ b.id.asText?) :
    Keyed (as ++ (bs ++ cs)) := by
  refine ⟨fun n hn => ?_, ?_⟩
  · simp only [List.mem_append] at hn
    rcases hn with hn | hn | hn
    · exact h.named n (List.mem_append_left _ hn)
    · exact hbs.named n hn
    · exact h.named n (List.mem_append_right _ hn)
  · have hdistinct := h.distinct
    rw [List.map_append, List.nodup_append] at hdistinct
    rw [List.map_append, List.map_append, List.nodup_append, List.nodup_append]
    refine ⟨hdistinct.1, ⟨hbs.distinct, hdistinct.2.1, ?_⟩, ?_⟩
    · intro v hv w hw
      rcases List.mem_map.mp hv with ⟨b, hb, rfl⟩
      rcases List.mem_map.mp hw with ⟨n, hn, rfl⟩
      exact (hnew b hb n (List.mem_append_right _ hn)).symm
    · intro v hv w hw
      rcases List.mem_append.mp hw with hw | hw
      · rcases List.mem_map.mp hv with ⟨n, hn, rfl⟩
        rcases List.mem_map.mp hw with ⟨b, hb, rfl⟩
        exact hnew b hb n (List.mem_append_left _ hn)
      · exact hdistinct.2.2 v hv w hw

/-- One node is replaced by one with a safe id that no other has. -/
theorem swap {t t' : Node} (h : Keyed (as ++ t :: cs)) {s : String}
    (hid : t'.id.asText? = some s) (hsafe : isSafeId s = true)
    (hfree : ∀ n ∈ as ++ cs, n.id.asText? ≠ some s) : Keyed (as ++ t' :: cs) := by
  have hcut : Keyed (as ++ cs) := @cut as [t] cs h
  have hsingle : Keyed [t'] :=
    ⟨List.forall_mem_singleton.mpr ⟨s, hid, hsafe⟩, List.nodup_singleton _⟩
  refine hcut.splice hsingle fun b hb n hn => ?_
  rw [List.mem_singleton.mp hb, hid]
  exact hfree n hn

/-- No other node has the id of a node. -/
theorem alone {t : Node} (h : Keyed (as ++ t :: cs)) :
    ∀ n ∈ as ++ cs, n.id.asText? ≠ t.id.asText? :=
  h.apart.alone

end Keyed

/-- One step of `Forest.ids`. -/
def noteId (found : List Value) (n : Node) : Except Fault (List Value) :=
  if !n.id.truth then .ok found
  else if !n.id.canName then .error .unsuited
  else if found.any fun v => Value.same v n.id then .ok found
  else .ok (found ++ [n.id])

theorem Forest.ids_eq (nodes : Forest) : Forest.ids nodes = (walk nodes).foldlM noteId [] :=
  rfl

/-- Nothing that was found is lost, and a safe id is found. -/
theorem noteId_spec {found now : List Value} {n : Node} (h : noteId found n = .ok now) :
    (∀ v ∈ found, v ∈ now) ∧
      ∀ s, n.id.asText? = some s → isSafeId s = true → ∃ v ∈ now, v.asText? = some s := by
  unfold noteId at h
  split_ifs at h with hempty hname hany
  · -- An empty id is passed over, but a safe one is not empty.
    rw [← Except.ok.inj h]
    refine ⟨fun _ hv => hv, fun s hs hsafe => ?_⟩
    rw [Value.truth_of_safe hs hsafe] at hempty
    exact absurd hempty (by decide)
  · -- An equal id is there already, and it is the same text.
    rw [← Except.ok.inj h]
    refine ⟨fun _ hv => hv, fun s hs _ => ?_⟩
    rcases List.any_eq_true.mp hany with ⟨v, hv, hsame⟩
    exact ⟨v, hv, Value.asText?_of_same hsame hs⟩
  · rw [← Except.ok.inj h]
    exact ⟨fun _ hv => List.mem_append_left _ hv, fun s hs _ =>
      ⟨n.id, List.mem_append_right _ (List.mem_singleton.mpr rfl), hs⟩⟩

/-- Along the walk nothing that was found is lost, and every safe id is found. -/
theorem foldlM_noteId {ns : List Node} {before found : List Value}
    (h : ns.foldlM noteId before = .ok found) :
    (∀ v ∈ before, v ∈ found) ∧
      ∀ m ∈ ns, ∀ s, m.id.asText? = some s → isSafeId s = true →
        ∃ v ∈ found, v.asText? = some s := by
  induction ns generalizing before with
  | nil =>
      rw [List.foldlM_nil] at h
      rw [← Except.ok.inj h]
      exact ⟨fun _ hv => hv, fun _ hm => absurd hm List.not_mem_nil⟩
  | cons n ns ih =>
      rw [List.foldlM_cons] at h
      rcases ok_of_bind h with ⟨now, hnow, hothers⟩
      rcases noteId_spec hnow with ⟨hkept, hnew⟩
      rcases ih hothers with ⟨hlater, hall⟩
      refine ⟨fun v hv => hlater v (hkept v hv), List.forall_mem_cons.mpr ⟨?_, hall⟩⟩
      intro s hs hsafe
      rcases hnew s hs hsafe with ⟨v, hv, htext⟩
      exact ⟨v, hlater v hv, htext⟩

/-- Every safe id of a forest is among its ids. -/
theorem Forest.mem_ids {nodes : Forest} {found : List Value} (h : Forest.ids nodes = .ok found)
    {m : Node} (hm : m ∈ walk nodes) {s : String} (hid : m.id.asText? = some s)
    (hsafe : isSafeId s = true) : s ∈ found.filterMap Value.asText? := by
  rw [Forest.ids_eq] at h
  rcases (foldlM_noteId h).2 m hm s hid hsafe with ⟨v, hv, htext⟩
  exact List.mem_filterMap.mpr ⟨v, hv, htext⟩

/-- The ids can be told if all of them are texts. -/
theorem foldlM_noteId_ok {ns : List Node} (h : ∀ n ∈ ns, ∃ s, n.id.asText? = some s)
    (before : List Value) : ∃ found, ns.foldlM noteId before = .ok found := by
  induction ns generalizing before with
  | nil => exact ⟨before, rfl⟩
  | cons n ns ih =>
      rw [List.forall_mem_cons] at h
      rcases h with ⟨⟨s, hs⟩, hothers⟩
      have hstep : ∃ now, noteId before n = .ok now := by
        unfold noteId
        rw [Value.canName_of_asText? hs]
        split_ifs with hempty hno hany
        · exact ⟨_, rfl⟩
        · exact absurd hno (by decide)
        · exact ⟨_, rfl⟩
        · exact ⟨_, rfl⟩
      rcases hstep with ⟨now, hnow⟩
      rcases ih hothers now with ⟨found, hfound⟩
      refine ⟨found, ?_⟩
      rw [List.foldlM_cons, hnow]
      exact hfound

theorem Forest.ids_ok {nodes : Forest} (h : ∀ n ∈ walk nodes, ∃ s, n.id.asText? = some s) :
    ∃ found, Forest.ids nodes = .ok found :=
  foldlM_noteId_ok h []

namespace Change

/-- One step of `withFreshIds`. -/
def freshChoice (s : Except Fault (List String)) (m : Node) : Except Fault (List String) × Value :=
  match s, wishedId m with
  | .ok taken, .ok wished => (.ok (uniqueId wished taken :: taken), .text (uniqueId wished taken))
  | .ok _, .error fault => (.error fault, m.id)
  | .error fault, _ => (.error fault, m.id)

theorem withFreshIds_eq (taken : List String) (n : Node) :
    withFreshIds taken n
      = (n.relabel freshChoice (.ok taken)).1.map fun _ => (n.relabel freshChoice (.ok taken)).2 :=
  rfl

/-- The id that a widget should get is safe, if there is one. -/
theorem wishedId_safe {m : Node} {wished : String} (h : wishedId m = .ok wished) :
    isSafeId wished = true := by
  unfold wishedId at h
  split at h
  · rw [← Except.ok.inj h]
    exact isSafeId_safeId _
  · split at h
    · rw [← Except.ok.inj h]
      exact isSafeId_safeId _
    · exact absurd h (by simp only [reduceCtorEq, not_false_eq_true])

/-- Giving out fresh ids does not go on once it has failed. -/
theorem choices_freshChoice_error (ms : List Node) (fault : Fault) :
    (Forest.choices freshChoice (.error fault) ms).1 = .error fault := by
  induction ms with
  | nil => rfl
  | cons m ms ih => exact ih

/-- Fresh ids are safe, differ and are not taken. -/
theorem choices_freshChoice (ms : List Node) (taken last : List String)
    (hend : (Forest.choices freshChoice (.ok taken) ms).1 = .ok last) :
    ∃ names : List String,
      (Forest.choices freshChoice (.ok taken) ms).2 = names.map Value.text ∧ names.Nodup ∧
      ∀ s ∈ names, isSafeId s = true ∧ s ∉ taken := by
  induction ms generalizing taken with
  | nil => exact ⟨[], rfl, List.nodup_nil, fun _ hs => absurd hs List.not_mem_nil⟩
  | cons m ms ih =>
      rw [Forest.choices] at hend ⊢
      cases hwished : wishedId m with
      | error fault =>
          -- It would have failed for good.
          have hchoice : freshChoice (.ok taken) m = (.error fault, m.id) := by
            simp only [freshChoice, hwished]
          rw [hchoice, choices_freshChoice_error] at hend
          exact absurd hend (by simp only [reduceCtorEq, not_false_eq_true])
      | ok wished =>
          have hchoice : freshChoice (.ok taken) m
              = (.ok (uniqueId wished taken :: taken), .text (uniqueId wished taken)) := by
            simp only [freshChoice, hwished]
          rw [hchoice] at hend ⊢
          rcases ih (uniqueId wished taken :: taken) hend with ⟨names, hnames, hnodup, hall⟩
          -- The chosen name is taken from then on, so the names that follow differ from it.
          refine ⟨uniqueId wished taken :: names, ?_, ?_, ?_⟩
          · simp only [hnames, List.map_cons]
          · rw [List.nodup_cons]
            exact ⟨fun hmem => (hall _ hmem).2 List.mem_cons_self, hnodup⟩
          · refine List.forall_mem_cons.mpr
              ⟨⟨isSafeId_uniqueId taken (wishedId_safe hwished), uniqueId_not_mem wished taken⟩, ?_⟩
            exact fun s hs => ⟨(hall s hs).1, fun hmem =>
              (hall s hs).2 (List.mem_cons_of_mem _ hmem)⟩

/-- Giving out fresh ids goes on to the end if all types are texts. -/
theorem choices_freshChoice_ok {ms : List Node} (h : ∀ m ∈ ms, ∃ t, m.type.asText? = some t)
    (taken : List String) :
    ∃ last, (Forest.choices freshChoice (.ok taken) ms).1 = .ok last := by
  induction ms generalizing taken with
  | nil => exact ⟨taken, rfl⟩
  | cons m ms ih =>
      rw [List.forall_mem_cons] at h
      rcases h with ⟨⟨t, ht⟩, hothers⟩
      have hwished : ∃ wished, wishedId m = .ok wished := by
        unfold wishedId
        rw [ht]
        split
        · exact ⟨_, rfl⟩
        · exact ⟨_, rfl⟩
      rcases hwished with ⟨wished, hwished⟩
      have hchoice : (freshChoice (.ok taken) m).1 = .ok (uniqueId wished taken :: taken) := by
        simp only [freshChoice, hwished]
      rw [Forest.choices, hchoice]
      exact ih hothers _

/-- A subtree whose types are texts can get fresh ids. -/
theorem withFreshIds_ok {n : Node} (h : ∀ m ∈ n.depthFirst, ∃ t, m.type.asText? = some t)
    (taken : List String) : ∃ fresh, withFreshIds taken n = .ok fresh := by
  rcases choices_freshChoice_ok h taken with ⟨last, hlast⟩
  rw [← (Node.relabel_ids freshChoice (.ok taken) n).1] at hlast
  rw [withFreshIds_eq, hlast]
  exact ⟨_, rfl⟩

/-- A new subtree gets ids that are texts, safe, distinct and not taken; nothing else of it
    changes. -/
theorem withFreshIds_keyed {taken : List String} {n fresh : Node}
    (h : withFreshIds taken n = .ok fresh) :
    Keyed fresh.depthFirst ∧ (∀ m ∈ fresh.depthFirst, ∃ s, m.id = .text s ∧ s ∉ taken) ∧
      fresh.depthFirst.map Node.shell = n.depthFirst.map Node.shell := by
  rcases Node.relabel_ids freshChoice (.ok taken) n with ⟨hstate, hnew⟩
  rw [withFreshIds_eq, hstate] at h
  cases hend : (Forest.choices freshChoice (.ok taken) n.depthFirst).1 with
  | error fault =>
      rw [hend] at h
      exact absurd h (by simp only [Except.map, reduceCtorEq, not_false_eq_true])
  | ok last =>
      rw [hend, Except.map, Except.ok.injEq] at h
      rcases choices_freshChoice n.depthFirst taken last hend with ⟨names, hnames, hnodup, hall⟩
      rw [h, hnames] at hnew
      have hname : ∀ m ∈ fresh.depthFirst, ∃ s, m.id = .text s ∧ isSafeId s = true ∧ s ∉ taken := by
        intro m hm
        have hmem : m.id ∈ names.map Value.text := by
          rw [← hnew]
          exact List.mem_map_of_mem (f := fun m : Node => m.id) hm
        rcases List.mem_map.mp hmem with ⟨s, hs, heq⟩
        exact ⟨s, heq.symm, hall s hs⟩
      refine ⟨⟨fun m hm => ?_, ?_⟩, fun m hm => ?_, ?_⟩
      · rcases hname m hm with ⟨s, hs, hsafe, -⟩
        exact ⟨s, by rw [hs, Value.asText?], hsafe⟩
      · have htexts := congrArg (List.map Value.asText?) hnew
        rw [List.map_map, List.map_map] at htexts
        change (fresh.depthFirst.map (Value.asText? ∘ fun m => m.id)).Nodup
        rw [htexts]
        exact hnodup.map fun _ _ heq => Option.some.inj heq
      · rcases hname m hm with ⟨s, hs, -, hfree⟩
        exact ⟨s, hs, hfree⟩
      · rw [← h]
        exact Node.relabel_shells freshChoice (.ok taken) n

theorem graft_split (n : Node) (place : Option Int) (siblings : Forest) :
    ∃ before after, siblings = before ++ after ∧ graft n place siblings = before ++ n :: after := by
  cases place with
  | none => exact ⟨siblings, [], (List.append_nil _).symm, rfl⟩
  | some index => exact insertAt_split index n siblings

/-- A new subtree beside the roots is a stretch put in. -/
theorem graft_stretch (fresh : Node) (place : Option Int) (ns : Forest) :
    ∃ before after, Forest.walk ns = before ++ after ∧ Forest.bare (graft fresh place ns)
      = before.map Node.bare ++ (fresh.depthFirst.map Node.bare ++ after.map Node.bare) := by
  rcases graft_split fresh place ns with ⟨before, after, rfl, hgraft⟩
  refine ⟨Forest.walk before, Forest.walk after, Forest.walk_append before after, ?_⟩
  rw [hgraft, Forest.bare_append, Forest.bare, Forest.bare, Forest.walk_cons, List.map_append]

/-- A new subtree below the first widget that fits is a stretch put in. -/
theorem graftBelow_stretch {fits : Node → Bool} {fresh : Node} {place : Option Int}
    {ns grafted : Forest} (h : Forest.alterFirst? fits
      (fun p => { p with children := graft fresh place p.children }) ns = some grafted) :
    ∃ before after, Forest.walk ns = before ++ after ∧ Forest.bare grafted
      = before.map Node.bare ++ (fresh.depthFirst.map Node.bare ++ after.map Node.bare) := by
  rcases Forest.alterFirst?_bare h with ⟨before, t, after, hwalk, hbare, -, -⟩
  rcases graft_stretch fresh place t.children with ⟨front, back, hchildren, hgraft⟩
  refine ⟨before ++ t :: front, back ++ after, ?_, ?_⟩
  · rw [hwalk, Node.depthFirst_eq, hchildren]
    simp only [List.append_assoc, List.cons_append]
  · rw [hbare, Forest.bare_cons, Forest.bare_nil, List.append_nil, hgraft]
    simp only [List.map_append, List.map_cons, List.append_assoc, List.cons_append]
    rfl

theorem ok_of_required {α : Type} {name : String} {given : Option α} {a : α}
    (h : required name given = .ok a) : given = some a := by
  cases given with
  | none => exact absurd h (by simp only [required, reduceCtorEq, not_false_eq_true])
  | some b => rw [required, Except.ok.injEq] at h; rw [h]

theorem eq_of_ok {α β : Type} {a a' : α} {b b' : β}
    (h : (.ok (a, b) : Except Fault (α × β)) = .ok (a', b')) : a' = a :=
  (congrArg Prod.fst (Except.ok.inj h)).symm

/-- A new subtree is a stretch put in whose widgets are those that were given, with ids that
    are safe, distinct and new, or nothing happens at all. -/
theorem applyAdd_stretch {ns ns' : Forest} {notices : List Notice} {n : Node}
    {parent index : Value} (h : applyAdd (some n) parent index ns = .ok (ns', notices)) :
    ns' = ns ∨ ∃ (ids : List Value) (before bs after : List Node), Forest.ids ns = .ok ids ∧
      Forest.walk ns = before ++ after ∧
      Forest.bare ns' = before.map Node.bare ++ (bs.map Node.bare ++ after.map Node.bare) ∧
      Keyed bs ∧ (∀ b ∈ bs, ∃ s, b.id = .text s ∧ s ∉ ids.filterMap Value.asText?) ∧
      bs.map Node.shell = n.depthFirst.map Node.shell := by
  unfold applyAdd at h
  rcases ok_of_bind h with ⟨given, hgiven, h⟩
  rcases ok_of_bind h with ⟨ids, hids, h⟩
  rcases ok_of_bind h with ⟨fresh, hfresh, h⟩
  rw [← Option.some.inj (ok_of_required hgiven)] at hfresh
  have hkeyed := withFreshIds_keyed hfresh
  split at h
  · rcases ok_of_bind h with ⟨place, -, h⟩
    rw [eq_of_ok h]
    rcases graft_stretch fresh place ns with ⟨before, after, hwalk, hbare⟩
    exact .inr ⟨ids, before, fresh.depthFirst, after, hids, hwalk, hbare, hkeyed⟩
  · split at h
    · exact .inl (eq_of_ok h)
    · rcases ok_of_bind h with ⟨place, -, h⟩
      rw [eq_of_ok h]
      cases hgrafted : Forest.alterFirst? (hasId parent)
          (fun p => { p with children := graft fresh place p.children }) ns with
      | none => exact .inl rfl
      | some grafted =>
          rcases graftBelow_stretch hgrafted with ⟨before, after, hwalk, hbare⟩
          exact .inr ⟨ids, before, fresh.depthFirst, after, hids, hwalk, hbare, hkeyed⟩

theorem propertyChange_keep {key value : Value} {target : Node} {alter : Node → Node}
    (h : propertyChange key value target = .ok alter) (n : Node) :
    (alter n).children = n.children ∧ (alter n).id = n.id := by
  have hgeometry : ∀ (name : String) (v : Value),
      (setGeometry name v n).children = n.children ∧ (setGeometry name v n).id = n.id := by
    intro name v
    unfold setGeometry
    split <;> exact ⟨rfl, rfl⟩
  unfold propertyChange at h
  split at h
  · rename_i name _
    split at h
    · rw [← Except.ok.inj h]
      exact hgeometry name value
    · split at h
      · rw [← Except.ok.inj h]
        exact ⟨rfl, rfl⟩
      · rw [← Except.ok.inj h]
        exact ⟨rfl, rfl⟩
  · split at h
    · split at h
      · rw [← Except.ok.inj h]
        exact ⟨rfl, rfl⟩
      · exact absurd h (by simp only [reduceCtorEq, not_false_eq_true])
    · exact absurd h (by simp only [reduceCtorEq, not_false_eq_true])

/-- A change of one widget leaves its children and its id, or gives it an id that is safe and
    that no other widget has. -/
theorem alteration_cases {ns : Forest} {target : Node} {change : Change} {alter : Node → Node}
    {said : List Notice} (h : alteration ns target change = .ok (alter, said)) :
    (∀ n, (alter n).children = n.children ∧ (alter n).id = n.id) ∨
    ∃ (id : Value) (key value : Option Value) (taken : List String) (fresh : String),
      change = .property id key value ∧ otherIds ns id = .ok taken ∧ isSafeId fresh = true ∧
      fresh ∉ taken ∧ alter = fun n => { n with id := .text fresh } := by
  unfold alteration at h
  split at h
  · rcases ok_of_bind h with ⟨x, -, h⟩
    rcases ok_of_bind h with ⟨y, -, h⟩
    rw [eq_of_ok h]
    exact .inl fun _ => ⟨rfl, rfl⟩
  · rcases ok_of_bind h with ⟨width, -, h⟩
    rcases ok_of_bind h with ⟨height, -, h⟩
    rw [eq_of_ok h]
    exact .inl fun _ => ⟨rfl, rfl⟩
  · rename_i id key value
    rcases ok_of_bind h with ⟨name, -, h⟩
    rcases ok_of_bind h with ⟨v, -, h⟩
    split at h
    · split at h
      · rw [eq_of_ok h]
        exact .inl fun _ => ⟨rfl, rfl⟩
      · rcases ok_of_bind h with ⟨taken, htaken, h⟩
        exact .inr ⟨id, key, value, taken, uniqueId v.safeId taken, rfl, htaken,
          isSafeId_uniqueId taken (isSafeId_safeId _), uniqueId_not_mem _ taken, eq_of_ok h⟩
    · rcases ok_of_bind h with ⟨alter', halter, h⟩
      rw [eq_of_ok h]
      exact .inl (propertyChange_keep halter)
  · rw [eq_of_ok h]
    exact .inl fun _ => ⟨rfl, rfl⟩

/-- The ids of the others are those of the nodes around the first with the id. -/
theorem mem_otherIds {before after : List Node} {t : Node} {ns : Forest} {id : Value}
    {taken : List String} (h : otherIds ns id = .ok taken)
    (hwalk : Forest.walk ns = before ++ t :: after) (hfits : hasId id t = true)
    (hbefore : ∀ m ∈ before, hasId id m = false) {m : Node} (hm : m ∈ before ++ after) {s : String}
    (hid : m.id.asText? = some s) : s ∈ taken := by
  have hothers : (Forest.walk ns).eraseP (hasId id) = before ++ after := by
    rw [hwalk, List.eraseP_append_right _ fun m hm => by
      rw [hbefore m hm]
      exact Bool.false_ne_true, List.eraseP_cons_of_pos hfits]
  rw [otherIds, hothers] at h
  split at h
  · rw [← Except.ok.inj h]
    exact List.mem_filterMap.mpr ⟨m, hm, hid⟩
  · exact absurd h (by simp only [reduceCtorEq, not_false_eq_true])

/-- A change of one widget replaces it in the walk, or nothing happens at all. -/
theorem applyTo_swap {id : Value} {change : Change} {ns ns' : Forest} {notices : List Notice}
    (h : applyTo id change ns = .ok (ns', notices)) :
    ns' = ns ∨ ∃ (target : Node) (alter : Node → Node) (said : List Notice)
      (before : List Node) (t : Node) (after : List Node),
      alteration ns target change = .ok (alter, said) ∧ Forest.walk ns = before ++ t :: after ∧
      Forest.bare ns' = before.map Node.bare ++ (alter t).bare :: after.map Node.bare ∧
      hasId id t = true ∧ ∀ m ∈ before, hasId id m = false := by
  unfold applyTo at h
  split at h
  · exact .inl (eq_of_ok h)
  · rename_i target _
    rcases ok_of_bind h with ⟨⟨alter, said⟩, halteration, h⟩
    rw [eq_of_ok h]
    have hkeep : ∀ n, (alter n).children = n.children := by
      intro n
      rcases alteration_cases halteration with hkeep | ⟨_, _, _, _, _, -, -, -, -, rfl⟩
      · exact (hkeep n).1
      · rfl
    cases haltered : Forest.alterFirst? (hasId id) alter ns with
    | none => exact .inl rfl
    | some altered =>
        rcases Forest.alterFirst?_swap hkeep haltered with ⟨before, t, after, hswap⟩
        exact .inr ⟨target, alter, said, before, t, after, halteration, hswap⟩

theorem applyAdd_keyed {ns ns' : Forest} {notices : List Notice} {node : Option Node}
    {parent index : Value} (h : Keyed (Forest.walk ns))
    (happlied : applyAdd node parent index ns = .ok (ns', notices)) :
    Keyed (Forest.walk ns') := by
  cases node with
  | none =>
      simp only [applyAdd, required, bind, Except.bind, reduceCtorEq] at happlied
  | some n =>
      rcases applyAdd_stretch happlied with
        rfl | ⟨ids, before, bs, after, hids, hwalk, hbare, hkeyed, hfree, -⟩
      · exact h
      · have hmem : ∀ m ∈ before ++ after, m ∈ Forest.walk ns := fun m hm => hwalk ▸ hm
        have hall := h
        rw [hwalk] at hall
        -- The ids that count as taken are all texts of the forest, so fresh ones are new to it.
        have hspliced := hall.splice hkeyed fun b hb m hm heq => by
          rcases h.named m (hmem m hm) with ⟨s, hs, hsafe⟩
          rcases hfree b hb with ⟨t, ht, hfresh⟩
          rw [hs, ht, Value.asText?, Option.some.injEq] at heq
          rw [← heq] at hfresh
          exact hfresh (Forest.mem_ids hids (hmem m hm) hs hsafe)
        rw [← Keyed.bare_iff] at hspliced ⊢
        change Keyed (Forest.bare ns')
        rw [hbare, ← List.map_append, ← List.map_append]
        exact hspliced

theorem applyTo_keyed {ns ns' : Forest} {notices : List Notice} {id : Value} {change : Change}
    (h : Keyed (Forest.walk ns)) (hchange : ∀ id' key value, change = .property id' key value →
      id' = id)
    (happlied : applyTo id change ns = .ok (ns', notices)) : Keyed (Forest.walk ns') := by
  rcases applyTo_swap happlied with
    rfl | ⟨target, alter, said, before, t, after, halteration, hwalk, hbare, hfits, hbefore⟩
  · exact h
  · rw [hwalk] at h
    have hswapped : Keyed (before ++ alter t :: after) := by
      rcases alteration_cases halteration with
        hkeep | ⟨id', key, value, taken, fresh, hproperty, htaken, hsafe, hfree, rfl⟩
      · rcases h.named t (List.mem_append_right _ List.mem_cons_self) with ⟨s, hs, hsafe⟩
        refine h.swap (by rw [(hkeep t).2, hs]) hsafe fun m hm => ?_
        rw [← hs]
        exact h.alone m hm
      · rw [hchange id' key value hproperty] at htaken
        exact h.swap rfl hsafe fun m hm hid =>
          hfree (mem_otherIds htaken hwalk hfits hbefore hm hid)
    rw [← Keyed.bare_iff] at hswapped ⊢
    change Keyed (Forest.bare ns')
    rwa [hbare, ← List.map_cons, ← List.map_append]

/-- Every change keeps ids safe and distinct. -/
theorem apply_keyed {change : Change} {ns ns' : Forest} {notices : List Notice}
    (h : Keyed (Forest.walk ns)) (happlied : change.apply ns = .ok (ns', notices)) :
    Keyed (Forest.walk ns') := by
  cases change with
  | add node parent index => exact applyAdd_keyed h happlied
  | move id x y => exact applyTo_keyed h (fun _ _ _ heq => by cases heq) happlied
  | resize id width height => exact applyTo_keyed h (fun _ _ _ heq => by cases heq) happlied
  | property id key value => exact applyTo_keyed h (fun _ _ _ heq => by cases heq; rfl) happlied
  | delete id =>
      rw [apply] at happlied
      split at happlied
      · rename_i rest hrest
        rcases Forest.eraseFirst?_bare hrest with ⟨before, t, after, hwalk, hbare, -, -⟩
        rw [hwalk] at h
        have hcut := h.cut
        rw [eq_of_ok happlied]
        rw [← Keyed.bare_iff] at hcut ⊢
        change Keyed (Forest.bare rest)
        rwa [hbare, ← List.map_append]
      · rw [eq_of_ok happlied]
        exact h
  | replace given =>
      -- What the forest was before does not matter.
      rw [apply] at happlied
      rcases ok_of_bind happlied with ⟨snapshot, -, happlied⟩
      simp only at happlied
      split at happlied
      · exact absurd happlied (by simp only [throw, throwThe, MonadExceptOf.throw, reduceCtorEq,
          not_false_eq_true])
      · rename_i hfault
        rw [eq_of_ok happlied]
        exact Forest.assignIds_keyed hfault

/-- The forest after a change. A change that fails leaves it as it was. -/
def undergo (nodes : Forest) (change : Change) : Forest :=
  match change.apply nodes with
  | .ok (changed, _) => changed
  | .error _ => nodes

theorem undergo_keyed {nodes : Forest} (h : Keyed (Forest.walk nodes)) (change : Change) :
    Keyed (Forest.walk (undergo nodes change)) := by
  unfold undergo
  split
  · rename_i happlied
    exact apply_keyed h happlied
  · exact h

/-- After any run of changes, of whatever kinds and with whatever values, the ids are safe and
    distinct if they were before. -/
theorem edits_keep_ids_apart (changes : List Change) {nodes : Forest}
    (h : Keyed (Forest.walk nodes)) : Keyed (Forest.walk (changes.foldl undergo nodes)) := by
  induction changes generalizing nodes with
  | nil => exact h
  | cons change changes ih => exact ih (undergo_keyed h change)

/-- Changes of every kind: a subtree with an id that is there already, one that is empty and one
    that is not safe, a move, a resize without a height, which fails, a renaming to the id of
    another widget, a property, the end of a subtree, and a new forest, followed by a renaming
    of its first widget. -/
def sampleRun : List Change :=
  [.add (some { type := .text "Row", id := .text "a", children :=
      [{ type := .text "Label" }, { type := .text "Label", id := .int 1 }] })
      (.text "a1") (.int (-1)),
    .move (.text "a") (some (.int 4)) (some (.float 0.5)),
    .resize (.text "a") (some (.int 4)) none,
    .property (.text "a2") (some (.text "id")) (some (.text "a")),
    .property (.text "a") (some (.text "text")) (some (.list [])),
    .delete (.text "a2_2"),
    .replace (some (sampleForest ++ sampleForest)),
    .property (.text "a") (some (.text "id")) (some (.text "a_2"))]

/-- The ids stay apart in the run. -/
theorem sampleRun_apart :
    Keyed (Forest.walk (Forest.assignIds sampleForest).nodes) ∧
    Keyed (Forest.walk (sampleRun.foldl undergo (Forest.assignIds sampleForest).nodes)) := by
  have hstart : Keyed (Forest.walk (Forest.assignIds sampleForest).nodes) :=
    Forest.assignIds_keyed (by decide)
  exact ⟨hstart, edits_keep_ids_apart sampleRun hstart⟩

end Change

end WidgetSync
