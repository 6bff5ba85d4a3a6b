import WidgetSync.Proofs.Targets

/-!
# A Deletion Undoes an Addition

What a new widget brings into a forest, and that its deletion leaves nothing behind.

A new subtree opens a clearing: there is a place in the forest where nothing is missing,
and this place is filled. Its ids are made so that no widget of the forest has one of
them. Those may be empty or unsafe or occur several times: a new id is safe, and every safe
id of the forest is known to be taken. A deletion looks for the id that the new root has
got, and nowhere before the clearing is there such an id, so that it finds the new root and
leaves the clearing empty again.

The place is asked for by an index, and an index beyond either end of the list means the
nearer end. An integer that no list could have for an index is refused instead, and then
there is no new forest.

## Main definitions

* `Change.IndexLike`: No index, or an integer that a list could have for one.

## Theorems

* `Change.withFreshIds_new`: No widget of the forest has an id of the new subtree.
* `Change.applyAdd_eq`: Where a new subtree goes.
* `Change.add_overflow`: An integer that is no index is refused.
* `Change.delete_undoes_add`: A deletion undoes an addition.
-/

namespace WidgetSync

namespace Change

/-- No index, or an integer that a list could have for one, counted from either end. -/
def IndexLike (index : Value) : Prop :=
  index = .null ∨ ∃ i : Int, index = .int i ∧ -indexBound ≤ i ∧ i < indexBound

theorem placeWanted_ok {index : Value} (h : IndexLike index) :
    ∃ place, placeWanted index = .ok place := by
  rcases h with rfl | ⟨i, rfl, hlow, hhigh⟩
  · exact ⟨none, rfl⟩
  · exact ⟨some i, if_pos ⟨hlow, hhigh⟩⟩

/-- Nothing but ids changes when a subtree gets fresh ones, nor which node stands where. -/
theorem withFreshIds_nameless {taken : List String} {n fresh : Node}
    (h : withFreshIds taken n = .ok fresh) :
    Forest.nameless [fresh] = Forest.nameless [n] := by
  rw [withFreshIds_eq] at h
  cases hstate : (n.relabel freshChoice (.ok taken)).1 with
  | error fault =>
      rw [hstate] at h
      exact absurd h (by simp only [Except.map, reduceCtorEq, not_false_eq_true])
  | ok last =>
      rw [hstate, Except.map, Except.ok.injEq] at h
      rw [← h, Forest.nameless, Forest.nameless]
      simp only [Forest.relabel, Node.nameless_relabel]

/-- No widget of the forest has an id of the new subtree. -/
theorem withFreshIds_new {nodes : Forest} {ids : List Value} (hids : Forest.ids nodes = .ok ids)
    {n fresh : Node} (hfresh : withFreshIds (ids.filterMap Value.asText?) n = .ok fresh) :
    ∀ b ∈ fresh.depthFirst, ∀ m ∈ Forest.walk nodes, hasId b.id m = false := by
  rcases withFreshIds_keyed hfresh with ⟨hkeyed, hfree, -⟩
  intro b hb m hm
  rcases hfree b hb with ⟨s, hs, hnew⟩
  refine Bool.eq_false_iff.mpr fun hsame => hnew ?_
  -- The id is safe, and all that is safe in the forest is known to be taken.
  have hsafe : isSafeId s = true := by
    rcases hkeyed.named b hb with ⟨t, ht, hsafe⟩
    rw [hs, Value.asText?, Option.some.injEq] at ht
    rwa [ht]
  exact Forest.mem_ids hids hm (Value.asText?_of_same hsame (by rw [hs, Value.asText?])) hsafe

/-- A new subtree goes among the trees beside the roots or below its parent, at the place that
    is asked for, if there is such a place. -/
theorem applyAdd_eq {nodes : Forest} {ids : List Value} (hids : Forest.ids nodes = .ok ids)
    {n fresh : Node} (hfresh : withFreshIds (ids.filterMap Value.asText?) n = .ok fresh)
    {parent : Value}
    (hparent : parent = .null ∨ ∃ m ∈ Forest.walk nodes, hasId parent m = true) :
    ∃ (around : Clearing) (siblings : Forest), nodes = around.fill siblings ∧
      ∀ index, applyAdd (some n) parent index nodes
        = (placeWanted index).map fun place => (around.fill (graft fresh place siblings), []) := by
  by_cases hroot : parent = .null
  · subst hroot
    refine ⟨.between [] [], nodes, (List.append_nil nodes).symm, fun index => ?_⟩
    simp only [applyAdd, required, bind, Except.bind, hids, hfresh, pure, Except.pure,
      Clearing.fill, List.nil_append, List.append_nil]
    cases placeWanted index with
    | error fault => rfl
    | ok place => rfl
  · rcases Forest.exists_first (hparent.resolve_left hroot) with
      ⟨c, p, hfind, hnodes, hid, hbefore⟩
    -- The siblings are all the children of the parent, so the gap is as wide as they are.
    refine ⟨c.inside p (.between [] []), p.children, ?_, fun index => ?_⟩
    · rw [c.fill_inside, Clearing.fill, List.nil_append, List.append_nil, Node.with_children rfl,
        hnodes]
    · have hfound : Forest.find? nodes parent = some p := hfind
      have haltered : ∀ place, Forest.alterFirst? (hasId parent)
          (fun p => { p with children := graft fresh place p.children }) nodes
          = some (c.fill [{ p with children := graft fresh place p.children }]) := by
        intro place
        rw [hnodes, Forest.alterFirst?_eq, c.replaceFirst?_fill _ hid hbefore]
      simp only [applyAdd, required, bind, Except.bind, hids, hfresh, hfound, haltered,
        Option.getD_some, pure, Except.pure, c.fill_inside, Clearing.fill, List.nil_append,
        List.append_nil]
      cases placeWanted index with
      | error fault => rfl
      | ok place => rfl

/-- A row with an id that others may have, and a label without an id. -/
def sampleRow : Node :=
  { type := .text "Row", id := .text "a", children := [{ type := .text "Label" }] }

theorem sampleRow_types : ∀ m ∈ sampleRow.depthFirst, ∃ t, m.type.asText? = some t :=
  exists_of_all_isSome (by decide)

/-- With an integer that no list could have for an index an addition fails. -/
theorem add_overflow {nodes : Forest}
    (htexts : ∀ m ∈ Forest.walk nodes, ∃ s, m.id.asText? = some s) {n : Node}
    (htypes : ∀ m ∈ n.depthFirst, ∃ t, m.type.asText? = some t) {parent : Value}
    (hparent : parent = .null ∨ ∃ m ∈ Forest.walk nodes, hasId parent m = true) {i : Int}
    (hfar : ¬ (-indexBound ≤ i ∧ i < indexBound)) :
    (Change.add (some n) parent (.int i)).apply nodes = .error .overflow := by
  rcases Forest.ids_ok htexts with ⟨ids, hids⟩
  rcases withFreshIds_ok htypes (ids.filterMap Value.asText?) with ⟨fresh, hfresh⟩
  rcases applyAdd_eq hids hfresh hparent with ⟨whole, siblings, -, hadd⟩
  have hplace : placeWanted (.int i) = .error .overflow := if_neg hfar
  rw [apply, hadd, hplace]
  rfl

/-- The row cannot go to a place that no list has. -/
theorem sampleColumn_far :
    (∀ m ∈ Forest.walk sampleColumn, ∃ s, m.id.asText? = some s) ∧
    (∀ m ∈ sampleRow.depthFirst, ∃ t, m.type.asText? = some t) ∧
    ¬ ∃ (added : Forest) (said : List Notice),
      (Change.add (some sampleRow) .null (.int indexBound)).apply sampleColumn
        = .ok (added, said) := by
  refine ⟨sampleColumn_apart.texts, sampleRow_types, ?_⟩
  rintro ⟨added, said, happly⟩
  rw [add_overflow sampleColumn_apart.texts sampleRow_types (.inl rfl) (by decide)] at happly
  exact absurd happly (by simp only [reduceCtorEq, not_false_eq_true])

/-- A deletion undoes an addition. In a forest whose ids are texts, which may be empty or occur
    several times, a new subtree whose types are texts and whose parent is there fills a
    clearing where nothing was missing. It is the subtree that was given, with ids that are safe
    and distinct and that nothing in the forest has, and to delete the id that its root has
    got gives the forest as it was. The index is any integer that a list could have for one;
    with any other integer the addition fails. -/
theorem delete_undoes_add {nodes : Forest}
    (htexts : ∀ m ∈ Forest.walk nodes, ∃ s, m.id.asText? = some s) {n : Node}
    (htypes : ∀ m ∈ n.depthFirst, ∃ t, m.type.asText? = some t) {parent : Value}
    (hparent : parent = .null ∨ ∃ m ∈ Forest.walk nodes, hasId parent m = true) :
    (∀ index, IndexLike index → ∃ (around : Clearing) (fresh : Node), nodes = around.fill [] ∧
      (Change.add (some n) parent index).apply nodes = .ok (around.fill [fresh], []) ∧
      Forest.nameless [fresh] = Forest.nameless [n] ∧ Keyed fresh.depthFirst ∧
      (∀ b ∈ fresh.depthFirst, ∀ m ∈ Forest.walk nodes, hasId b.id m = false) ∧
      (Change.delete fresh.id).apply (around.fill [fresh]) = .ok (nodes, [])) ∧
    ∀ i : Int, ¬ (-indexBound ≤ i ∧ i < indexBound) →
      (Change.add (some n) parent (.int i)).apply nodes = .error .overflow := by
  rcases Forest.ids_ok htexts with ⟨ids, hids⟩
  rcases withFreshIds_ok htypes (ids.filterMap Value.asText?) with ⟨fresh, hfresh⟩
  rcases applyAdd_eq hids hfresh hparent with ⟨whole, siblings, hnodes, hadd⟩
  refine ⟨fun index hindex => ?_, fun i hfar => add_overflow htexts htypes hparent hfar⟩
  · rcases placeWanted_ok hindex with ⟨place, hplace⟩
    rcases graft_split fresh place siblings with ⟨front, back, hsiblings, hgraft⟩
    -- The clearing is the gap between the siblings on either side.
    have hempty : nodes = (whole.amid front back).fill [] := by
      rw [whole.fill_amid, List.nil_append, ← hsiblings, hnodes]
    have hfilled : (Change.add (some n) parent index).apply nodes
        = .ok ((whole.amid front back).fill [fresh], []) := by
      rw [apply, hadd index, hplace, Except.map, hgraft, whole.fill_amid, List.singleton_append]
    have hnew := withFreshIds_new hids hfresh
    have hkeyed := (withFreshIds_keyed hfresh).1
    refine ⟨whole.amid front back, fresh, hempty, hfilled, withFreshIds_nameless hfresh, hkeyed,
      hnew, ?_⟩
    have hroot : fresh ∈ fresh.depthFirst := by
      rw [fresh.depthFirst_eq]
      exact List.mem_cons_self
    have hid : hasId fresh.id fresh = true := by
      rcases hkeyed.named fresh hroot with ⟨s, hs, -⟩
      exact (Value.same_iff_of_asText? hs).mpr hs
    rw [delete_fill hid ?_, ← hempty]
    -- What is before the gap is in the forest, but for the children of those above it.
    intro m hm
    have hbare : m.bare ∈ ((whole.amid front back).before []).map Node.bare := by
      rw [Clearing.bare_before _ [] [fresh]]
      exact List.mem_map_of_mem hm
    rcases List.mem_map.mp hbare with ⟨l, hl, hsame⟩
    have hmem : l ∈ Forest.walk nodes := by
      rw [hempty, Clearing.walk_fill]
      exact List.mem_append_left _ hl
    have hidl : m.id = l.id := (congrArg Node.id hsame).symm
    rw [hasId, hidl]
    exact hnew fresh hroot l hmem

/-- In the sample, where two widgets have the same id and two have none, a row goes before the
    children of the second widget and is taken out again. -/
theorem sampleForest_restored :
    (∀ m ∈ Forest.walk sampleForest, ∃ s, m.id.asText? = some s) ∧
    (∀ m ∈ sampleRow.depthFirst, ∃ t, m.type.asText? = some t) ∧
    (∃ m ∈ Forest.walk sampleForest, hasId (.text "") m = true) ∧ IndexLike (.int (-5)) ∧
    ∃ (around : Clearing) (fresh : Node), sampleForest = around.fill [] ∧
      (Change.add (some sampleRow) (.text "") (.int (-5))).apply sampleForest
        = .ok (around.fill [fresh], []) ∧
      (Change.delete fresh.id).apply (around.fill [fresh]) = .ok (sampleForest, []) := by
  have htexts : ∀ m ∈ Forest.walk sampleForest, ∃ s, m.id.asText? = some s :=
    exists_of_all_isSome (by decide)
  have hparent : ∃ m ∈ Forest.walk sampleForest, hasId (.text "") m = true :=
    List.any_eq_true.mp (by decide)
  have hindex : IndexLike (.int (-5)) := .inr ⟨-5, rfl, by decide, by decide⟩
  rcases (delete_undoes_add htexts sampleRow_types (.inr hparent)).1 (.int (-5)) hindex with
    ⟨around, fresh, hempty, hadd, -, -, -, hdelete⟩
  exact ⟨htexts, sampleRow_types, hparent, hindex, around, fresh, hempty, hadd, hdelete⟩

end Change

end WidgetSync
