import WidgetSync.Proofs.Targets

/-!
# Independent Changes

Changes of two widgets can be made in either order.

Where a widget stands does not matter for a change that finds it by its id. So such a
change can be told without a place: go through the whole forest, make over the widgets of
the id, leave out those that are deleted together with what is below them, and leave the
others alone. That is a `Forest.filterMap`, and two of these, one after the other, are one
again, whose function for each widget is the two functions in turn.

The functions of two changes do not get in each other's way as long as their ids differ
and neither gives another id to its target. This is a question about one widget without
its children. Whether one target is below the other, whether a deletion takes both, and
whether a target is there at all, makes no difference to it.

## Main definitions

* `Forest.filterMap`: A forest with each widget made over, or left out with what is below it.
* `Change.renames`: A change gives another id.
* `Change.aimed`: What is made of the widgets of one id only.

## Theorems

* `Forest.filterMap_filterMap`: Two passes over a forest are one.
* `Clearing.filterMap_fill`: A pass that leaves everything around a clearing alone.
* `Change.exists_pass`: A change that does not rename is a pass.
* `Change.edits_commute`: Changes of two widgets can be made in either order.
-/

namespace WidgetSync

mutual

/-- The tree with each widget made over, or left out with what is below it. What is made of a
    widget does not depend on its children. -/
def Node.filterMap (f : Node → Option Node) : Node → Option Node
  | ⟨type, id, x, y, width, height, properties, children⟩ =>
    (f ⟨type, id, x, y, width, height, properties, []⟩).map fun m =>
      { m with children := Forest.filterMap f children }

/-- The forest with each widget made over, or left out with what is below it. -/
def Forest.filterMap (f : Node → Option Node) : List Node → List Node
  | [] => []
  | n :: ns => (n.filterMap f).toList ++ Forest.filterMap f ns

end

theorem Node.filterMap_eq (f : Node → Option Node) (n : Node) :
    n.filterMap f
      = (f n.bare).map fun m => { m with children := Forest.filterMap f n.children } := by
  cases n
  rfl

namespace Forest

variable {f g : Node → Option Node}

theorem filterMap_cons_none {n : Node} (h : f n.bare = none) (ns : Forest) :
    filterMap f (n :: ns) = filterMap f ns := by
  rw [filterMap, n.filterMap_eq, h]
  rfl

theorem filterMap_cons_some {n m : Node} (h : f n.bare = some m) (ns : Forest) :
    filterMap f (n :: ns) = { m with children := filterMap f n.children } :: filterMap f ns := by
  rw [filterMap, n.filterMap_eq, h]
  rfl

theorem filterMap_append (f : Node → Option Node) (as bs : Forest) :
    filterMap f (as ++ bs) = filterMap f as ++ filterMap f bs := by
  induction as with
  | nil => rw [List.nil_append, filterMap, List.nil_append]
  | cons a as ih => rw [List.cons_append, filterMap, filterMap, ih, List.append_assoc]

/-- Two passes are one. -/
theorem filterMap_filterMap (f g : Node → Option Node) (ns : Forest) :
    filterMap f (filterMap g ns) = filterMap (fun n => (g n).bind fun m => f m.bare) ns := by
  induction ns using Forest.induction with
  | nil => rw [filterMap, filterMap, filterMap]
  | cons n ns below ih =>
      -- What the second pass sees of a root is bare again, so what became of the children below
      -- it in the first pass does not matter to it.
      cases hg : g n.bare with
      | none =>
          rw [filterMap_cons_none hg, ih, filterMap_cons_none (by rw [hg]; rfl)]
      | some m =>
          rw [filterMap_cons_some hg]
          cases hf : f m.bare with
          | none =>
              rw [filterMap_cons_none (n := { m with children := filterMap g n.children }) hf, ih,
                filterMap_cons_none (by rw [hg]; exact hf)]
          | some l =>
              rw [filterMap_cons_some (n := { m with children := filterMap g n.children }) hf, ih,
                below, filterMap_cons_some (m := l) (by rw [hg]; exact hf)]

/-- What is made of the children by the functions is not looked at. -/
theorem filterMap_congr {ns : Forest}
    (h : ∀ n ∈ walk ns, (f n.bare).map Node.bare = (g n.bare).map Node.bare) :
    filterMap f ns = filterMap g ns := by
  induction ns using Forest.induction with
  | nil => rw [filterMap, filterMap]
  | cons n ns below ih =>
      rw [forall_walk_cons, Node.forall_depthFirst] at h
      rcases h with ⟨⟨hn, hbelow⟩, hothers⟩
      have hroot : ∀ (children : Forest) (k : Node → Option Node),
          (k n.bare).map (fun m => { m with children := children })
            = ((k n.bare).map Node.bare).map fun m => { m with children := children } := by
        intro children k
        rw [Option.map_map]
        rfl
      rw [filterMap, filterMap, n.filterMap_eq, n.filterMap_eq, below hbelow, ih hothers,
        hroot _ f, hn, ← hroot _ g]

/-- A pass that leaves all widgets alone. -/
theorem filterMap_self {ns : Forest} (h : ∀ n ∈ walk ns, f n.bare = some n.bare) :
    filterMap f ns = ns := by
  induction ns using Forest.induction with
  | nil => rw [filterMap]
  | cons n ns below ih =>
      rw [forall_walk_cons, Node.forall_depthFirst] at h
      rcases h with ⟨⟨hn, hbelow⟩, hothers⟩
      rw [filterMap_cons_some hn, below hbelow, ih hothers]
      exact congrArg (· :: ns) (Node.with_children (n := n) rfl)

/-- A pass that keeps the ids leaves the ids of some widgets, in their order. -/
theorem ids_filterMap (h : ∀ n m, f n = some m → m.id = n.id) (ns : Forest) :
    ((walk (filterMap f ns)).map (·.id)).Sublist ((walk ns).map (·.id)) := by
  induction ns using Forest.induction with
  | nil => rw [filterMap]
  | cons n ns below ih =>
      rw [walk_cons, Node.depthFirst_eq, List.cons_append, List.map_cons, List.map_append]
      cases hn : f n.bare with
      | none =>
          rw [filterMap_cons_none hn]
          exact (ih.trans (List.sublist_append_right _ _)).trans (List.sublist_cons_self _ _)
      | some m =>
          rw [filterMap_cons_some hn, walk_cons, Node.depthFirst_eq, List.cons_append,
            List.map_cons, List.map_append]
          have hid : m.id = n.id := h n.bare m hn
          rw [← hid]
          exact (below.append ih).cons_cons m.id

end Forest

/-- A pass that leaves everything around a clearing alone. -/
theorem Clearing.filterMap_fill {f : Node → Option Node} {c : Clearing} {ns : Forest}
    (h : ∀ m ∈ c.before ns ++ c.after, f m.bare = some m.bare) :
    Forest.filterMap f (c.fill ns) = c.fill (Forest.filterMap f ns) := by
  induction c with
  | between left right =>
      rw [List.forall_mem_append] at h
      rw [fill, fill, Forest.filterMap_append, Forest.filterMap_append,
        Forest.filterMap_self h.1, Forest.filterMap_self h.2]
  | within left parent inner right ih =>
      rw [before, after, List.forall_mem_append, List.forall_mem_append, List.forall_mem_append,
        List.forall_mem_cons] at h
      rcases h with ⟨⟨hleft, hparent, hbefore⟩, hafter, hright⟩
      rw [fill, fill, Forest.filterMap_append, Forest.filterMap_self hleft,
        Forest.filterMap_cons_some hparent, ih (List.forall_mem_append.mpr ⟨hbefore, hafter⟩),
        Forest.filterMap_self hright]
      rfl

/-- A pass that keeps the ids keeps them apart. -/
theorem Apart.filterMap {nodes : Forest} (h : Apart (Forest.walk nodes))
    {f : Node → Option Node} (hf : ∀ n m, f n = some m → m.id = n.id) :
    Apart (Forest.walk (Forest.filterMap f nodes)) := by
  have hsub := Forest.ids_filterMap hf nodes
  refine ⟨fun n hn => ?_, ?_⟩
  · rcases List.mem_map.mp (hsub.subset (List.mem_map_of_mem hn)) with ⟨m, hm, hid⟩
    rw [← hid]
    exact h.texts m hm
  · have hdistinct := h.distinct
    have htexts : ∀ ms : List Node, ms.map (·.id.asText?) = (ms.map (·.id)).map Value.asText? := by
      intro ms
      rw [List.map_map]
      rfl
    rw [htexts] at hdistinct ⊢
    exact hdistinct.sublist (hsub.map _)

namespace Change

/-- The change gives another id. -/
def renames : Change → Bool
  | .property _ (some key) _ => key.asText? == some "id"
  | _ => false

/-- What is made of a widget if only those of one id are made over. -/
def aimed (id : Value) (edit : Node → Option Node) (n : Node) : Option Node :=
  if hasId id n then edit n else some n

theorem aimed_self {id : Value} {edit : Node → Option Node} {n : Node} (h : hasId id n = true) :
    aimed id edit n = edit n :=
  if_pos h

theorem aimed_other {id : Value} {edit : Node → Option Node} {n : Node} (h : hasId id n = false) :
    aimed id edit n = some n :=
  if_neg (Bool.eq_false_iff.mp h)

theorem aimed_keeps {id : Value} {edit : Node → Option Node}
    (hedit : ∀ n m, edit n = some m → m.id = n.id) (n m : Node) (h : aimed id edit n = some m) :
    m.id = n.id := by
  unfold aimed at h
  split at h
  · exact hedit n m h
  · rw [Option.some.inj h]

/-- A change that neither takes its target out nor renames it alters it in one way, whatever
    else there is in the forest, and passes over its id and its children. -/
theorem alteration_fixed {change : Change} (hcomplete : change.Complete)
    (hdelete : ∀ id, change ≠ .delete id) (hrenames : change.renames = false) :
    ∃ alter : Node → Node, (∀ nodes t, alteration nodes t change = .ok (alter, [])) ∧
      (∀ n, (alter n).id = n.id) ∧
      ∀ n children, alter { n with children } = { alter n with children } := by
  cases hcomplete with
  | move id x y => exact ⟨_, fun _ _ => rfl, fun _ => rfl, fun _ _ => rfl⟩
  | resize id width height => exact ⟨_, fun _ _ => rfl, fun _ => rfl, fun _ _ => rfl⟩
  | delete id => exact absurd rfl (hdelete id)
  | @property id value key name hkey =>
      have hname : name ≠ "id" := by
        rintro rfl
        rw [renames, hkey] at hrenames
        exact absurd hrenames (by decide)
      refine ⟨writeProperty name value, fun nodes t => ?_, fun n =>
        (propertyChange_keep (propertyChange_eq hkey value n) n).2, fun n children => ?_⟩
      · simp only [alteration, required, bind, Except.bind, hkey, Option.some.injEq, hname,
          if_false, propertyChange_eq hkey, pure, Except.pure]
      · have hgeometry : setGeometry name value { n with children }
            = { setGeometry name value n with children } := by
          unfold setGeometry
          split <;> rfl
        unfold writeProperty
        rw [hgeometry]
        split
        · rfl
        · split <;> rfl

/-- A change that does not rename is a pass over the whole forest. -/
theorem exists_pass {change : Change} {id : Value} (htarget : change.target? = some id)
    (hcomplete : change.Complete) (hrenames : change.renames = false) :
    ∃ edit : Node → Option Node, (∀ n m, edit n = some m → m.id = n.id) ∧
      ∀ nodes, Apart (Forest.walk nodes) → ∃ said,
        change.apply nodes = .ok (Forest.filterMap (aimed id edit) nodes, said) := by
  -- It is enough to look at the clearing of the target, if there is one.
  have hpass : ∀ (edit : Node → Option Node) (nodes : Forest), Apart (Forest.walk nodes) →
      (∀ (around : Clearing) (t : Node), nodes = around.fill [t] → hasId id t = true →
        (∀ m ∈ around.before [t], hasId id m = false) →
        ∃ said, change.apply nodes = .ok (around.fill
          ((edit t.bare).map fun m => { m with children := t.children }).toList, said)) →
      ∃ said, change.apply nodes = .ok (Forest.filterMap (aimed id edit) nodes, said) := by
    intro edit nodes h hfill
    rcases Forest.search (hasId id) nodes with hnone | ⟨around, t, -, rfl, hid, hbefore⟩
    · rw [Forest.filterMap_self fun m hm => aimed_other (n := m.bare) (hnone m hm)]
      exact ⟨_, apply_absent htarget hnone⟩
    · rcases hfill around t rfl hid hbefore with ⟨said, happly⟩
      refine ⟨said, ?_⟩
      rw [around.walk_fill_singleton] at h
      have hothers := h.others hid
      rw [List.forall_mem_append, List.forall_mem_append] at hothers
      rcases hothers with ⟨hfront, hbelow, hback⟩
      rw [Clearing.filterMap_fill fun m hm => aimed_other (n := m.bare)
          ((List.mem_append.mp hm).elim (hfront m) (hback m)),
        Forest.filterMap, Forest.filterMap, List.append_nil, t.filterMap_eq,
        aimed_self (n := t.bare) hid,
        Forest.filterMap_self fun m hm => aimed_other (n := m.bare) (hbelow m hm), happly]
  by_cases hdelete : ∃ id', change = .delete id'
  · obtain ⟨id', rfl⟩ := hdelete
    obtain rfl : id' = id := Option.some.inj htarget
    refine ⟨fun _ => none, fun _ _ hnone => absurd hnone (Option.some_ne_none _).symm,
      fun nodes h => ?_⟩
    refine hpass _ nodes h fun around t hnodes hid hbefore => ⟨[], ?_⟩
    rw [hnodes, delete_fill hid hbefore]
    rfl
  · rw [not_exists] at hdelete
    rcases alteration_fixed hcomplete hdelete hrenames with ⟨alter, halteration, hkeep, hpasses⟩
    refine ⟨fun n => some (alter n), fun n m hm => by rw [← Option.some.inj hm, hkeep],
      fun nodes h => ?_⟩
    refine hpass _ nodes h fun around t hnodes hid hbefore => ⟨[], ?_⟩
    have halter : { alter t.bare with children := t.children } = alter t := by
      rw [← hpasses]
      exact congrArg alter (Node.with_children (n := t) rfl)
    rw [hnodes, apply_of_target htarget hdelete, applyTo_fill hid hbefore (halteration _ t),
      Option.map_some, halter]
    rfl

/-- What changes of two ids make of one widget does not depend on their order. -/
theorem aimed_comm {i j : Value} {edit edit' : Node → Option Node}
    (hedit : ∀ n m, edit n = some m → m.id = n.id)
    (hedit' : ∀ n m, edit' n = some m → m.id = n.id) {n : Node}
    (hdiffer : hasId i n = true → hasId j n = false) :
    ((aimed i edit n.bare).bind fun m => aimed j edit' m.bare).map Node.bare
      = ((aimed j edit' n.bare).bind fun m => aimed i edit m.bare).map Node.bare := by
  -- An edit by itself keeps the widget out of the reach of the other.
  have hother : ∀ (k : Value) (e e' : Node → Option Node), (∀ n m, e n = some m → m.id = n.id) →
      hasId k n = false →
      ((e n.bare).bind fun m => aimed k e' m.bare).map Node.bare = (e n.bare).map Node.bare := by
    intro k e e' he hk
    cases hm : e n.bare with
    | none => rfl
    | some m =>
        have hid : hasId k m.bare = false := by
          rw [← hk]
          exact congrArg (Value.same · k) (he n.bare m hm)
        rw [Option.bind_some, aimed_other hid]
        rfl
  by_cases hi : hasId i n = true
  · rw [aimed_self (n := n.bare) hi, aimed_other (n := n.bare) (hdiffer hi),
      hother j edit edit' hedit (hdiffer hi)]
    exact congrArg (Option.map Node.bare) (aimed_self (n := n.bare) hi).symm
  · rw [Bool.not_eq_true] at hi
    rw [aimed_other (n := n.bare) hi, hother i (aimed j edit') edit (aimed_keeps hedit') hi]
    rfl

/-- Changes of two widgets can be made in either order: both succeed, and the forest is the same
    in the end. They have all that they need and neither gives another id. One of them may be
    below the other and go with it, and either may not be there. -/
theorem edits_commute {nodes : Forest} (h : Apart (Forest.walk nodes)) {a b : Change}
    (ha : a.Complete) (hb : b.Complete) (hrenames : a.renames = false)
    (hrenames' : b.renames = false) {i j : Value} (htarget : a.target? = some i)
    (htarget' : b.target? = some j) (hdiffer : i.same j = false) :
    ∃ (first second both : Forest) (said₁ said₂ said₃ said₄ : List Notice),
      a.apply nodes = .ok (first, said₁) ∧ b.apply first = .ok (both, said₂) ∧
      b.apply nodes = .ok (second, said₃) ∧ a.apply second = .ok (both, said₄) := by
  rcases exists_pass htarget ha hrenames with ⟨edit, hedit, hpass⟩
  rcases exists_pass htarget' hb hrenames' with ⟨edit', hedit', hpass'⟩
  rcases hpass nodes h with ⟨said₁, hfirst⟩
  rcases hpass' _ (h.filterMap (aimed_keeps hedit)) with ⟨said₂, hboth⟩
  rcases hpass' nodes h with ⟨said₃, hsecond⟩
  rcases hpass _ (h.filterMap (aimed_keeps hedit')) with ⟨said₄, hboth'⟩
  refine ⟨_, _, _, said₁, said₂, said₃, said₄, hfirst, hboth, hsecond, ?_⟩
  rw [hboth', Forest.filterMap_filterMap, Forest.filterMap_filterMap]
  refine congrArg (fun ns => Except.ok (ns, said₄)) (Forest.filterMap_congr fun n hn => ?_)
  refine aimed_comm hedit' hedit fun hj => Bool.eq_false_iff.mpr fun hi => ?_
  -- A widget with both ids would make them the same.
  rcases h.texts n hn with ⟨s, hs⟩
  have htext := (Value.same_iff_of_asText? hs).mp hi
  rw [(Value.same_iff_of_asText? htext).mpr ((Value.same_iff_of_asText? hs).mp hj)] at hdiffer
  exact absurd hdiffer (by decide)

/-- A column is deleted and the button in it gets a text, in either order. -/
theorem sampleColumn_commutes :
    Apart (Forest.walk sampleColumn) ∧
    (Value.text "column").same (.text "button") = false ∧
    ∃ (first second both : Forest) (said₁ said₂ said₃ said₄ : List Notice),
      (Change.delete (.text "column")).apply sampleColumn = .ok (first, said₁) ∧
      (Change.property (.text "button") (some (.text "text")) (some (.text "b"))).apply first
        = .ok (both, said₂) ∧
      (Change.property (.text "button") (some (.text "text")) (some (.text "b"))).apply sampleColumn
        = .ok (second, said₃) ∧
      (Change.delete (.text "column")).apply second = .ok (both, said₄) :=
  ⟨sampleColumn_apart, by decide, edits_commute sampleColumn_apart (.delete _)
    (.property _ _ rfl) rfl (by decide) rfl rfl (by decide)⟩

end Change

end WidgetSync
