import WidgetSync.Proofs.Telling

/-!
# One Pass Is Enough

Reading a text and writing it out again gives a text that says the same, and
writing that a second time changes nothing.

The source text may be anything. It need not be well formed, and the widgets in it
need no ids. What was read of it is written once, and reading this gives the same
document. Only the order of properties can differ: those that stand in the place of
a coordinate or an attribute are written first. Nothing that is written depends on
that order, since they are written first from any place.

The document must be firm, that is, no value in it may be one that cannot be found
again and no two things in it may share a name. `unwritten_type` is a text where
this fails.

## Main definitions

* `Document.Alike`: Documents that differ in the order of properties only.
* `documentLines`: The lines of a document.

## Theorems

* `settledDocument_alike`: A firm document is read back as it was.
* `writeDocument_settled`: It is written as before.
* `readDocument_canonical`: Reading and writing once reaches the canonical text.
-/

namespace WidgetSync

namespace Table

variable {α : Type}

/-- The order of entries with different names does not matter. -/
theorem get?_perm {t u : Table α} (h : (names t).Nodup) (hperm : List.Perm t u) (key : String) :
    get? u key = get? t key := by
  have hu : (names u).Nodup := (hperm.map _).nodup h
  cases hget : get? t key with
  | some v => exact get?_of_mem hu (hperm.subset (mem_of_get? hget))
  | none =>
      cases hother : get? u key with
      | none => rfl
      | some v =>
          rw [get?_of_mem h (hperm.symm.subset (mem_of_get? hother))] at hget
          exact absurd hget (by simp only [reduceCtorEq, not_false_eq_true])

theorem nodup_of_names {t : Table α} (h : (names t).Nodup) : t.Nodup :=
  (List.pairwise_map.mp h).imp fun hne heq => hne (congrArg Prod.fst heq)

/-- The entries under some names. -/
def pick (keys : List String) (t : Table α) : Table α :=
  keys.filterMap fun key => (get? t key).map fun v => (key, v)

theorem mem_pick {keys : List String} {t : Table α} {e : String × α} :
    e ∈ pick keys t ↔ e.1 ∈ keys ∧ get? t e.1 = some e.2 := by
  rw [pick, List.mem_filterMap]
  constructor
  · rintro ⟨key, hkey, hsome⟩
    rcases Option.map_eq_some_iff.mp hsome with ⟨v, hv, rfl⟩
    exact ⟨hkey, hv⟩
  · rintro ⟨hkey, hget⟩
    exact ⟨e.1, hkey, by rw [hget]; rfl⟩

end Table

namespace Markup

/-- Entries may be put in front of the others. -/
theorem perm_pick {keys : List String} {t : Fields} (h : (Table.names t).Nodup)
    (hkeys : keys.Nodup) : List.Perm (Table.pick keys t ++ without keys t) t := by
  have ht := Table.nodup_of_names h
  have hpick : (Table.pick keys t).Nodup := by
    have hnames : (Table.names (Table.pick keys t)).Nodup := by
      have hsub : List.Sublist (Table.names (Table.pick keys t)) keys := by
        induction keys with
        | nil => exact List.Sublist.refl _
        | cons k ks ih =>
            have hrest := ih (List.nodup_cons.mp hkeys).2
            rw [Table.pick, List.filterMap_cons]
            cases Table.get? t k with
            | none => exact hrest.cons k
            | some v => exact hrest.cons_cons k
      exact hkeys.sublist hsub
    exact Table.nodup_of_names hnames
  have hnodup : (Table.pick keys t ++ without keys t).Nodup := by
    refine List.nodup_append.mpr ⟨hpick, ht.sublist List.filter_sublist, fun e he f hf heq => ?_⟩
    subst heq
    exact without_mem hf (Table.mem_pick.mp he).1
  -- No entry is there twice on either side, so it is enough that the same ones are there.
  refine (List.perm_ext_iff_of_nodup hnodup ht).mpr fun e => ?_
  rw [List.mem_append, Table.mem_pick]
  constructor
  · rintro (⟨-, hget⟩ | hmem)
    · exact Table.mem_of_get? hget
    · exact (List.mem_filter.mp hmem).1
  · intro hmem
    by_cases hkey : e.1 ∈ keys
    · exact .inl ⟨hkey, Table.get?_of_mem h hmem⟩
    · refine .inr (List.mem_filter.mpr ⟨hmem, ?_⟩)
      rw [Bool.not_eq_true', List.contains_eq_mem, decide_eq_false hkey]

theorem without_cons {key : String} {keys : List String} {t : Fields}
    (h : Table.get? t key = none) (hnodup : (Table.names t).Nodup) :
    without (key :: keys) t = without keys t := by
  refine List.filter_congr fun f hf => ?_
  have hne : f.1 ≠ key := by
    rintro rfl
    rw [Table.get?_of_mem hnodup hf] at h
    exact absurd h (by simp only [reduceCtorEq, not_false_eq_true])
  rw [List.contains_cons, beq_eq_false_iff_ne.mpr hne, Bool.false_or]

theorem without_pick (key : String) (keys : List String) (t : Fields) :
    without (key :: keys) (Table.pick keys t ++ without keys t) = without (key :: keys) t := by
  have hpick : without (key :: keys) (Table.pick keys t) = [] := by
    refine List.filter_eq_nil_iff.mpr fun f hf => ?_
    have hmem : (key :: keys).contains f.1 = true := by
      rw [List.contains_iff_mem]
      exact List.mem_cons_of_mem key (Table.mem_pick.mp hf).1
    rw [hmem]
    decide
  have hrest : without (key :: keys) (without keys t) = without (key :: keys) t := by
    rw [without, without, without, List.filter_filter]
    refine List.filter_congr fun f _ => ?_
    rw [List.contains_cons, Bool.not_or, Bool.and_assoc, Bool.and_self]
  have happend : without (key :: keys) (Table.pick keys t ++ without keys t)
      = without (key :: keys) (Table.pick keys t) ++ without (key :: keys) (without keys t) :=
    List.filter_append ..
  rw [happend, hpick, hrest, List.nil_append]

theorem filterMap_pick {β : Type} {keys : List String} {t : Fields} (f : String × Value → Option β)
    (h : ∀ e ∈ t, e.1 ∈ keys → f e = none) :
    (Table.pick keys t ++ without keys t).filterMap f = t.filterMap f := by
  have hpick : (Table.pick keys t).filterMap f = [] := by
    refine List.filterMap_eq_nil_iff.mpr fun e he => ?_
    rcases Table.mem_pick.mp he with ⟨hkey, hget⟩
    exact h e (Table.mem_of_get? hget) hkey
  have hmap : ∀ g : String × Value → Option β, t.filterMap g = (t.map g).filterMap id := by
    intro g
    rw [List.filterMap_map]
    rfl
  rw [List.filterMap_append, hpick, List.nil_append, without, List.filterMap_filter, hmap, hmap f]
  refine congrArg _ (List.map_congr_left fun e he => ?_)
  by_cases hkey : e.1 ∈ keys
  · rw [h e he hkey]
    split
    · rfl
    · rfl
  · rw [if_pos]
    rw [Bool.not_eq_true', List.contains_eq_mem, decide_eq_false hkey]

end Markup

mutual

/-- Widgets that differ in the order of properties only. -/
def Node.Alike : Node → Node → Prop
  | ⟨type, id, x, y, width, height, properties, children⟩, m =>
    m.type = type ∧ m.id = id ∧ (m.x = x ∧ m.y = y ∧ m.width = width ∧ m.height = height) ∧
      List.Perm m.properties properties ∧ Forest.Alike children m.children

/-- Forests that differ in the order of properties only. -/
def Forest.Alike : List Node → List Node → Prop
  | [], ms => ms = []
  | n :: ns, ms => ∃ k ks, ms = k :: ks ∧ n.Alike k ∧ Forest.Alike ns ks

end

/-- Documents that differ in the order of properties only. -/
structure Document.Alike (d e : Document) : Prop where
  window : e.window.width = d.window.width ∧ e.window.height = d.window.height ∧
    e.window.title = d.window.title ∧ e.window.visible = d.window.visible
  properties : List.Perm e.window.properties d.window.properties
  nodes : Forest.Alike d.nodes e.nodes

namespace Markup

theorem FirmPlace.settled {properties : Fields} {key : String} {usual number : Value}
    (h : FirmPlace properties key usual number) :
    settledPlace properties key usual number = number ∧
      (bound? properties key).map Value.raw = properties.get? key := by
  unfold FirmPlace at h
  unfold settledPlace bound?
  cases hget : properties.get? key with
  | none => exact ⟨rfl, rfl⟩
  | some v =>
      rw [hget] at h
      cases v with
      | raw s => exact ⟨h.2.symm, rfl⟩
      | _ => exact absurd h.1 (by simp only [Value.isRaw, Bool.false_eq_true, not_false_eq_true])

/-- In a firm widget the bindings of coordinates and sizes come first. -/
theorem settled_firm {type id x y width height : Value} {properties : Fields} {children : List Node}
    (hfirm : FirmNode ⟨type, id, x, y, width, height, properties, children⟩)
    (hnodup : (Table.names properties).Nodup) :
    Node.settled ⟨type, id, x, y, width, height, properties, children⟩
      = ⟨type, id, x, y, width, height,
          Table.pick Catalog.geometry properties ++ without Catalog.geometry properties,
          Forest.settled children⟩ := by
  have hx := FirmPlace.settled hfirm.x
  have hy := FirmPlace.settled hfirm.y
  have hwidth := FirmPlace.settled hfirm.width
  have hheight := FirmPlace.settled hfirm.height
  -- A place that is bound to source text is found again among the bindings, and one that is
  -- a number has no property, so the bindings are all there is under these names.
  have hbindings : bindings properties = Table.pick Catalog.geometry properties := by
    simp only [bindings, Table.pick, Catalog.geometry, List.filterMap_cons, List.filterMap_nil,
      ← hx.2, ← hy.2, ← hwidth.2, ← hheight.2, Option.map_map]
    rfl
  have hwithout : without ("id" :: Catalog.geometry) properties
      = without Catalog.geometry properties := without_cons hfirm.id hnodup
  rw [Node.settled]
  simp only [settledProperties, hbindings, hwithout, hx.1, hy.1, hwidth.1, hheight.1]

-- Nothing under a coordinate or a size names a type.
theorem place_raw {n : Node} (hfirm : FirmNode n) (hnodup : (Table.names n.properties).Nodup) :
    ∀ f ∈ n.properties, f.1 ∈ Catalog.geometry → ∃ s, f.2 = .raw s := by
  intro f hf hkey
  have hget := Table.get?_of_mem hnodup hf
  have hraw : ∀ {usual number : Value}, FirmPlace n.properties f.1 usual number →
      ∃ s, f.2 = .raw s := by
    intro usual number hplace
    unfold FirmPlace at hplace
    rw [hget] at hplace
    cases hv : f.2 with
    | raw s => exact ⟨s, rfl⟩
    | _ =>
        rw [hv] at hplace
        exact absurd hplace.1 (by simp only [Value.isRaw, Bool.false_eq_true, not_false_eq_true])
  simp only [Catalog.geometry, List.mem_cons, List.not_mem_nil, or_false] at hkey
  rcases hkey with hkey | hkey | hkey | hkey
  · exact hraw (hkey ▸ hfirm.x)
  · exact hraw (hkey ▸ hfirm.y)
  · exact hraw (hkey ▸ hfirm.width)
  · exact hraw (hkey ▸ hfirm.height)

/-- What a widget needs to be written as it will be read. -/
def Steady (n : Node) : Prop :=
  FirmNode n ∧ (Table.names n.properties).Nodup

theorem geometry_nodup : Catalog.geometry.Nodup := by decide

-- Every line of a widget is found by name, so the order of its properties is not seen.
theorem geometryLine_perm {t u : Fields} (h : (Table.names t).Nodup) (hperm : List.Perm u t)
    (depth : Nat) (key : String) (number : Value) :
    geometryLine depth u key number = geometryLine depth t key number := by
  unfold geometryLine
  rw [Table.get?_perm h hperm.symm]

theorem typesNamed_settled {n : Node} (h : Steady n) : typesNamed n.settled = typesNamed n := by
  have hraw := place_raw h.1 h.2
  obtain ⟨type, id, x, y, width, height, properties, children⟩ := n
  rw [settled_firm h.1 h.2]
  unfold typesNamed
  -- The bindings have moved to the front, but they are source text and name no type.
  refine congrArg _ (filterMap_pick _ fun e he hkey => ?_)
  obtain ⟨key, v⟩ := e
  rcases hraw _ he hkey with ⟨s, hs⟩
  simp only at hs
  subst hs
  rfl

end Markup

mutual

theorem Node.settled_alike : ∀ n : Node, (∀ m ∈ n.depthFirst, Markup.Steady m) →
    n.Alike n.settled
  | ⟨type, id, x, y, width, height, properties, children⟩ => by
    intro h
    obtain ⟨hn, hbelow⟩ := Node.forall_depthFirst.mp h
    rw [Markup.settled_firm hn.1 hn.2, Node.Alike]
    exact ⟨rfl, rfl, ⟨rfl, rfl, rfl, rfl⟩, Markup.perm_pick hn.2 Markup.geometry_nodup,
      Forest.settled_alike children hbelow⟩

/-- Widgets are read back as they were, up to the order of properties. -/
theorem Forest.settled_alike : ∀ ns : List Node, (∀ m ∈ Forest.walk ns, Markup.Steady m) →
    Forest.Alike ns (Forest.settled ns)
  | [] => by
    intro _
    rw [Forest.settled, Forest.Alike]
  | n :: ns => by
    intro h
    obtain ⟨hn, hns⟩ := Forest.forall_walk_cons.mp h
    rw [Forest.settled, Forest.Alike]
    exact ⟨_, _, rfl, Node.settled_alike n hn, Forest.settled_alike ns hns⟩

end

mutual

theorem Node.lines_settled (depth : Nat) : ∀ n : Node, (∀ m ∈ n.depthFirst, Markup.Steady m) →
    Markup.nodeLines depth n.settled = Markup.nodeLines depth n
  | ⟨type, id, x, y, width, height, properties, children⟩ => by
    intro h
    obtain ⟨hn, hbelow⟩ := Node.forall_depthFirst.mp h
    have hperm := Markup.perm_pick hn.2 Markup.geometry_nodup
    have hinside := Forest.lines_settled (depth + 1) children hbelow
    -- The coordinates and sizes have lines of their own, and the other properties are in
    -- the same order.
    rw [Markup.settled_firm hn.1 hn.2, Markup.nodeLines, Markup.nodeLines, hinside,
      Markup.without_pick]
    simp only [Markup.geometryLine_perm hn.2 hperm]

/-- Widgets as they are read back are written as before. -/
theorem Forest.lines_settled (depth : Nat) : ∀ ns : List Node,
    (∀ m ∈ Forest.walk ns, Markup.Steady m) →
    Markup.forestLines depth (Forest.settled ns) = Markup.forestLines depth ns
  | [] => by
    intro _
    rw [Forest.settled]
  | n :: ns => by
    intro h
    obtain ⟨hn, hns⟩ := Forest.forall_walk_cons.mp h
    rw [Forest.settled, Markup.forestLines, Markup.forestLines, Node.lines_settled depth n hn,
      Forest.lines_settled depth ns hns]

end

mutual

theorem Node.types_settled : ∀ n : Node, (∀ m ∈ n.depthFirst, Markup.Steady m) →
    n.settled.depthFirst.flatMap Markup.typesNamed = n.depthFirst.flatMap Markup.typesNamed
  | ⟨type, id, x, y, width, height, properties, children⟩ => by
    intro h
    obtain ⟨hn, hbelow⟩ := Node.forall_depthFirst.mp h
    have hinside := Forest.types_settled children hbelow
    have htypes := Markup.typesNamed_settled hn
    rw [Node.depthFirst_eq, Node.depthFirst_eq, List.flatMap_cons, List.flatMap_cons, htypes]
    rw [Node.settled]
    exact congrArg _ hinside

/-- Widgets as they are read back need the same imports. -/
theorem Forest.types_settled : ∀ ns : List Node, (∀ m ∈ Forest.walk ns, Markup.Steady m) →
    (Forest.walk (Forest.settled ns)).flatMap Markup.typesNamed
      = (Forest.walk ns).flatMap Markup.typesNamed
  | [] => by
    intro _
    rw [Forest.settled]
  | n :: ns => by
    intro h
    obtain ⟨hn, hns⟩ := Forest.forall_walk_cons.mp h
    rw [Forest.settled, Forest.walk_cons, Forest.walk_cons, List.flatMap_append,
      List.flatMap_append, Node.types_settled n hn, Forest.types_settled ns hns]

end

namespace Markup

theorem windowHeader_names {w : Window} {header : List (String × String)}
    (h : windowHeader w = .ok header) : header.map (·.1) = attributeNames := by
  unfold windowHeader at h
  cases hwidth : literal w.width with
  | error e =>
      rw [hwidth] at h
      exact absurd h (by simp only [bind, Except.bind, reduceCtorEq, not_false_eq_true])
  | ok width =>
      rw [hwidth] at h
      cases hheight : literal w.height with
      | error e =>
          rw [hheight] at h
          exact absurd h (by simp only [bind, Except.bind, reduceCtorEq, not_false_eq_true])
      | ok height =>
          rw [hheight] at h
          simp only [bind, Except.bind, pure, Except.pure, Except.ok.injEq] at h
          rw [← h]
          rfl

/-- The window as it is read back is written as before. -/
theorem windowLines_settled {s : Settings} {w : Window} (hfirm : FirmWindow s w)
    (hnodup : (Table.names w.properties).Nodup) :
    windowLines (settledWindow s w) = windowLines w := by
  have hplaces := hfirm.places
  have hperm : List.Perm (settledWindow s w).properties w.properties := by
    have hwithout : without ("id" :: attributeNames) w.properties
        = without attributeNames w.properties := without_cons hfirm.id hnodup
    rw [settledWindow]
    simp only [hwithout]
    exact perm_pick hnodup (by decide)
  have hothers : without ("id" :: attributeNames) (settledWindow s w).properties
      = without ("id" :: attributeNames) w.properties := by
    have hwithout : without ("id" :: attributeNames) w.properties
        = without attributeNames w.properties := without_cons hfirm.id hnodup
    have hsettled : (settledWindow s w).properties
        = Table.pick attributeNames w.properties ++ without attributeNames w.properties := by
      rw [← hwithout]
      rfl
    rw [hsettled, without_pick]
  have hheader : windowHeader (settledWindow s w) = windowHeader w := by
    unfold windowHeader
    rw [hplaces.1, hplaces.2.1, hplaces.2.2.1, hplaces.2.2.2]
  have hattribute : ∀ key text, attributeLines (settledWindow s w).properties key text
      = attributeLines w.properties key text := by
    intro key text
    unfold attributeLines
    rw [Table.get?_perm hnodup hperm.symm]
  rw [windowLines_eq, windowLines_eq, hheader]
  cases hlines : windowHeader w with
  | error e => rfl
  | ok header =>
      simp only [bind, Except.bind, hattribute, windowHeader_names hlines, hothers]

/-- A firm document is read back as it was. -/
theorem settledDocument_alike {s : Settings} {d : Document} (h : GainedDocument s d)
    (hfirm : FirmDocument s d) : d.Alike (settledDocument s d) := by
  have hsteady : ∀ n ∈ Forest.walk d.nodes, Steady n := fun n hn =>
    ⟨hfirm.nodes n hn, (h.nodes n hn).fields.nodup⟩
  have hnodup := h.window.fields.nodup
  refine ⟨hfirm.window.places, ?_, Forest.settled_alike d.nodes hsteady⟩
  have hwithout : without ("id" :: attributeNames) d.window.properties
      = without attributeNames d.window.properties := without_cons hfirm.window.id hnodup
  rw [settledDocument, settledWindow]
  simp only [hwithout]
  exact perm_pick hnodup (by decide)

/-- It is written as before. -/
theorem writeDocument_settled {s : Settings} {d : Document} (h : GainedDocument s d)
    (hfirm : FirmDocument s d) : writeDocument (settledDocument s d) = writeDocument d := by
  have hsteady : ∀ n ∈ Forest.walk d.nodes, Steady n := fun n hn =>
    ⟨hfirm.nodes n hn, (h.nodes n hn).fields.nodup⟩
  have himports : importsOf (Forest.settled d.nodes) = importsOf d.nodes := by
    rw [importsOf_eq, importsOf_eq, Forest.types_settled d.nodes hsteady]
  rw [settledDocument, writeDocument, writeDocument]
  simp only [himports, windowLines_settled hfirm.window h.window.fields.nodup,
    Forest.lines_settled 1 d.nodes hsteady]

/-- Reading and writing once reaches the canonical text. -/
theorem readDocument_canonical (s : Settings) (source : String)
    (h : FirmDocument s (readDocument s source).1) :
    ∃ text, writeDocument (readDocument s source).1 = .ok text ∧
      (readDocument s source).1.Alike (readDocument s text).1 ∧
      writeDocument (readDocument s text).1 = .ok text := by
  -- What is read is gained, and what is gained and firm can be written legibly.
  have hgained := readDocument_gained s source
  rcases readDocument_writeDocument s (hgained.legible h) with ⟨text, htext, hread⟩
  refine ⟨text, htext, ?_, ?_⟩
  · rw [hread]
    exact settledDocument_alike hgained h
  · rw [hread, writeDocument_settled hgained h, htext]

/-- A button as somebody might type it. -/
def sampleSource : String :=
  "Button \x7b onClicked: \x7b save(); close() \x7d text: qsTr(\"ok\"); width: parent.width \x7d"

theorem sampleSource_canonical :
    FirmDocument {} (readDocument {} sampleSource).1 ∧
      ∃ text, writeDocument (readDocument {} sampleSource).1 = .ok text ∧
        (readDocument {} sampleSource).1.Alike (readDocument {} text).1 ∧
        writeDocument (readDocument {} text).1 = .ok text := by
  have hfirm : FirmDocument {} (readDocument {} sampleSource).1 :=
    firmDocument_of_isFirmDocument (by decide +kernel)
  exact ⟨hfirm, readDocument_canonical {} sampleSource hfirm⟩

/-- The lines of a document. -/
def documentLines (d : Document) : Except Fault (List String) := do
  let imports ← importsOf d.nodes
  let attributes ← windowLines d.window
  let widgets ← forestLines 1 d.nodes
  return imports ++ ["", "ApplicationWindow \x7b", s!"{indent 1}id: window"]
    ++ attributes ++ widgets ++ ["\x7d"]

/-- A document is written line by line. -/
theorem writeDocument_lines (d : Document) :
    writeDocument d = (documentLines d).map fun ls => "\n".intercalate ls ++ "\n" := by
  unfold writeDocument documentLines
  cases importsOf d.nodes with
  | error e => rfl
  | ok imports =>
      cases windowLines d.window with
      | error e => rfl
      | ok attributes =>
          cases forestLines 1 d.nodes with
          | error e => rfl
          | ok widgets => rfl

theorem writeDocument_getLast? {d : Document} {text : String} (h : writeDocument d = .ok text) :
    text.toList.getLast? = some '\n' := by
  rw [writeDocument_lines] at h
  cases hlines : documentLines d with
  | error fault =>
      rw [hlines] at h
      exact absurd h (by simp only [Except.map, reduceCtorEq, not_false_eq_true])
  | ok ls =>
      rw [hlines] at h
      rw [← Except.ok.inj h, String.toList_append]
      exact List.getLast?_concat

/-- A button with a handler that does nothing. -/
def emptyHandler : Document :=
  (readDocument {} "Button \x7b onClicked: \x7b\x7d \x7d").1

/-- The handler is gone when what was written is read. -/
theorem emptyHandler_lost :
    emptyHandler.nodes.map (fun n => Table.names n.properties) = [["onClicked"]] ∧
      ∃ text, writeDocument emptyHandler = .ok text ∧
        (readDocument {} text).1.nodes.map (fun n => Table.names n.properties) = [[]] := by
  have hlines : (documentLines emptyHandler).toOption = some
      ["import QtQuick 2.15", "import QtQuick.Controls 2.15", "", "ApplicationWindow \x7b",
        "    id: window", "    width: 800", "    height: 600", "    visible: true",
        "    title: qsTr(\"Qt Designer Application\")", "", "    Button \x7b",
        "        id: button1", "        x: 0", "        y: 0", "        width: 120",
        "        height: 35", "        onClicked: ", "    \x7d", "\x7d"] := by
    decide +kernel
  rw [writeDocument_lines]
  cases hwritten : documentLines emptyHandler with
  | error e =>
      rw [hwritten] at hlines
      exact absurd hlines (by simp only [Except.toOption, reduceCtorEq, not_false_eq_true])
  | ok ls =>
      rw [hwritten] at hlines
      obtain rfl := Option.some.inj hlines
      refine ⟨by decide +kernel, _, rfl, ?_⟩
      rw [readDocument, intercalate_lines (List.cons_ne_nil _ _)]
      decide +kernel

end Markup

end WidgetSync
