import WidgetSync.Proofs.Keys
import WidgetSync.Proofs.Typed

/-!
# Edits of Typed Forests

Changes keep a forest within what a text can hold.

An editor changes a forest by values of the right kind: it moves and resizes widgets
to integers, sets listed properties, geometry and ids, and brings in widgets whose
properties are typed. The ids that it brings in are texts of any sort. If the forest
was typed and its ids were safe and different, so it is after such a change.

Every change keeps ids safe and different, whatever it brings in. What is left to show
speaks of one widget at a time: the widgets of the forest before, those of a new subtree
and the one that is altered have values of the right kind, and no change makes others.
Whether all integers are short enough to be written is kept track of too, for changes
that bring in short ones only.

## Main definitions

* `Regular`: A widget with typed values, perhaps short ones.
* `Orderly`: Regular widgets with safe ids that differ.
* `Incoming`: Regular widgets whose ids are texts of any sort.
* `TypedChange`: A change by values of the right kind.

## Theorems

* `orderly_iff`: Being orderly, told as two things.
* `TypedChange.alteration_regular`: A changed widget is regular.
* `TypedChange.apply`: Changes keep a forest orderly.
-/

namespace WidgetSync

open Markup

/-- A widget whose values, apart from its id and its children, are of the right kind.
    If they have to be `short`, its integers can be written. -/
structure Regular (short : Prop) (n : Node) : Prop extends TypedBody n where
  fits : short → n.fits = true

/-- Regular widgets with safe ids that differ. -/
structure Orderly (short : Prop) (ms : List Node) : Prop where
  regular : ∀ m ∈ ms, Regular short m
  named : ∀ m ∈ ms, ∃ s, m.id = .text s ∧ isSafeId s = true
  distinct : (ms.map (·.id)).Nodup

variable {short : Prop}

/-- Only the shell of a widget counts for its being regular. -/
theorem Regular.of_shell {m n : Node} (h : Regular short m) (hshell : n.shell = m.shell) :
    Regular short n := by
  obtain ⟨type, id, x, y, width, height, properties, children⟩ := m
  obtain ⟨type', id', x', y', width', height', properties', children'⟩ := n
  simp only [Node.shell, Prod.mk.injEq] at hshell
  rcases hshell with ⟨rfl, ⟨rfl, rfl, rfl, rfl⟩, rfl⟩
  exact ⟨⟨h.type, h.x, h.y, h.width, h.height, h.nodup, h.properties⟩, h.fits⟩

/-- The widget with other properties is regular if they are. -/
theorem Regular.with_properties {n : Node} (h : Regular short n) {properties : Fields}
    (hnodup : (Table.names properties).Nodup) (htyped : ∀ f ∈ properties, Typed f.1 f.2)
    (hshort : short → Value.writableEntries properties = true) :
    Regular short { n with properties } := by
  refine ⟨⟨h.type, h.x, h.y, h.width, h.height, hnodup, htyped⟩, fun hs => ?_⟩
  have hfits := h.fits hs
  rw [Node.fits, Bool.and_eq_true] at hfits ⊢
  exact ⟨hfits.1, hshort hs⟩

theorem Regular.writable_properties {n : Node} (h : Regular short n) (hs : short) :
    Value.writableEntries n.properties = true := by
  have hfits := h.fits hs
  rw [Node.fits, Bool.and_eq_true] at hfits
  exact hfits.2

/-- A widget loses properties. -/
theorem Regular.dropProperties {n : Node} (h : Regular short n) (keys : List String) :
    Regular short (Change.dropProperties keys n) := by
  rw [Change.dropProperties]
  induction keys generalizing n with
  | nil =>
      cases n
      exact h
  | cons key keys ih =>
      have hsub := Table.erase_sublist n.properties key
      have herased : Regular short { n with properties := n.properties.erase key } :=
        h.with_properties (h.nodup.sublist (hsub.map _))
          (fun f hf => h.properties f (hsub.subset hf))
          fun hs => writableEntries_of_forall fun f hf =>
            writable_of_mem (h.writable_properties hs) (hsub.subset hf)
      exact ih herased

/-- A widget gets a typed property. -/
theorem Regular.set_property {n : Node} (h : Regular short n) {key : String} {v : Value}
    (hv : Typed key v) (hshort : short → v.writable = true) :
    Regular short { n with properties := n.properties.set key v } := by
  refine h.with_properties (Table.nodup_set h.nodup key v) (fun f hf => ?_) fun hs =>
    writableEntries_of_forall fun f hf => ?_
  · rcases Table.mem_set hf with rfl | hf
    · exact hv
    · exact h.properties f hf
  · rcases Table.mem_set hf with rfl | hf
    · exact hshort hs
    · exact writable_of_mem (h.writable_properties hs) hf

/-- A widget gets another place or size. -/
theorem Regular.setGeometry {n : Node} (h : Regular short n) (key : String) {i : Int}
    (hshort : short → (Value.int i).writable = true) :
    Regular short (Change.setGeometry key (.int i) n) := by
  have hfits : short → n.x.writable = true ∧ n.y.writable = true ∧ n.width.writable = true ∧
      n.height.writable = true ∧ Value.writableEntries n.properties = true := by
    intro hs
    simpa only [Node.fits, List.all_cons, List.all_nil, Bool.and_true, Bool.and_eq_true,
      and_assoc] using h.fits hs
  -- Each of the four keys replaces one of the values and keeps the others.
  have hnode : ∀ {x y width height : Value}, (∃ i, x = .int i) → (∃ i, y = .int i) →
      (∃ i, width = .int i) → (∃ i, height = .int i) →
      (short → x.writable = true ∧ y.writable = true ∧ width.writable = true ∧
        height.writable = true) →
      Regular short { n with x, y, width, height } := by
    intro x y width height hx hy hwidth hheight hall
    refine ⟨⟨h.type, hx, hy, hwidth, hheight, h.nodup, h.properties⟩, fun hs => ?_⟩
    simp only [Node.fits, List.all_cons, List.all_nil, Bool.and_true, (hall hs).1, (hall hs).2.1,
      (hall hs).2.2.1, (hall hs).2.2.2, (hfits hs).2.2.2.2]
  unfold Change.setGeometry
  split
  · exact hnode ⟨i, rfl⟩ h.y h.width h.height fun hs =>
      ⟨hshort hs, (hfits hs).2.1, (hfits hs).2.2.1, (hfits hs).2.2.2.1⟩
  · exact hnode h.x ⟨i, rfl⟩ h.width h.height fun hs =>
      ⟨(hfits hs).1, hshort hs, (hfits hs).2.2.1, (hfits hs).2.2.2.1⟩
  · exact hnode h.x h.y ⟨i, rfl⟩ h.height fun hs =>
      ⟨(hfits hs).1, (hfits hs).2.1, hshort hs, (hfits hs).2.2.2.1⟩
  · exact hnode h.x h.y h.width ⟨i, rfl⟩ fun hs =>
      ⟨(hfits hs).1, (hfits hs).2.1, (hfits hs).2.2.1, hshort hs⟩
  · exact h

/-- Widgets with the shells of regular ones are regular. -/
theorem regular_of_shells {ms ns : List Node} (h : ms.map Node.shell = ns.map Node.shell)
    (hns : ∀ n ∈ ns, Regular short n) : ∀ m ∈ ms, Regular short m := by
  intro m hm
  have hmem : m.shell ∈ ns.map Node.shell := by
    rw [← h]
    exact List.mem_map_of_mem hm
  rcases List.mem_map.mp hmem with ⟨n, hn, hshell⟩
  exact (hns n hn).of_shell hshell.symm

/-- Widgets that come from outside: their values are of the right kind, and their ids are
    texts of any sort. -/
def Incoming (short : Prop) (ms : List Node) : Prop :=
  ∀ m ∈ ms, Regular short m ∧ ∃ s, m.id = .text s

/-- A change by values of the right kind. -/
inductive TypedChange (short : Prop) : Change → Prop where
  /-- A new subtree, anywhere. -/
  | add {n : Node} {parent index : Value} (hn : Incoming short n.depthFirst) :
      TypedChange short (.add (some n) parent index)
  /-- A new place. -/
  | move {id : Value} {x y : Int}
      (hshort : short → (Value.int x).writable = true ∧ (Value.int y).writable = true) :
      TypedChange short (.move id (some (.int x)) (some (.int y)))
  /-- A new size. -/
  | resize {id : Value} {width height : Int}
      (hshort : short → (Value.int width).writable = true ∧ (Value.int height).writable = true) :
      TypedChange short (.resize id (some (.int width)) (some (.int height)))
  /-- A typed property. -/
  | property {id : Value} {key : String} {v : Value} (hv : Typed key v)
      (hshort : short → v.writable = true) :
      TypedChange short (.property id (some (.text key)) (some v))
  /-- A coordinate or a size. -/
  | geometry {id : Value} {key : String} {i : Int} (hkey : key ∈ Catalog.geometry)
      (hshort : short → (Value.int i).writable = true) :
      TypedChange short (.property id (some (.text key)) (some (.int i)))
  /-- A property goes. -/
  | removal {id : Value} {key : String} :
      TypedChange short (.property id (some (.text key)) (some .null))
  /-- Another id. -/
  | rename {id : Value} {wished : String} :
      TypedChange short (.property id (some (.text "id")) (some (.text wished)))
  /-- A subtree goes. -/
  | delete {id : Value} : TypedChange short (.delete id)
  /-- Another forest. -/
  | replace {ns : Forest} (hns : Incoming short (Forest.walk ns)) :
      TypedChange short (.replace (some ns))

namespace Incoming

/-- Children do not count. -/
theorem bare_iff (ms : List Node) : Incoming short (ms.map Node.bare) ↔ Incoming short ms := by
  refine ⟨fun h m hm => ?_, fun h => List.forall_mem_map.mpr fun m hm => ?_⟩
  · rcases h m.bare (List.mem_map_of_mem hm) with ⟨hregular, hid⟩
    exact ⟨hregular.of_shell rfl, hid⟩
  · exact ⟨(h m hm).1.of_shell rfl, (h m hm).2⟩

/-- Widgets with the shells of such widgets are such if their ids are texts. -/
theorem of_shells {ms ns : List Node} (h : Incoming short ns)
    (hshells : ms.map Node.shell = ns.map Node.shell) (hids : ∀ m ∈ ms, ∃ s, m.id = .text s) :
    Incoming short ms :=
  fun m hm => ⟨regular_of_shells hshells (fun n hn => (h n hn).1) m hm, hids m hm⟩

end Incoming

/-- Orderly widgets are those that may come from outside and whose ids are safe and differ. -/
theorem orderly_iff {ms : List Node} : Orderly short ms ↔ Incoming short ms ∧ Keyed ms := by
  constructor
  · intro h
    refine ⟨fun m hm => ⟨h.regular m hm, ?_⟩, fun m hm => ?_, ?_⟩
    · rcases h.named m hm with ⟨s, hs, -⟩
      exact ⟨s, hs⟩
    · rcases h.named m hm with ⟨s, hs, hsafe⟩
      exact ⟨s, by rw [hs, Value.asText?], hsafe⟩
    · -- Ids that are texts are equal if their characters are.
      have hdistinct := h.distinct
      have htexts : ms.map (·.id) = (ms.map (·.id.asText?)).map fun s => .text (s.getD "") := by
        rw [List.map_map]
        refine List.map_congr_left fun m hm => ?_
        rcases h.named m hm with ⟨s, hs, -⟩
        rw [Function.comp, hs, Value.asText?, Option.getD_some]
      rw [htexts] at hdistinct
      exact hdistinct.of_map _
  · rintro ⟨hin, hkeyed⟩
    refine ⟨fun m hm => (hin m hm).1, fun m hm => ?_, ?_⟩
    · rcases (hin m hm).2 with ⟨s, hs⟩
      rcases hkeyed.named m hm with ⟨t, ht, hsafe⟩
      rw [hs, Value.asText?, Option.some.injEq] at ht
      exact ⟨t, ht ▸ hs, hsafe⟩
    · have hdistinct := hkeyed.distinct
      have hvalues : ms.map (·.id.asText?) = (ms.map (·.id)).map Value.asText? := by
        rw [List.map_map]
        rfl
      rw [hvalues] at hdistinct
      exact hdistinct.of_map _

/-- Ids can be given to a forest from outside, and then it is orderly. -/
theorem assignIds_orderly {ns : Forest} (h : Incoming short (Forest.walk ns)) :
    (Forest.assignIds ns).fault = none ∧
      Orderly short (Forest.walk (Forest.assignIds ns).nodes) := by
  have hfault := Forest.assignIds_fault fun n hn => by
    rcases (h n hn).1.type with ⟨t, ht, -⟩
    exact ⟨t, by rw [ht, Value.asText?]⟩
  refine ⟨hfault, orderly_iff.mpr ⟨h.of_shells ?_ ?_, Forest.assignIds_keyed hfault⟩⟩
  · exact (Forest.relabel_shells Forest.nameChoice _ _).trans
      (Forest.relabel_shells Forest.settleChoice _ _)
  · exact Forest.assignIds_texts fun n hn => (h n hn).2

namespace Change

/-- What a property change does to a widget when the value is of the right kind. -/
theorem propertyChange_regular {key : String} {v : Value} {target : Node} {alter : Node → Node}
    (hv : v = .null ∨ (Typed key v ∧ (short → v.writable = true)) ∨
      key ∈ Catalog.geometry ∧ ∃ i, v = .int i ∧ (short → v.writable = true))
    (halter : propertyChange (.text key) v target = .ok alter) {n : Node}
    (hn : Regular short n) : Regular short (alter n) := by
  have hnull : ∀ {alter : Node → Node}, propertyChange (.text key) .null target = .ok alter →
      Regular short (alter n) := by
    intro alter halter
    simp only [propertyChange, Value.asText?, isNumber, Bool.and_false, Bool.false_eq_true,
      if_false, Except.ok.injEq] at halter
    rw [← halter]
    exact hn.dropProperties [key]
  rcases hv with rfl | ⟨htyped, hshort⟩ | ⟨hkey, i, rfl, hshort⟩
  · exact hnull halter
  · -- A typed property is neither a coordinate nor a size, so it is stored as it is.
    have hkey : Catalog.geometry.contains key = false := by
      rw [Bool.eq_false_iff, ne_eq, List.contains_iff_mem]
      exact fun hmem => htyped.free (List.mem_cons_of_mem "id" hmem)
    cases v with
    | null => exact hnull halter
    | _ =>
        simp only [propertyChange, Value.asText?, hkey, Bool.false_and, Bool.false_eq_true,
          if_false, Except.ok.injEq] at halter
        rw [← halter]
        exact hn.set_property htyped hshort
  · -- A coordinate becomes one of the attributes, and a property of its name goes.
    simp only [propertyChange, Value.asText?, isNumber, List.contains_iff_mem.mpr hkey,
      Bool.and_self, if_true, Except.ok.injEq] at halter
    rw [← halter]
    exact (hn.setGeometry key hshort).dropProperties [key]

/-- Setting a property leaves a widget regular if it is no id. -/
theorem property_regular {id : Value} {key : String} {v : Value} {ns : Forest} {target : Node}
    {alter : Node → Node} {said : List Notice} (hkey : key = "id" → v = .null)
    (hv : v = .null ∨ (Typed key v ∧ (short → v.writable = true)) ∨
      key ∈ Catalog.geometry ∧ ∃ i, v = .int i ∧ (short → v.writable = true))
    (h : alteration ns target (.property id (some (.text key)) (some v)) = .ok (alter, said))
    {n : Node} (hn : Regular short n) : Regular short (alter n) := by
  unfold alteration at h
  rcases ok_of_bind h with ⟨key', hkey', h⟩
  rcases ok_of_bind h with ⟨v', hv', h⟩
  rw [← Option.some.inj (ok_of_required hkey'), ← Option.some.inj (ok_of_required hv')] at h
  simp only [Value.asText?, Option.some.injEq] at h
  split at h
  · rename_i hid
    rw [hkey hid] at h
    split at h
    · rw [eq_of_ok h]
      exact hn
    · rename_i htruth
      exact absurd (by decide) htruth
  · rcases ok_of_bind h with ⟨alter', halter, h⟩
    rw [eq_of_ok h]
    exact propertyChange_regular hv halter hn

end Change

/-- What a change by values of the right kind makes of a regular widget is regular. -/
theorem TypedChange.alteration_regular {change : Change} (hchange : TypedChange short change)
    {ns : Forest} {target : Node} {alter : Node → Node} {said : List Notice}
    (h : Change.alteration ns target change = .ok (alter, said)) {n : Node}
    (hn : Regular short n) : Regular short (alter n) := by
  cases hchange with
  | move hshort =>
      unfold Change.alteration at h
      rw [Change.eq_of_ok h]
      exact ((hn.setGeometry "x" fun hs => (hshort hs).1).setGeometry "y" fun hs =>
        (hshort hs).2).dropProperties ["x", "y"]
  | resize hshort =>
      unfold Change.alteration at h
      rw [Change.eq_of_ok h]
      exact ((hn.setGeometry "width" fun hs => (hshort hs).1).setGeometry "height" fun hs =>
        (hshort hs).2).dropProperties ["width", "height"]
  | property hv hshort =>
      refine Change.property_regular (fun hkey => ?_) (.inr (.inl ⟨hv, hshort⟩)) h hn
      rw [hkey] at hv
      exact absurd List.mem_cons_self hv.free
  | geometry hkey hshort =>
      refine Change.property_regular (fun hid => ?_) (.inr (.inr ⟨hkey, _, rfl, hshort⟩)) h hn
      rw [hid] at hkey
      exact absurd hkey (by decide)
  | removal => exact Change.property_regular (fun _ => rfl) (.inl rfl) h hn
  | rename =>
      unfold Change.alteration at h
      rcases ok_of_bind h with ⟨key, hkey, h⟩
      rcases ok_of_bind h with ⟨v, -, h⟩
      rw [← Option.some.inj (Change.ok_of_required hkey), if_pos (by rfl)] at h
      split at h
      · rw [Change.eq_of_ok h]
        exact hn
      · rcases ok_of_bind h with ⟨taken, -, h⟩
        rw [Change.eq_of_ok h]
        exact hn.of_shell rfl
  | _ =>
      unfold Change.alteration at h
      rw [Change.eq_of_ok h]
      exact hn

/-- One widget of a forest is changed. -/
theorem TypedChange.applyTo_incoming {change : Change} (hchange : TypedChange short change)
    {id : Value} {ns ns' : Forest} {notices : List Notice}
    (h : Incoming short (Forest.walk ns))
    (happlied : Change.applyTo id change ns = .ok (ns', notices)) :
    Incoming short (Forest.walk ns') := by
  rcases Change.applyTo_swap happlied with
    rfl | ⟨target, alter, said, before, t, after, halteration, hwalk, hbare, -, -⟩
  · exact h
  · rw [hwalk, Incoming, List.forall_mem_append, List.forall_mem_cons] at h
    rcases h with ⟨hbefore, ⟨hregular, hid⟩, hafter⟩
    have halter : ∃ s, (alter t).id = .text s := by
      rcases Change.alteration_cases halteration with hkeep | ⟨_, _, _, _, fresh, -, -, -, -, rfl⟩
      · rwa [(hkeep t).2]
      · exact ⟨fresh, rfl⟩
    have hswapped : Incoming short (before ++ alter t :: after) :=
      List.forall_mem_append.mpr ⟨hbefore, List.forall_mem_cons.mpr
        ⟨⟨hchange.alteration_regular halteration hregular, halter⟩, hafter⟩⟩
    rw [← Incoming.bare_iff] at hswapped ⊢
    change Incoming short (Forest.bare ns')
    rwa [hbare, ← List.map_cons, ← List.map_append]

theorem TypedChange.apply_incoming {change : Change} (hchange : TypedChange short change)
    {ns ns' : Forest} {notices : List Notice} (h : Incoming short (Forest.walk ns))
    (happlied : change.apply ns = .ok (ns', notices)) : Incoming short (Forest.walk ns') := by
  have hone := hchange
  cases hchange with
  | add hn =>
      rcases Change.applyAdd_stretch happlied with
        rfl | ⟨ids, before, bs, after, -, hwalk, hbare, -, hids, hshells⟩
      · exact h
      · rw [hwalk, Incoming, List.forall_mem_append] at h
        have hbs : Incoming short bs := hn.of_shells hshells fun b hb => by
          rcases hids b hb with ⟨s, hs, -⟩
          exact ⟨s, hs⟩
        have hspliced : Incoming short (before ++ (bs ++ after)) :=
          List.forall_mem_append.mpr ⟨h.1, List.forall_mem_append.mpr ⟨hbs, h.2⟩⟩
        rw [← Incoming.bare_iff] at hspliced ⊢
        change Incoming short (Forest.bare ns')
        rwa [hbare, ← List.map_append, ← List.map_append]
  | delete =>
      rw [Change.apply] at happlied
      split at happlied
      · rename_i rest hrest
        rcases Forest.eraseFirst?_bare hrest with ⟨before, t, after, hwalk, hbare, -, -⟩
        rw [hwalk, Incoming, List.forall_mem_append, List.forall_mem_append] at h
        have hcut : Incoming short (before ++ after) := List.forall_mem_append.mpr ⟨h.1, h.2.2⟩
        rw [Change.eq_of_ok happlied]
        rw [← Incoming.bare_iff] at hcut ⊢
        change Incoming short (Forest.bare rest)
        rwa [hbare, ← List.map_append]
      · rw [Change.eq_of_ok happlied]
        exact h
  | replace hns =>
      rw [Change.apply] at happlied
      rcases ok_of_bind happlied with ⟨snapshot, hsnapshot, happlied⟩
      rw [← Option.some.inj (Change.ok_of_required hsnapshot)] at happlied
      -- What the forest was before does not matter.
      rcases assignIds_orderly hns with ⟨hfault, horderly⟩
      simp only [hfault] at happlied
      rw [Change.eq_of_ok happlied]
      exact (orderly_iff.mp horderly).1
  | _ => exact hone.applyTo_incoming h happlied

/-- Changes by values of the right kind keep a forest orderly. -/
theorem TypedChange.apply {change : Change} (hchange : TypedChange short change)
    {ns ns' : Forest} {notices : List Notice} (h : Orderly short (Forest.walk ns))
    (happlied : change.apply ns = .ok (ns', notices)) : Orderly short (Forest.walk ns') := by
  rcases orderly_iff.mp h with ⟨hin, hkeyed⟩
  exact orderly_iff.mpr
    ⟨hchange.apply_incoming hin happlied, Change.apply_keyed hkeyed happlied⟩

end WidgetSync
