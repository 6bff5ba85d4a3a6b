import WidgetSync.Proofs.Firm
import WidgetSync.Proofs.Keys

/-!
# A Change Touches Its Target Only

What a change of one widget does to a forest, and that it does nothing else.

Such a change names a widget by its id. If the ids are apart there is at most one of that
id, and it stands in a clearing of the forest. After the change the same clearing is
filled again, with what the change has left of the widget: the widget with the fields that
the change names, or nothing at all. That the clearing is the same says that every other
widget is where it was and as it was.

What is left is told by `Change.Leaves`, kind by kind, as the widget with some fields
replaced. A number that is given for a coordinate or a size takes the place of a binding,
so the property of that name goes. Any other property is one entry in a table, and
neither the other entries nor their order depend on it.

A change that names no widget of the forest leaves the forest as it is, even if it is
not complete. So does a new widget whose parent is not there.

## Main definitions

* `Change.target?`: The id by which a change names its widget.
* `Change.Complete`: The change of one widget has all that it needs.
* `Change.Leaves`: What stands in the place of a widget after a change.

## Theorems

* `Apart.others`: No other node has the id of the target.
* `Change.alteration_leaves`: How a change alters its target.
* `Change.apply_fill`: A change fills the clearing of its target anew.
* `Change.apply_absent`, `Change.applyAdd_absent`: What is not there is not changed.
* `Change.target_alone_changes`: A change touches its target only.
-/

namespace WidgetSync

namespace Markup

theorem without_without (key : String) (keys : List String) (t : Fields) :
    without keys (without [key] t) = without (key :: keys) t := by
  rw [without, without, without, List.filter_filter]
  refine List.filter_congr fun f _ => ?_
  rw [List.contains_cons, List.contains_cons, List.contains_nil, Bool.or_false, Bool.not_or,
    Bool.and_comm]

/-- In a table without repeated names, an erased entry is the only one that goes. -/
theorem erase_eq_without {t : Fields} (h : (Table.names t).Nodup) (key : String) :
    t.erase key = without [key] t := by
  induction t with
  | nil => rfl
  | cons e t ih =>
      obtain ⟨k, v⟩ := e
      rw [Table.names, List.map_cons, List.nodup_cons] at h
      rw [without, List.filter_cons, Table.erase]
      by_cases hk : k = key
      · subst hk
        have hself : without [k] t = t := without_self fun f hf hmem => by
          have hname : f.1 ∈ t.map Prod.fst := List.mem_map_of_mem hf
          rw [List.mem_singleton.mp hmem] at hname
          exact h.1 hname
        rw [if_pos rfl, if_neg (by simp only [List.contains_cons, beq_self_eq_true, Bool.true_or,
          Bool.not_true, Bool.false_eq_true, not_false_eq_true])]
        exact hself.symm
      · rw [if_neg hk, if_pos (by simp only [List.contains_cons, List.contains_nil, Bool.or_false,
          Bool.not_eq_true', beq_eq_false_iff_ne, ne_eq, hk, not_false_eq_true]), ih h.2]
        rfl

theorem foldl_erase {t : Fields} (h : (Table.names t).Nodup) (keys : List String) :
    keys.foldl Table.erase t = without keys t := by
  induction keys generalizing t with
  | nil => exact (without_self fun _ _ => List.not_mem_nil).symm
  | cons key keys ih =>
      rw [List.foldl_cons, erase_eq_without h, ih (names_without h), without_without]

/-- A write leaves the other entries, in their order. -/
theorem without_set (t : Fields) (key : String) (value : Value) :
    without [key] (t.set key value) = without [key] t := by
  have hdrop : ∀ (v : Value) (u : Fields), without [key] ((key, v) :: u) = without [key] u := by
    intro v u
    rw [without, List.filter_cons, if_neg (by simp only [List.contains_cons, beq_self_eq_true,
      Bool.true_or, Bool.not_true, Bool.false_eq_true, not_false_eq_true])]
    rfl
  induction t with
  | nil => exact hdrop value []
  | cons e t ih =>
      obtain ⟨k, v⟩ := e
      rw [Table.set]
      by_cases hk : k = key
      · subst hk
        rw [if_pos rfl, hdrop, hdrop]
      · rw [if_neg hk, without, List.filter_cons]
        rw [without] at ih ⊢
        rw [ih, List.filter_cons]
        rfl

end Markup

namespace Value

/-- The values that are the same as a text are the texts with its characters. -/
theorem same_iff_of_asText? {v w : Value} {s : String} (h : v.asText? = some s) :
    v.same w = true ↔ w.asText? = some s := by
  rcases eq_of_asText? h with rfl | rfl
  · cases w <;> simp only [same, asText?, beq_iff_eq, Bool.false_eq_true, reduceCtorEq,
      Option.some.injEq, eq_comm (a := s)]
  · cases w <;> simp only [same, asText?, beq_iff_eq, Bool.false_eq_true, reduceCtorEq,
      Option.some.injEq, eq_comm (a := s)]

end Value

open Markup (without)

namespace Change

/-- The id by which a change names the one widget that it is about. -/
def target? : Change → Option Value
  | .move id _ _ | .resize id _ _ | .property id _ _ | .delete id => some id
  | .add .. | .replace .. => none

/-- A change of one widget with all that it needs. -/
inductive Complete : Change → Prop where
  | move (id x y : Value) : Complete (.move id (some x) (some y))
  | resize (id width height : Value) : Complete (.resize id (some width) (some height))
  | property (id value : Value) {key : Value} {name : String} (hkey : key.asText? = some name) :
      Complete (.property id (some key) (some value))
  | delete (id : Value) : Complete (.delete id)

/-- What stands in the place of a widget after a change: the widget with the fields that the
    change names, or nothing. -/
inductive Leaves : Change → Node → Forest → Prop where
  /-- A new place, instead of bindings of the coordinates. -/
  | move (id x y : Value) (n : Node) :
      Leaves (.move id (some x) (some y)) n
        [{ n with x, y, properties := without ["x", "y"] n.properties }]
  /-- A new size, instead of bindings of the sides. -/
  | resize (id width height : Value) (n : Node) :
      Leaves (.resize id (some width) (some height)) n
        [{ n with width, height, properties := without ["width", "height"] n.properties }]
  /-- A number for a coordinate or a side, instead of its binding. -/
  | geometry (id : Value) {key value : Value} {name : String} (n : Node)
      (hkey : key.asText? = some name) (hname : name ∈ Catalog.geometry)
      (hnumber : isNumber value = true) :
      Leaves (.property id (some key) (some value)) n
        [{ setGeometry name value n with properties := without [name] n.properties }]
  /-- No property of a name any more. -/
  | absent (id : Value) {key : Value} {name : String} (n : Node) (hkey : key.asText? = some name)
      (hname : name ≠ "id") :
      Leaves (.property id (some key) (some .null)) n
        [{ n with properties := without [name] n.properties }]
  /-- One entry of a name, with the other entries as they were. -/
  | entry (id : Value) {key value : Value} {name : String} (n : Node) {properties : Fields}
      (hkey : key.asText? = some name) (hname : name ≠ "id")
      (hnumber : ¬ (name ∈ Catalog.geometry ∧ isNumber value = true))
      (hnodup : (Table.names properties).Nodup) (hget : properties.get? name = some value)
      (hothers : without [name] properties = without [name] n.properties) :
      Leaves (.property id (some key) (some value)) n [{ n with properties }]
  /-- Another id. -/
  | renamed (id : Value) {key value : Value} {name : String} (n : Node)
      (hkey : key.asText? = some "id") (htruth : value.truth = true)
      (hsafe : isSafeId name = true) :
      Leaves (.property id (some key) (some value)) n [{ n with id := .text name }]
  /-- No id to give. -/
  | kept (id : Value) {key value : Value} (n : Node) (hkey : key.asText? = some "id")
      (htruth : value.truth = false) : Leaves (.property id (some key) (some value)) n [n]
  /-- No widget any more, nor what was below it. -/
  | delete (id : Value) (n : Node) : Leaves (.delete id) n []

/-- How a property with a name is set. -/
def writeProperty (name : String) (value : Value) (n : Node) : Node :=
  if Catalog.geometry.contains name && isNumber value then
    dropProperties [name] (setGeometry name value n)
  else
    match value with
    | .null => dropProperties [name] n
    | v => { n with properties := n.properties.set name v }

theorem propertyChange_eq {key : Value} {name : String} (hkey : key.asText? = some name)
    (value : Value) (target : Node) :
    propertyChange key value target = .ok (writeProperty name value) := by
  unfold propertyChange
  simp only [hkey]
  split
  · rename_i hnumber
    exact congrArg Except.ok (funext fun n => (if_pos hnumber).symm)
  · rename_i hnumber
    split
    · exact congrArg Except.ok (funext fun n => (if_neg hnumber).symm)
    · rename_i hnull
      refine congrArg Except.ok (funext fun n => ?_)
      rw [writeProperty, if_neg hnumber]
      exact hnull

theorem setGeometry_properties (key : String) (value : Value) (n : Node) :
    (setGeometry key value n).properties = n.properties := by
  unfold setGeometry
  split
  · rfl
  · rfl
  · rfl
  · rfl
  · rfl

theorem dropProperties_eq {n : Node} (h : (Table.names n.properties).Nodup) (keys : List String) :
    dropProperties keys n = { n with properties := without keys n.properties } := by
  rw [dropProperties, Markup.foldl_erase h]

/-- What is left of a widget with a property set. -/
theorem leaves_writeProperty (id : Value) {key : Value} {name : String}
    (hkey : key.asText? = some name) (hname : name ≠ "id") (value : Value) {n : Node}
    (h : (Table.names n.properties).Nodup) :
    Leaves (.property id (some key) (some value)) n [writeProperty name value n] := by
  unfold writeProperty
  by_cases hnumber : (Catalog.geometry.contains name && isNumber value) = true
  · rw [if_pos hnumber]
    rw [Bool.and_eq_true, List.contains_iff_mem] at hnumber
    have hnodup : (Table.names (setGeometry name value n).properties).Nodup := by
      rwa [setGeometry_properties]
    rw [dropProperties_eq hnodup, setGeometry_properties]
    exact .geometry id n hkey hnumber.1 hnumber.2
  · rw [if_neg hnumber]
    rw [Bool.and_eq_true, List.contains_iff_mem] at hnumber
    have hentry : Leaves (.property id (some key) (some value)) n
        [{ n with properties := n.properties.set name value }] :=
      .entry id n hkey hname hnumber (Table.nodup_set h name value)
        (Table.get?_set_self n.properties name value) (Markup.without_set n.properties name value)
    cases value with
    | null =>
        rw [dropProperties_eq h]
        exact .absent id n hkey hname
    | _ => exact hentry

/-- The ids of the other widgets can be told if all ids are texts. -/
theorem otherIds_ok {nodes : Forest} (h : ∀ m ∈ Forest.walk nodes, ∃ s, m.id.asText? = some s)
    (id : Value) : ∃ taken, otherIds nodes id = .ok taken := by
  have hall : ((Forest.walk nodes).eraseP (hasId id)).all (fun n => n.id.canName) = true := by
    refine List.all_eq_true.mpr fun m hm => ?_
    rcases h m (List.mem_of_mem_eraseP hm) with ⟨s, hs⟩
    exact Value.canName_of_asText? hs
  exact ⟨_, if_pos hall⟩

/-- How a complete change that takes nothing out alters its target. -/
theorem alteration_leaves {change : Change} (hcomplete : change.Complete)
    (hdelete : ∀ id, change ≠ .delete id) {nodes : Forest}
    (htexts : ∀ m ∈ Forest.walk nodes, ∃ s, m.id.asText? = some s) {t : Node}
    (htable : (Table.names t.properties).Nodup) :
    ∃ alter said, alteration nodes t change = .ok (alter, said) ∧ Leaves change t [alter t] := by
  cases hcomplete with
  | move id x y =>
      refine ⟨_, _, rfl, ?_⟩
      have hdrop := dropProperties_eq (n := { t with x := x, y := y }) htable ["x", "y"]
      rw [hdrop]
      exact .move id x y t
  | resize id width height =>
      refine ⟨_, _, rfl, ?_⟩
      have hdrop := dropProperties_eq (n := { t with width := width, height := height }) htable
        ["width", "height"]
      rw [hdrop]
      exact .resize id width height t
  | @property id value key name hkey =>
      by_cases hname : name = "id"
      · subst hname
        -- Only here does it matter what else there is: a new id must not be that of another.
        by_cases htruth : value.truth = true
        · rcases otherIds_ok htexts id with ⟨taken, htaken⟩
          refine ⟨fun n => { n with id := .text (uniqueId value.safeId taken) }, [], ?_,
            .renamed id t hkey htruth (isSafeId_uniqueId taken (isSafeId_safeId _))⟩
          simp only [alteration, required, bind, Except.bind, hkey, if_true, htruth, Bool.not_true,
            Bool.false_eq_true, if_false, htaken, pure, Except.pure]
        · rw [Bool.not_eq_true] at htruth
          have hkept : alteration nodes t (.property id (some key) (some value))
              = .ok (fun n => n,
                [warning s!"property: empty id for {t.id.spelled}, change ignored"]) := by
            simp only [alteration, required, bind, Except.bind, hkey, if_true, htruth,
              Bool.not_false, pure, Except.pure]
          exact ⟨fun n => n, _, hkept, .kept id t hkey htruth⟩
      · refine ⟨writeProperty name value, [], ?_, leaves_writeProperty id hkey hname value htable⟩
        simp only [alteration, required, bind, Except.bind, hkey, Option.some.injEq, hname,
          if_false, propertyChange_eq hkey, pure, Except.pure]
  | delete id => exact absurd rfl (hdelete id)

end Change

/-- No other node has the id of the target. -/
theorem Apart.others {id : Value} {as cs : List Node} {t : Node} (h : Apart (as ++ t :: cs))
    (hid : Change.hasId id t = true) : ∀ m ∈ as ++ cs, Change.hasId id m = false := by
  rcases h.texts t (List.mem_append_right as List.mem_cons_self) with ⟨s, hs⟩
  have hname := (Value.same_iff_of_asText? hs).mp hid
  intro m hm
  refine Bool.eq_false_iff.mpr fun hother => h.alone m hm ?_
  rw [hs, Value.asText?_of_same hother hname]

namespace Change

theorem apply_of_target {change : Change} {id : Value} (htarget : change.target? = some id)
    (hdelete : ∀ id', change ≠ .delete id') (nodes : Forest) :
    change.apply nodes = applyTo id change nodes := by
  cases change with
  | add node parent index => exact absurd htarget (by simp only [target?, reduceCtorEq,
      not_false_eq_true])
  | replace given => exact absurd htarget (by simp only [target?, reduceCtorEq,
      not_false_eq_true])
  | delete id' => exact absurd rfl (hdelete id')
  | _ =>
      obtain rfl := Option.some.inj htarget
      rfl

/-- An alteration fills the clearing of the first widget of an id anew. -/
theorem applyTo_fill {change : Change} {id : Value} {around : Clearing} {t : Node}
    {alter : Node → Node} {said : List Notice} (hid : hasId id t = true)
    (hbefore : ∀ m ∈ around.before [t], hasId id m = false)
    (halteration : alteration (around.fill [t]) t change = .ok (alter, said)) :
    applyTo id change (around.fill [t]) = .ok (around.fill [alter t], said) := by
  have hfound : Forest.find? (around.fill [t]) id = some t := by
    change (Forest.walk (around.fill [t])).find? (hasId id) = some t
    rw [around.walk_fill_singleton, List.find?_append,
      List.find?_eq_none.mpr fun m hm => Bool.eq_false_iff.mp (hbefore m hm),
      List.find?_cons_of_pos hid, Option.none_or]
  have haltered : Forest.alterFirst? (hasId id) alter (around.fill [t])
      = some (around.fill [alter t]) := by
    rw [Forest.alterFirst?_eq, around.replaceFirst?_fill _ hid hbefore]
  rw [applyTo, hfound]
  simp only [halteration, bind, Except.bind, haltered, Option.getD_some, pure, Except.pure]

/-- A deletion leaves the clearing of the first widget of an id empty. -/
theorem delete_fill {id : Value} {around : Clearing} {t : Node} (hid : hasId id t = true)
    (hbefore : ∀ m ∈ around.before [t], hasId id m = false) :
    (Change.delete id).apply (around.fill [t]) = .ok (around.fill [], []) := by
  rw [apply, Forest.eraseFirst?_eq, around.replaceFirst?_fill _ hid hbefore]

/-- A change fills the clearing of its target anew. -/
theorem apply_fill {change : Change} {id : Value} (htarget : change.target? = some id)
    (hcomplete : change.Complete) {nodes : Forest} (h : Apart (Forest.walk nodes))
    (htables : ∀ n ∈ Forest.walk nodes, (Table.names n.properties).Nodup)
    (hpresent : ∃ m ∈ Forest.walk nodes, hasId id m = true) :
    ∃ (around : Clearing) (target : Node) (left : Forest) (said : List Notice),
      nodes = around.fill [target] ∧ change.apply nodes = .ok (around.fill left, said) ∧
      hasId id target = true ∧ change.Leaves target left := by
  rcases Forest.exists_first hpresent with ⟨around, t, hfind, rfl, hid, hbefore⟩
  -- A deletion searches by itself; all other changes look for the target and then alter it.
  by_cases hdelete : ∃ id', change = .delete id'
  · obtain ⟨id', rfl⟩ := hdelete
    obtain rfl : id' = id := Option.some.inj htarget
    exact ⟨around, t, [], [], rfl, delete_fill hid hbefore, hid, .delete id' t⟩
  · rw [not_exists] at hdelete
    rcases alteration_leaves hcomplete hdelete h.texts
      (htables t (List.mem_of_find?_eq_some hfind)) with ⟨alter, said, halteration, hleaves⟩
    refine ⟨around, t, [alter t], said, rfl, ?_, hid, hleaves⟩
    rw [apply_of_target htarget hdelete, applyTo_fill hid hbefore halteration]

theorem find?_absent {nodes : Forest} {id : Value}
    (habsent : ∀ m ∈ Forest.walk nodes, hasId id m = false) : Forest.find? nodes id = none :=
  List.find?_eq_none.mpr fun m hm => Bool.eq_false_iff.mp (habsent m hm)

/-- A change of a widget that is not there leaves the forest as it is. -/
theorem apply_absent {change : Change} {id : Value} (htarget : change.target? = some id)
    {nodes : Forest} (habsent : ∀ m ∈ Forest.walk nodes, hasId id m = false) :
    change.apply nodes = .ok (nodes, [unknown change.kind "id" id]) := by
  by_cases hdelete : ∃ id', change = .delete id'
  · obtain ⟨id', rfl⟩ := hdelete
    obtain rfl : id' = id := Option.some.inj htarget
    rw [apply, Forest.eraseFirst?_eq, Forest.replaceFirst?_none _ habsent]
    rfl
  · rw [apply_of_target htarget (not_exists.mp hdelete), applyTo, find?_absent habsent]

/-- A new widget whose parent is not there leaves the forest as it is. -/
theorem applyAdd_absent {nodes : Forest}
    (htexts : ∀ m ∈ Forest.walk nodes, ∃ s, m.id.asText? = some s) {n : Node}
    (htypes : ∀ m ∈ n.depthFirst, ∃ t, m.type.asText? = some t) {parent : Value}
    (hparent : parent ≠ .null) (habsent : ∀ m ∈ Forest.walk nodes, hasId parent m = false)
    (index : Value) :
    applyAdd (some n) parent index nodes = .ok (nodes, [unknown "add" "parent id" parent]) := by
  rcases Forest.ids_ok htexts with ⟨ids, hids⟩
  rcases withFreshIds_ok htypes (ids.filterMap Value.asText?) with ⟨fresh, hfresh⟩
  simp only [applyAdd, required, bind, Except.bind, hids, hfresh, find?_absent habsent, pure,
    Except.pure]

/-- A change touches its target only. Where the ids are apart and no table has a name twice,
    a complete change of a widget that is there fills the clearing of this widget, the only one
    of its id, with what the change leaves of it. So in the pre-order one stretch is replaced
    by another, which for a deletion is empty. A change of a widget that is not there changes
    nothing, and neither does a new widget with a parent that is not there. -/
theorem target_alone_changes {nodes : Forest} (h : Apart (Forest.walk nodes))
    (htables : ∀ n ∈ Forest.walk nodes, (Table.names n.properties).Nodup) :
    (∀ (change : Change) (id : Value), change.target? = some id → change.Complete →
      (∃ m ∈ Forest.walk nodes, hasId id m = true) →
      ∃ (around : Clearing) (target : Node) (left : Forest) (said : List Notice)
        (ahead behind : List Node),
        nodes = around.fill [target] ∧ change.apply nodes = .ok (around.fill left, said) ∧
        hasId id target = true ∧
        (∀ m ∈ around.before [target] ++ (Forest.walk target.children ++ around.after),
          hasId id m = false) ∧
        change.Leaves target left ∧
        Forest.bare nodes = ahead ++ (Forest.bare [target] ++ behind) ∧
        Forest.bare (around.fill left) = ahead ++ (Forest.bare left ++ behind)) ∧
    (∀ (change : Change) (id : Value), change.target? = some id →
      (∀ m ∈ Forest.walk nodes, hasId id m = false) →
      change.apply nodes = .ok (nodes, [unknown change.kind "id" id])) ∧
    ∀ (n : Node) (parent index : Value), (∀ m ∈ n.depthFirst, ∃ t, m.type.asText? = some t) →
      parent ≠ .null → (∀ m ∈ Forest.walk nodes, hasId parent m = false) →
      (Change.add (some n) parent index).apply nodes
        = .ok (nodes, [unknown "add" "parent id" parent]) := by
  refine ⟨fun change id htarget hcomplete hpresent => ?_, fun change id htarget habsent =>
    apply_absent htarget habsent, fun n parent index htypes hparent habsent =>
    applyAdd_absent h.texts htypes hparent habsent index⟩
  rcases apply_fill htarget hcomplete h htables hpresent with
    ⟨around, target, left, said, rfl, happly, hid, hleaves⟩
  rw [around.walk_fill_singleton] at h
  exact ⟨around, target, left, said, (around.before [target]).map Node.bare,
    around.after.map Node.bare, rfl, happly, hid, h.others hid, hleaves,
    around.bare_fill [target] [target], around.bare_fill left [target]⟩

/-- A column with a label, whose place is bound, and a button. -/
def sampleColumn : Forest :=
  [{ type := .text "Column", id := .text "column", children :=
      [{ type := .text "Label", id := .text "label",
          properties := [("text", .text "a"), ("x", .raw "button.x"), ("visible", .bool true)] },
        { type := .text "Button", id := .text "button" }] }]

theorem sampleColumn_apart : Apart (Forest.walk sampleColumn) :=
  ⟨exists_of_all_isSome (by decide), by decide⟩

/-- The label is moved. A widget that is not there is neither deleted nor given a child. -/
theorem sampleColumn_moved :
    Apart (Forest.walk sampleColumn) ∧
    (∀ n ∈ Forest.walk sampleColumn, (Table.names n.properties).Nodup) ∧
    (∃ (around : Clearing) (target : Node) (left : Forest) (said : List Notice),
      sampleColumn = around.fill [target] ∧
      (Change.move (.text "label") (some (.int 8)) (some (.int 9))).apply sampleColumn
        = .ok (around.fill left, said) ∧ hasId (.text "label") target = true ∧
      Leaves (.move (.text "label") (some (.int 8)) (some (.int 9))) target left) ∧
    (Change.delete (.text "row")).apply sampleColumn
      = .ok (sampleColumn, [unknown "delete" "id" (.text "row")]) ∧
    (Change.add (some { type := .text "Label" }) (.text "row") (.int 0)).apply sampleColumn
      = .ok (sampleColumn, [unknown "add" "parent id" (.text "row")]) := by
  have hnames : (Forest.walk sampleColumn).all
      (fun n => decide (Table.names n.properties).Nodup) = true := by decide
  have htables : ∀ n ∈ Forest.walk sampleColumn, (Table.names n.properties).Nodup :=
    fun n hn => of_decide_eq_true (List.all_eq_true.mp hnames n hn)
  have hothers : (Forest.walk sampleColumn).all (fun n => !hasId (.text "row") n) = true := by
    decide
  have habsent : ∀ m ∈ Forest.walk sampleColumn, hasId (.text "row") m = false :=
    fun m hm => (Bool.not_eq_true' _).mp (List.all_eq_true.mp hothers m hm)
  rcases target_alone_changes sampleColumn_apart htables with ⟨hchange, hmissing, hadd⟩
  rcases hchange (.move (.text "label") (some (.int 8)) (some (.int 9))) (.text "label") rfl
    (.move _ _ _) (List.any_eq_true.mp (by decide)) with
    ⟨around, target, left, said, _, _, hnodes, happly, hid, -, hleaves, -⟩
  refine ⟨sampleColumn_apart, htables,
    ⟨around, target, left, said, hnodes, happly, hid, hleaves⟩, ?_, ?_⟩
  · exact hmissing (.delete (.text "row")) (.text "row") rfl habsent
  · refine hadd { type := .text "Label" } (.text "row") (.int 0) (fun m hm => ?_)
      Value.noConfusion habsent
    rw [List.mem_singleton.mp hm]
    exact ⟨"Label", rfl⟩

end Change

end WidgetSync
