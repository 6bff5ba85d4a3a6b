import WidgetSync.Proofs.Literals
import WidgetSync.Proofs.Nesting

/-!
# Properties Are Read as Written

The lines of a property give the innermost block that property again.

The value of a property is a tree of groups and objects with plain values at its
leaves, and the writer and the reader go through it in different ways: one by
recursion, the other with a stack of open blocks. `Written` is the statement that
joins them. It holds in front of every block that is of the right kind and does
not have the property yet, so the properties of one block can be read one after
the other, each leaving the block as the next one needs it.

Which spelling applies depends on the group, not on the depth: the fields of a font
are looked up among the fields of fonts wherever the font stands. That is why the
group is an index of `Legible` and everything else about the place is not.

A group with a capital in front has no block. Its fields are written with points,
and reading one of them finds the fields that were read before.

## Main definitions

* `Reading.takes`: The innermost block has a use of its own for source text under a
  name.
* `Reading.WindowEffect`, `Reading.NodeEffect`: What source text makes of an attribute.
* `Written`: The lines of a property are read as the property.
* `Legible`: The values that are read as written.

## Theorems

* `Reading.windowAttribute_effect`, `Reading.nodeAttribute_effect`: There are no other
  effects.
* `written_fields`: The lines of properties are read as the properties.
* `Legible.written`: Legible values are read as written.
-/

namespace WidgetSync

namespace Table

variable {α : Type}

theorem set_of_get?_eq_none {t : Table α} {key : String} (value : α) (h : get? t key = none) :
    set t key value = t ++ [(key, value)] := by
  induction t with
  | nil => rfl
  | cons e t ih =>
      obtain ⟨k, v⟩ := e
      rw [get?] at h
      split at h
      · exact absurd h (by simp only [reduceCtorEq, not_false_eq_true])
      · rename_i hk
        rw [set, if_neg hk, ih h, List.cons_append]

theorem get?_append_of_eq_none {t : Table α} {key : String} (u : Table α)
    (h : get? t key = none) : get? (t ++ u) key = get? u key := by
  induction t with
  | nil => rw [List.nil_append]
  | cons e t ih =>
      obtain ⟨k, v⟩ := e
      rw [get?] at h
      split at h
      · exact absurd h (by simp only [reduceCtorEq, not_false_eq_true])
      · rename_i hk
        rw [List.cons_append, get?, if_neg hk, ih h]

theorem set_set (t : Table α) (key : String) (value other : α) :
    set (set t key value) key other = set t key other := by
  induction t with
  | nil => simp only [set, if_true]
  | cons e t ih =>
      obtain ⟨k, v⟩ := e
      by_cases hk : k = key
      · simp only [set, hk, if_true]
      · simp only [set, hk, if_false, ih]

theorem get?_eq_none_of_not_mem {t : Table α} {key : String} (h : key ∉ names t) :
    get? t key = none := by
  induction t with
  | nil => rfl
  | cons e t ih =>
      obtain ⟨k, v⟩ := e
      simp only [names, List.map_cons, List.mem_cons, not_or] at h
      rw [get?, if_neg (Ne.symm h.1), ih h.2]

theorem not_mem_of_get?_eq_none {t : Table α} {key : String} (h : get? t key = none) :
    key ∉ names t := by
  induction t with
  | nil => exact List.not_mem_nil
  | cons e t ih =>
      obtain ⟨k, v⟩ := e
      rw [get?] at h
      by_cases hk : k = key
      · rw [if_pos hk] at h
        exact absurd h (by simp only [reduceCtorEq, not_false_eq_true])
      · rw [if_neg hk] at h
        rw [names, List.map_cons, List.mem_cons, not_or]
        exact ⟨Ne.symm hk, ih h⟩

theorem get?_of_mem {t : Table α} (h : (names t).Nodup) {key : String} {value : α}
    (hmem : (key, value) ∈ t) : get? t key = some value := by
  induction t with
  | nil => exact absurd hmem List.not_mem_nil
  | cons e t ih =>
      obtain ⟨k, v⟩ := e
      simp only [names, List.map_cons, List.nodup_cons] at h
      rcases List.mem_cons.mp hmem with heq | hmem
      · obtain ⟨rfl, rfl⟩ := Prod.mk.inj heq
        rw [get?, if_pos rfl]
      · have hne : k ≠ key := by
          rintro rfl
          exact h.1 (List.mem_map_of_mem hmem)
        rw [get?, if_neg hne, ih h.2 hmem]

theorem erase_sublist (t : Table α) (key : String) : List.Sublist (t.erase key) t := by
  induction t with
  | nil => exact List.Sublist.refl _
  | cons e t ih =>
      rw [erase]
      by_cases h : e.1 = key
      · rw [if_pos h]
        exact List.sublist_cons_self e t
      · rw [if_neg h]
        exact ih.cons_cons e

theorem mem_set {t : Table α} {key : String} {value : α} {e : String × α}
    (h : e ∈ t.set key value) : e = (key, value) ∨ e ∈ t := by
  induction t with
  | nil => exact .inl (List.mem_singleton.mp h)
  | cons f t ih =>
      rw [set] at h
      by_cases hkey : f.1 = key
      · rw [if_pos hkey] at h
        rcases List.mem_cons.mp h with h | h
        · exact .inl (by rw [h, hkey])
        · exact .inr (List.mem_cons_of_mem f h)
      · rw [if_neg hkey] at h
        rcases List.mem_cons.mp h with h | h
        · exact .inr (by rw [h]; exact List.mem_cons_self)
        · rcases ih h with h | h
          · exact .inl h
          · exact .inr (List.mem_cons_of_mem f h)

theorem names_set (t : Table α) (key : String) (value : α) :
    names (t.set key value) = if key ∈ names t then names t else names t ++ [key] := by
  induction t with
  | nil => rfl
  | cons e t ih =>
      rw [set]
      by_cases h : e.1 = key
      · have hmem : key ∈ names (e :: t) := by
          rw [← h]
          exact List.mem_cons_self
        rw [if_pos h, if_pos hmem, names, names, List.map_cons, List.map_cons, h]
      · have hmem : key ∈ names (e :: t) ↔ key ∈ names t := by
          rw [names, List.map_cons, List.mem_cons]
          exact ⟨fun hk => hk.resolve_left (Ne.symm h), .inr⟩
        rw [if_neg h, names, List.map_cons]
        change e.1 :: names (set t key value) = _
        rw [ih]
        by_cases hk : key ∈ names t
        · rw [if_pos hk, if_pos (hmem.mpr hk)]
          rfl
        · rw [if_neg hk, if_neg (mt hmem.mp hk)]
          rfl

theorem nodup_set {t : Table α} (h : (names t).Nodup) (key : String) (value : α) :
    (names (t.set key value)).Nodup := by
  rw [names_set]
  by_cases hk : key ∈ names t
  · rwa [if_pos hk]
  · rw [if_neg hk, List.nodup_append]
    refine ⟨h, List.nodup_cons.mpr ⟨List.not_mem_nil, List.nodup_nil⟩, fun a ha b hb heq => ?_⟩
    rw [List.mem_singleton] at hb
    rw [heq, hb] at ha
    exact hk ha

end Table

namespace Markup

/-- The value has no structure of its own. -/
def isPlain : Value → Bool
  | .bool _ | .int _ | .float _ | .text _ | .raw _ => true
  | _ => false

theorem NumberText.isPlain_value {n : NumberText} {v : Value} (h : n.value = .ok v) :
    isPlain v = true := by
  unfold NumberText.value at h
  split at h
  · rw [← Except.ok.inj h]
    rfl
  · split at h
    · exact absurd h (by simp only [reduceCtorEq, not_false_eq_true])
    · rw [← Except.ok.inj h]
      rfl

theorem isPlain_numberLiteral? {raw : String} {v : Value}
    (h : numberLiteral? raw = .ok (some v)) : isPlain v = true := by
  unfold numberLiteral? at h
  simp only at h
  split at h
  · rename_i n _
    split at h
    · cases hn : n.value with
      | error e =>
          rw [hn] at h
          exact absurd h (by simp only [Except.map, reduceCtorEq, not_false_eq_true])
      | ok w =>
          rw [hn] at h
          rw [← Option.some.inj (Except.ok.inj h)]
          exact NumberText.isPlain_value hn
    · exact absurd (Except.ok.inj h) (by simp only [reduceCtorEq, not_false_eq_true])
  · exact absurd (Except.ok.inj h) (by simp only [reduceCtorEq, not_false_eq_true])

/-- Source text never stands for a value with structure. -/
theorem isPlain_valueOf {raw : String} {spelling : Option Catalog.Spelling} {v : Value}
    (h : valueOf raw spelling = .ok v) : isPlain v = true := by
  rcases valueOf_cases h with rfl | ⟨spelling, rfl, hliteral⟩
  · rfl
  · cases hliteral with
    | number hnumber => exact isPlain_numberLiteral? hnumber
    | _ => rfl

namespace Reading

/-- The window has a use of its own for source text under a name. -/
def windowTakes (key raw : String) : Bool :=
  if key = "id" then true
  else if key = "width" ∨ key = "height" then
    match numberLiteral? raw with
    | .ok none => false
    | _ => true
  else if key = "title" then (stringLiteral? raw).isSome
  else key == "visible" && (raw == "true" || raw == "false")

/-- What source text under a name makes of the window: one case for each attribute, and one for
    what is left to its properties. -/
inductive WindowEffect (w : Window) (raw : String) : String → Except Fault (Option Window) → Prop
  | id : WindowEffect w raw "id" (.ok (some w))
  | width {v : Value} (h : numberLiteral? raw = .ok (some v)) :
    WindowEffect w raw "width" (.ok (some { w with width := v }))
  | height {v : Value} (h : numberLiteral? raw = .ok (some v)) :
    WindowEffect w raw "height" (.ok (some { w with height := v }))
  | title {t : String} (h : stringLiteral? raw = some t) :
    WindowEffect w raw "title" (.ok (some { w with title := .text t }))
  | visible {b : Bool} (h : raw = if b then "true" else "false") :
    WindowEffect w raw "visible" (.ok (some { w with visible := .bool b }))
  | stopped {key : String} {fault : Fault} (hkey : key = "width" ∨ key = "height")
    (h : numberLiteral? raw = .error fault) : WindowEffect w raw key (.error fault)
  | left {key : String} (h : windowTakes key raw = false) : WindowEffect w raw key (.ok none)

/-- The window looks for one name after the other. -/
theorem windowAttribute_effect (w : Window) (key raw : String) :
    WindowEffect w raw key (windowAttribute w key raw) := by
  unfold windowAttribute
  by_cases hid : key = "id"
  · rw [if_pos hid, hid]
    exact .id
  rw [if_neg hid]
  by_cases hwidth : key = "width"
  · rw [if_pos hwidth]
    rcases hnumber : numberLiteral? raw with fault | _ | v
    · exact .stopped (.inl hwidth) hnumber
    · exact .left (by simp only [windowTakes, if_neg hid, if_pos (Or.inl hwidth), hnumber])
    · rw [hwidth]
      exact .width hnumber
  rw [if_neg hwidth]
  by_cases hheight : key = "height"
  · rw [if_pos hheight]
    rcases hnumber : numberLiteral? raw with fault | _ | v
    · exact .stopped (.inr hheight) hnumber
    · exact .left (by simp only [windowTakes, if_neg hid, if_pos (Or.inr hheight), hnumber])
    · rw [hheight]
      exact .height hnumber
  rw [if_neg hheight]
  have hsizes : ¬(key = "width" ∨ key = "height") := not_or.mpr ⟨hwidth, hheight⟩
  by_cases htitle : key = "title"
  · rw [if_pos htitle]
    cases hliteral : stringLiteral? raw with
    | none =>
        exact .left (by rw [windowTakes, if_neg hid, if_neg hsizes, if_pos htitle, hliteral]; rfl)
    | some t =>
        rw [htitle]
        exact .title hliteral
  rw [if_neg htitle]
  by_cases htrue : key = "visible" ∧ raw = "true"
  · rw [if_pos htrue, htrue.1]
    exact .visible (b := true) htrue.2
  rw [if_neg htrue]
  by_cases hfalse : key = "visible" ∧ raw = "false"
  · rw [if_pos hfalse, hfalse.1]
    exact .visible (b := false) hfalse.2
  rw [if_neg hfalse]
  refine .left ?_
  rw [windowTakes, if_neg hid, if_neg hsizes, if_neg htitle, Bool.and_or_distrib_left]
  simpa using And.intro (not_and.mp htrue) (not_and.mp hfalse)

/-- What source text under a name makes of a widget. -/
inductive NodeEffect (n : Node) (raw : String) : String → Except Fault (Option Node) → Prop
  | id (given : String) : NodeEffect n raw "id" (.ok (some { n with id := .text (safeId given) }))
  | number {key : String} {v : Value} (hkey : key ∈ Catalog.geometry)
    (h : numberLiteral? raw = .ok (some v)) :
    NodeEffect n raw key
      (.ok (some { setGeometry n key v with properties := n.properties.erase key }))
  | bound {key : String} (hkey : key ∈ Catalog.geometry) (h : numberLiteral? raw = .ok none) :
    NodeEffect n raw key (.ok (some { n with properties := n.properties.set key (.raw raw) }))
  | stopped {key : String} {fault : Fault} (hkey : key ∈ Catalog.geometry)
    (h : numberLiteral? raw = .error fault) : NodeEffect n raw key (.error fault)
  | left {key : String} (hkey : key ∉ "id" :: Catalog.geometry) : NodeEffect n raw key (.ok none)

theorem nodeAttribute_effect (n : Node) (key raw : String) :
    NodeEffect n raw key (nodeAttribute n key raw) := by
  unfold nodeAttribute
  by_cases hid : key = "id"
  · rw [if_pos hid, hid]
    exact .id _
  rw [if_neg hid]
  by_cases hkey : key ∈ Catalog.geometry
  · rw [if_pos (List.contains_iff_mem.mpr hkey)]
    rcases hnumber : numberLiteral? raw with fault | _ | v
    · exact .stopped hkey hnumber
    · exact .bound hkey hnumber
    · exact .number hkey hnumber
  · rw [if_neg (mt List.contains_iff_mem.mp hkey)]
    exact .left (List.not_mem_cons_of_ne_of_not_mem hid hkey)

/-- The innermost block has a use of its own for source text under a name. -/
def takes (r : Reading) (key raw : String) : Bool :=
  match r.frames with
  | .node _ :: _ => ("id" :: Catalog.geometry).contains key
  | .window :: _ => windowTakes key raw
  | _ => false

/-- The innermost block treats the value under the name as an ordinary property. -/
def leaves (r : Reading) (key : String) (v : Value) : Prop :=
  isPlain v = true → ∀ t, scalar v (Catalog.spelling? key r.group?) = .ok t →
    SelfDelimiting t.toList → r.takes key t = false

@[simp] theorem bag_setBag (r : Reading) (fields : Fields) : (r.setBag fields).bag = fields := by
  obtain ⟨window, roots, declared, frames⟩ := r
  rcases frames with _ | ⟨_ | _ | _ | _, fs⟩
  all_goals rfl

@[simp] theorem setBag_setBag (r : Reading) (fields others : Fields) :
    (r.setBag fields).setBag others = r.setBag others := by
  obtain ⟨window, roots, declared, frames⟩ := r
  rcases frames with _ | ⟨_ | _ | _ | _, fs⟩
  all_goals rfl

@[simp] theorem setBag_bag (r : Reading) : r.setBag r.bag = r := by
  obtain ⟨window, roots, declared, frames⟩ := r
  rcases frames with _ | ⟨_ | n | _ | _, fs⟩
  case cons.node =>
    cases n
    rfl
  all_goals rfl

@[simp] theorem group?_setBag (r : Reading) (fields : Fields) :
    (r.setBag fields).group? = r.group? := by
  obtain ⟨window, roots, declared, frames⟩ := r
  rcases frames with _ | ⟨_ | _ | _ | _, fs⟩
  all_goals rfl

@[simp] theorem takes_setBag (r : Reading) (fields : Fields) (key raw : String) :
    (r.setBag fields).takes key raw = r.takes key raw := by
  obtain ⟨window, roots, declared, frames⟩ := r
  rcases frames with _ | ⟨_ | _ | _ | _, fs⟩
  all_goals rfl

theorem leaves_setBag {r : Reading} {key : String} {v : Value} (fields : Fields)
    (h : r.leaves key v) : (r.setBag fields).leaves key v := by
  intro hplain t ht hself
  rw [group?_setBag] at ht
  rw [takes_setBag]
  exact h hplain t ht hself

theorem windowAttribute_eq_none {key raw : String} (w : Window)
    (h : windowTakes key raw = false) : windowAttribute w key raw = .ok none := by
  have heffect := windowAttribute_effect w key raw
  generalize windowAttribute w key raw = given at heffect
  cases heffect with
  | left => rfl
  | id => simp [windowTakes] at h
  | width hnumber => simp [windowTakes, hnumber] at h
  | height hnumber => simp [windowTakes, hnumber] at h
  | title hliteral => simp [windowTakes, hliteral] at h
  | @visible b hraw =>
      cases b with
      | false => simp [windowTakes, hraw] at h
      | true => simp [windowTakes, hraw] at h
  | stopped hkey hnumber => rcases hkey with rfl | rfl <;> simp [windowTakes, hnumber] at h

theorem setBag_frames_ne_nil {r : Reading} (h : r.frames ≠ []) (fields : Fields) :
    (r.setBag fields).frames ≠ [] := by
  unfold setBag
  rcases hf : r.frames with _ | ⟨_ | _ | _ | _, fs⟩
  · exact absurd hf h
  all_goals simp only [ne_eq, reduceCtorEq, not_false_eq_true]

theorem store_frames_ne_nil {r : Reading} (h : r.frames ≠ []) (key : String) (value : Value) :
    (r.store key value).frames ≠ [] :=
  setBag_frames_ne_nil h _

@[simp] theorem group?_store (r : Reading) (key : String) (value : Value) :
    (r.store key value).group? = r.group? :=
  group?_setBag r _

theorem store_eq_append {r : Reading} {key : String} (value : Value)
    (h : r.bag.get? key = none) : r.store key value = r.setBag (r.bag ++ [(key, value)]) := by
  rw [store, Table.set_of_get?_eq_none value h]

theorem store_store (r : Reading) (key : String) (value other : Value) :
    (r.store key value).store key other = r.store key other := by
  simp only [store, bag_setBag, setBag_setBag, Table.set_set]

theorem groupFields_store (r : Reading) (key : String) (fields : Fields) :
    (r.store key (.group fields)).groupFields key = fields := by
  simp only [groupFields, store, bag_setBag, Table.get?_set_self]

theorem groupFields_of_eq_none {r : Reading} {key : String} (h : r.bag.get? key = none) :
    r.groupFields key = [] := by
  rw [groupFields, h]

theorem absorb_eq_none {r : Reading} {key raw : String} (htakes : r.takes key raw = false) :
    r.absorb key raw = .ok none := by
  obtain ⟨window, roots, declared, frames⟩ := r
  unfold takes at htakes
  unfold absorb
  rcases frames with _ | ⟨_ | n | _ | _, fs⟩
  case cons.window =>
    simp only [windowAttribute_eq_none window htakes]
    rfl
  case cons.node =>
    simp only [List.contains_eq_mem, decide_eq_false_iff_not, List.mem_cons, not_or] at htakes
    have hgeometry : Catalog.geometry.contains key = false := by
      rw [List.contains_eq_mem, decide_eq_false_iff_not]
      exact htakes.2
    simp only [nodeAttribute, htakes.1, if_false, hgeometry, Bool.false_eq_true]
    rfl
  all_goals rfl

/-- The value that source text gives a property for which the block has no use of its
    own. -/
theorem assign_plain {r : Reading} {key raw : String} {v : Value}
    (hpoints : r.group? = none → splitName? key = none) (htakes : r.takes key raw = false)
    (hvalue : valueOf raw (Catalog.spelling? key r.group?) = .ok v) (used : Nat) :
    r.assign key raw used = .next (r.store key v) used [] := by
  rw [assign_unpointed hpoints, absorb_eq_none htakes, hvalue]
  rfl

/-- The value that source text gives a field of a group, under a name with a point. -/
theorem assign_dotted {r : Reading} {key head field raw : String} {v : Value}
    (hgroup : r.group? = none) (hsplit : splitName? key = some (head, field))
    (hvalue : valueOf raw (Catalog.spelling? field (some head)) = .ok v) (used : Nat) :
    r.assign key raw used
      = .next (r.store head (.group ((r.groupFields head).set field v))) used [] := by
  rw [assign_pointed hgroup hsplit, hvalue, Step.given]

end Reading

/-- In every block that has no such property, the lines of the property are read as
    the property. -/
def Written (group : Option String) (key : String) (v : Value) : Prop :=
  ∀ (depth : Nat) (r : Reading), r.frames ≠ [] → r.group? = group → r.leaves key v →
    r.bag.get? key = none →
    ∃ lines, propertyLines depth group "" key v = .ok lines ∧
      Shows (linesText lines) r (r.store key v)

/-- The lines of properties with different names are read as the properties. -/
theorem written_fields {group : Option String} {fields : Fields}
    (hfields : ∀ f ∈ fields, Written group f.1 f.2) (hnames : (Table.names fields).Nodup)
    (depth : Nat) {r : Reading} (hframes : r.frames ≠ []) (hgroup : r.group? = group)
    (hfree : ∀ f ∈ fields, r.leaves f.1 f.2 ∧ r.bag.get? f.1 = none) :
    ∃ lines, fieldLines depth group "" fields = .ok lines ∧
      Shows (linesText lines) r (r.setBag (r.bag ++ fields)) := by
  induction fields generalizing r with
  | nil =>
      refine ⟨[], rfl, ?_⟩
      rw [List.append_nil, Reading.setBag_bag]
      exact shows_nil r
  | cons f fields ih =>
      obtain ⟨key, v⟩ := f
      simp only [Table.names, List.map_cons, List.nodup_cons] at hnames
      have hhead := hfree (key, v) List.mem_cons_self
      rcases hfields (key, v) List.mem_cons_self depth r hframes hgroup hhead.1 hhead.2 with
        ⟨first, hfirst, hshows⟩
      rw [Reading.store_eq_append v hhead.2] at hshows
      -- The block behind the first property is as free for the others as it was.
      have hothers : ∀ f ∈ fields, (r.setBag (r.bag ++ [(key, v)])).leaves f.1 f.2 ∧
          (r.setBag (r.bag ++ [(key, v)])).bag.get? f.1 = none := by
        intro f hf
        have hne : key ≠ f.1 := by
          rintro rfl
          exact hnames.1 (List.mem_map_of_mem hf)
        refine ⟨Reading.leaves_setBag _ (hfree f (List.mem_cons_of_mem _ hf)).1, ?_⟩
        rw [Reading.bag_setBag,
          Table.get?_append_of_eq_none _ (hfree f (List.mem_cons_of_mem _ hf)).2, Table.get?,
          if_neg hne, Table.get?]
      rcases ih (fun f hf => hfields f (List.mem_cons_of_mem _ hf)) hnames.2
          (Reading.setBag_frames_ne_nil hframes _) (by rw [Reading.group?_setBag, hgroup])
          hothers with ⟨others, hlines, hrest⟩
      rw [Reading.setBag_setBag, Reading.bag_setBag, List.append_assoc,
        List.singleton_append] at hrest
      refine ⟨first ++ others, ?_, ?_⟩
      · rw [fieldLines, hfirst, hlines]
        rfl
      · rw [linesText_append]
        exact hshows.append hrest

theorem propertyLines_eq_scalar {v : Value} (h : isPlain v = true) (depth : Nat)
    (group : Option String) (front key : String) :
    propertyLines depth group front key v = (do
      let text ← scalar v (Catalog.spelling? key group)
      return [s!"{indent depth}{front}{key}: {text}"]) := by
  unfold propertyLines
  cases v with
  | bool b => rfl
  | int n => rfl
  | float x => rfl
  | text s => rfl
  | raw s => rfl
  | _ => exact absurd h (by simp only [isPlain, Bool.false_eq_true, not_false_eq_true])

theorem propertyLines_plain {v : Value} (h : isPlain v = true) {depth : Nat}
    {group : Option String} {front key text : String}
    (htext : scalar v (Catalog.spelling? key group) = .ok text) :
    propertyLines depth group front key v = .ok [assignmentText depth front key text] := by
  rw [propertyLines_eq_scalar h, htext]
  rfl

/-- The value has a literal that stands for it. -/
def Spelled (group : Option String) (key : String) (v : Value) : Prop :=
  ∃ t, scalar v (Catalog.spelling? key group) = .ok t ∧ Stands t (Catalog.spelling? key group) v

/-- The values that are read as written under a name, in a group if one is named. -/
inductive Legible : Option String → String → Value → Prop where
  /-- A value without structure. -/
  | plain {group : Option String} {key : String} {v : Value}
      (hname : isName key.toList = true) (hhandler : Catalog.isHandlerName key = false)
      (hpoints : group = none → Reading.splitName? key = none) (hv : Spelled group key v) :
      Legible group key v
  /-- Source text that is taken over as it stands. -/
  | verbatim {group : Option String} {key text : String} (hname : isName key.toList = true)
      (h : Verbatim key text) : Legible group key (.raw text)
  /-- The source text of a declared property. -/
  | declaration {group : Option String} {key text : String} {words : List String}
      (hkey : Declared key words) (h : Delimited text.toList) : Legible group key (.raw text)
  /-- A handler. -/
  | handler {group : Option String} {key code : String} {block : Bool}
      (hname : isName key.toList = true) (hhandler : Catalog.isHandlerName key = true)
      (h : LegibleCode code block) : Legible group key (.handler (.text code) (.bool block))
  /-- A group in a block. -/
  | block {group : Option String} {key : String} {fields : Fields}
      (hname : isName key.toList = true) (hcapital : isCapitalized key.toList = false)
      (hnodup : (Table.names fields).Nodup)
      (hfields : ∀ f ∈ fields, Legible (some key) f.1 f.2) : Legible group key (.group fields)
  /-- A group whose fields are written with points. -/
  | points {key : String} {fields : Fields}
      (hname : isName key.toList = true) (hcapital : isCapitalized key.toList = true)
      (hpoint : '.' ∉ key.toList) (hne : fields ≠ []) (hnodup : (Table.names fields).Nodup)
      (hfields : ∀ f ∈ fields, isName (key ++ "." ++ f.1).toList = true ∧
        Catalog.isHandlerName (key ++ "." ++ f.1) = false ∧ Spelled (some key) f.1 f.2) :
      Legible none key (.group fields)
  /-- An object. -/
  | object {group : Option String} {key type : String} {properties : Fields}
      (hname : isName key.toList = true) (htype : isName type.toList = true)
      (hcapital : isCapitalized type.toList = true) (hnodup : (Table.names properties).Nodup)
      (hproperties : ∀ f ∈ properties, Legible none f.1 f.2) :
      Legible group key (.object (.text type) properties)

theorem startsCapital_eq {key : String} (h : isName key.toList = true) :
    startsCapital key = isCapitalized key.toList := by
  unfold startsCapital isCapitalized
  cases hcs : key.toList with
  | nil => rfl
  | cons c cs =>
      rw [hcs] at h
      simp only [isName, Bool.and_eq_true] at h
      have hall := ascii_forall (p := fun c => Text.isUpperCase c == c.isUpper)
        (by decide +kernel) c (startsName_lt h.1)
      simpa only [beq_iff_eq] using hall

theorem written_plain {group : Option String} {key : String} {v : Value}
    (hname : isName key.toList = true) (hhandler : Catalog.isHandlerName key = false)
    (hpoints : group = none → Reading.splitName? key = none) (hv : Spelled group key v) :
    Written group key v := by
  intro depth r hframes hgroup hleaves _
  rcases hv with ⟨t, ht, hself, hvalue⟩
  refine ⟨_, propertyLines_plain (isPlain_valueOf hvalue) ht, ?_⟩
  rw [linesText_value, String.empty_append]
  refine shows_property depth hframes hname hself hhandler fun used => ?_
  rw [String.ofList_toList]
  subst hgroup
  exact Reading.assign_plain hpoints (hleaves (isPlain_valueOf hvalue) t ht hself) hvalue used

/-- Source text is written as it is. -/
theorem written_raw {group : Option String} {key text : String}
    (h : ∀ (depth : Nat) (r : Reading), r.frames ≠ [] →
      Shows (valueLine depth key text.toList) r (r.store key (.raw text))) :
    Written group key (.raw text) := by
  intro depth r hframes _ _ _
  refine ⟨_, propertyLines_plain rfl (show scalar (.raw text) _ = .ok text from rfl), ?_⟩
  rw [linesText_value, String.empty_append]
  exact h depth r hframes

theorem written_block {group : Option String} {key : String} {fields : Fields}
    (hname : isName key.toList = true) (hcapital : isCapitalized key.toList = false)
    (hnodup : (Table.names fields).Nodup)
    (hfields : ∀ f ∈ fields, Written (some key) f.1 f.2) : Written group key (.group fields) := by
  intro depth r hframes _ _ hbag
  have hopens := shows_block depth hframes hname
  rw [hcapital, if_neg (by decide), Reading.groupFields_of_eq_none hbag] at hopens
  -- The block starts empty, so its fields are free to be stored.
  have hopened : (r.push (.group key [])).frames ≠ [] := List.cons_ne_nil _ _
  rcases written_fields hfields hnodup (depth + 1) hopened rfl
      (fun f _ => ⟨fun _ _ _ _ => rfl, rfl⟩) with ⟨lines, hlines, hinside⟩
  have hcloses : Shows (closeLine depth) (r.push (.group key fields))
      (r.store key (.group fields)) :=
    shows_close depth (List.cons_ne_nil _ _) fun _ => rfl
  refine ⟨[s!"{indent depth}{key} \x7b"] ++ lines ++ [indent depth ++ "\x7d"], ?_, ?_⟩
  · rw [propertyLines, startsCapital_eq hname, hcapital, if_neg (by decide), hlines]
    rfl
  · rw [linesText_append, linesText_append, linesText_block, linesText_close]
    exact (hopens.append hinside).append hcloses

theorem Reading.splitName?_eq_none {key : String} (h : '.' ∉ key.toList) :
    Reading.splitName? key = none := by
  have htake : key.toList.takeWhile (· != '.') = key.toList := by
    have hpositive := @List.takeWhile_append_of_pos _ (· != '.') key.toList []
      (fun c hc => by
        rw [bne_iff_ne]
        rintro rfl
        exact h hc)
    rwa [List.append_nil, List.takeWhile_nil, List.append_nil] at hpositive
  unfold Reading.splitName?
  simp only [htake, List.drop_length]

theorem Reading.splitName?_pointed {key : String} (field : String) (h : '.' ∉ key.toList) :
    Reading.splitName? (key ++ "." ++ field) = some (key, field) := by
  have hpoint : ".".toList = ['.'] := by decide
  have hname : (key ++ "." ++ field).toList = key.toList ++ '.' :: field.toList := by
    simp only [String.toList_append, hpoint, List.append_assoc, List.singleton_append]
  have htake : (key.toList ++ '.' :: field.toList).takeWhile (· != '.') = key.toList := by
    refine takeWhile_append_of_forall (fun c hc => ?_) (fun c hc => ?_)
    · rw [bne_iff_ne]
      rintro rfl
      exact h hc
    · rw [List.head?_cons, Option.mem_some_iff] at hc
      rw [← hc]
      decide
  unfold Reading.splitName?
  simp only [hname, htake, List.drop_left, String.ofList_toList]

/-- The fields of a group that are written with points are collected in the group. -/
theorem written_points {key : String} {fields : Fields} (hpoint : '.' ∉ key.toList)
    (hnodup : (Table.names fields).Nodup)
    (hfields : ∀ f ∈ fields, isName (key ++ "." ++ f.1).toList = true ∧
      Catalog.isHandlerName (key ++ "." ++ f.1) = false ∧ Spelled (some key) f.1 f.2)
    (depth : Nat) {r : Reading} (hframes : r.frames ≠ []) (hgroup : r.group? = none)
    (hfree : ∀ f ∈ fields, (r.groupFields key).get? f.1 = none) :
    ∃ lines, fieldLines depth (some key) (key ++ ".") fields = .ok lines ∧
      (fields ≠ [] → Shows (linesText lines) r
        (r.store key (.group (r.groupFields key ++ fields)))) := by
  -- The induction is over the fields, with the block that holds the ones before.
  induction fields generalizing r with
  | nil => exact ⟨[], rfl, fun h => absurd rfl h⟩
  | cons f fields ih =>
      obtain ⟨field, v⟩ := f
      simp only [Table.names, List.map_cons, List.nodup_cons] at hnodup
      rcases hfields (field, v) List.mem_cons_self with ⟨hname, hhandler, t, ht, hself, hvalue⟩
      have hhead := hfree (field, v) List.mem_cons_self
      have hshows : Shows (valueLine depth (key ++ "." ++ field) t.toList) r
          (r.store key (.group (r.groupFields key ++ [(field, v)]))) := by
        refine shows_property depth hframes hname hself hhandler fun used => ?_
        rw [String.ofList_toList,
          Reading.assign_dotted hgroup (Reading.splitName?_pointed field hpoint) hvalue,
          Table.set_of_get?_eq_none v hhead]
      -- Each line replaces the group by one that has a field more.
      have hothers : ∀ f ∈ fields, ((r.store key (.group (r.groupFields key
          ++ [(field, v)]))).groupFields key).get? f.1 = none := by
        intro f hf
        have hne : field ≠ f.1 := by
          rintro rfl
          exact hnodup.1 (List.mem_map_of_mem hf)
        rw [Reading.groupFields_store,
          Table.get?_append_of_eq_none _ (hfree f (List.mem_cons_of_mem _ hf)), Table.get?,
          if_neg hne, Table.get?]
      rcases ih hnodup.2 (fun f hf => hfields f (List.mem_cons_of_mem _ hf))
          (Reading.store_frames_ne_nil hframes _ _) (by rw [Reading.group?_store, hgroup])
          hothers with ⟨others, hlines, hrest⟩
      have hline : propertyLines depth (some key) (key ++ ".") field v
          = .ok [assignmentText depth (key ++ ".") field t] :=
        propertyLines_plain (isPlain_valueOf hvalue) ht
      refine ⟨_, by rw [fieldLines, hline, hlines]; rfl, fun _ => ?_⟩
      · rw [linesText_append, linesText_value]
        by_cases hempty : fields = []
        · subst hempty
          rw [fieldLines] at hlines
          rw [← Except.ok.inj hlines, linesText_nil, List.append_nil]
          exact hshows
        · have htail := hrest hempty
          rw [Reading.groupFields_store, Reading.store_store, List.append_assoc,
            List.singleton_append] at htail
          exact hshows.append htail

theorem written_object {group : Option String} {key type : String} {properties : Fields}
    (hname : isName key.toList = true) (htype : isName type.toList = true)
    (hcapital : isCapitalized type.toList = true) (hnodup : (Table.names properties).Nodup)
    (hproperties : ∀ f ∈ properties, Written none f.1 f.2) :
    Written group key (.object (.text type) properties) := by
  intro depth r hframes _ _ _
  -- Which source text the object remembers does not matter to its properties.
  have hinside : ∀ source, ∃ lines, fieldLines (depth + 1) none "" properties = .ok lines ∧
      Shows (linesText lines) (r.push (.object key type [] false source))
        (r.push (.object key type properties false source)) := by
    intro source
    exact written_fields hproperties hnodup (depth + 1) (List.cons_ne_nil _ _) rfl
      fun f _ => ⟨fun _ _ _ _ => rfl, rfl⟩
  rcases hinside [] with ⟨lines, hlines, -⟩
  refine ⟨_, by rw [propertyLines, hlines]; rfl, ?_⟩
  · rw [linesText_append, linesText_append, linesText_object, linesText_close, String.empty_append]
    refine shows_object depth hframes hname htype hcapital fun source => ?_
    rcases hinside source with ⟨_, hlines', hshows⟩
    rw [hlines] at hlines'
    rw [← Except.ok.inj hlines'] at hshows
    exact ⟨_, hshows, List.cons_ne_nil _ _, fun _ => rfl⟩

/-- Legible values are read as written, wherever they stand. -/
theorem Legible.written {group : Option String} {key : String} {v : Value}
    (h : Legible group key v) : Written group key v := by
  induction h with
  | plain hname hhandler hpoints hv => exact written_plain hname hhandler hpoints hv
  | verbatim hname h => exact written_raw fun depth r hframes => h.shows depth hframes hname
  | @declaration group key text words hkey h =>
      refine written_raw fun depth r hframes => ?_
      have hshows := shows_declaration depth hframes hkey h
      rwa [String.ofList_toList] at hshows
  | @handler group key code block hname hhandler h =>
      intro depth r hframes _ _ _
      rcases handler_written hname hhandler h depth hframes with ⟨lines, hlines, hshows⟩
      exact ⟨lines, by rw [propertyLines, String.empty_append, hlines], hshows⟩
  | block hname hcapital hnodup _ ih => exact written_block hname hcapital hnodup ih
  | points hname hcapital hpoint hne hnodup hfields =>
      rename_i key fields
      intro depth r hframes hgroup _ hbag
      have hempty : r.groupFields key = [] := Reading.groupFields_of_eq_none hbag
      rcases written_points hpoint hnodup hfields depth hframes hgroup
          (fun f _ => by rw [hempty, Table.get?]) with ⟨lines, hlines, hshows⟩
      refine ⟨lines, ?_, ?_⟩
      · rw [propertyLines, startsCapital_eq hname, hcapital, Bool.or_true, if_pos rfl,
          String.empty_append, hlines]
      · have hgrouped := hshows hne
        rwa [hempty, List.nil_append] at hgrouped
  | object hname htype hcapital hnodup _ ih =>
      exact written_object hname htype hcapital hnodup ih

end Markup

end WidgetSync
