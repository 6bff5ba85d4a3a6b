import WidgetSync.Proofs.Formed

/-!
# Typed Documents

The documents of which every value has the kind that the catalog expects.

A property is typed if the catalog lists it and its value is of the listed kind, if
it is a group of such fields, or if it is an object with typed properties. Nothing
is assumed about the texts in it. These are the documents that an editor of forms
works with, and for them reading undoes writing.

Typed properties are a kind that is carried, so all that is left to show is about a
single property: it is legible as soon as its integers are short enough to be written,
and if they are not it is not written.

## Main definitions

* `Typed`: A property whose value is of the right kind.
* `TypedBody`, `TypedNode`, `TypedWindow`, `TypedDocument`: The same for widgets,
  windows and documents.

## Theorems

* `Typed.legible`: Typed properties that fit are legible.
* `Typed.writable_of_propertyLines`: Typed properties that are written fit.
* `typed_carried`: Typed properties survive writing and reading.
* `writeDocument_readDocument_typed`: Reading undoes writing on typed documents.
-/

namespace WidgetSync

namespace Markup

/-- The value is of the kind that the catalog lists for the name, in a group if one is
    named. -/
def Listed (group : Option String) (key : String) (v : Value) : Prop :=
  ∃ spelling, Catalog.spelling? key group = some spelling ∧ spelling.admits v = true

/-- The groups that are written as blocks. -/
def blockGroups : List String :=
  ["font", "border", "anchors"]

/-- A property whose value is of the right kind: a listed value, a group of listed
    fields, or an object with such properties. -/
inductive Typed : String → Value → Prop where
  /-- A listed value. -/
  | plain {key : String} {v : Value} (hv : Listed none key v) : Typed key v
  /-- A group of listed fields. -/
  | group {key : String} {fields : Fields}
      (hkey : key ∈ blockGroups ∨ key = "Layout" ∧ fields ≠ [])
      (hnodup : (Table.names fields).Nodup)
      (hfields : ∀ f ∈ fields, Listed (some key) f.1 f.2) : Typed key (.group fields)
  /-- An object. -/
  | object {key type : String} {properties : Fields}
      (hname : isName key.toList = true) (hpoint : '.' ∉ key.toList)
      (hfree : key ∉ "id" :: Catalog.geometry) (htype : isName type.toList = true)
      (hcapital : isCapitalized type.toList = true) (hnodup : (Table.names properties).Nodup)
      (hproperties : ∀ f ∈ properties, Typed f.1 f.2) : Typed key (.object (.text type) properties)

/-- A widget whose values are of the right kind, apart from its id and its children. -/
structure TypedBody (n : Node) : Prop where
  type : ∃ t, n.type = .text t ∧ isName t.toList = true ∧ isCapitalized t.toList = true
  x : ∃ i, n.x = .int i
  y : ∃ i, n.y = .int i
  width : ∃ i, n.width = .int i
  height : ∃ i, n.height = .int i
  nodup : (Table.names n.properties).Nodup
  properties : ∀ f ∈ n.properties, Typed f.1 f.2

/-- A widget, without its children, whose values are of the right kind. -/
structure TypedNode (n : Node) : Prop extends TypedBody n where
  id : ∃ s, n.id = .text s ∧ isSafeId s = true

/-- A window whose values are of the right kind. -/
structure TypedWindow (w : Window) : Prop where
  width : ∃ i, w.width = .int i
  height : ∃ i, w.height = .int i
  title : ∃ s, w.title = .text s
  visible : ∃ b, w.visible = .bool b
  nodup : (Table.names w.properties).Nodup
  properties : ∀ f ∈ w.properties, f.1 ∉ "id" :: attributeNames ∧ Typed f.1 f.2

/-- A document whose values are of the right kind and whose ids are different. -/
structure TypedDocument (d : Document) : Prop where
  window : TypedWindow d.window
  nodes : ∀ n ∈ Forest.walk d.nodes, TypedNode n
  distinct : ((Forest.walk d.nodes).map (·.id)).Nodup

/-- A listed value that can be written has a literal that stands for it. -/
theorem Listed.spelled {group : Option String} {key : String} {v : Value}
    (h : Listed group key v) (hwritable : v.writable = true) : Spelled group key v := by
  rcases h with ⟨spelling, hspelling, hadmits⟩
  rw [Spelled, hspelling]
  exact scalar_spec (Catalog.spelling?_scopeFits hspelling) hadmits hwritable

/-- The names that the catalog lists are names, of no handler and without points, and
    no block of a widget has a use of its own for them. -/
theorem listed_name {key : String} {spelling : Catalog.Spelling}
    (h : Catalog.spelling? key = some spelling) :
    isName key.toList = true ∧ Catalog.isHandlerName key = false ∧ '.' ∉ key.toList ∧
      key ∉ "id" :: Catalog.geometry := by
  have hall : ∀ e ∈ Catalog.properties, isName e.1.toList = true ∧
      Catalog.isHandlerName e.1 = false ∧ '.' ∉ e.1.toList ∧
      e.1 ∉ "id" :: Catalog.geometry := by
    decide +kernel
  exact hall _ (Table.mem_of_get? h)

/-- The same for the fields of groups, alone and behind the name of the group. -/
theorem listed_field {group key : String} {spelling : Catalog.Spelling}
    (h : Catalog.spelling? key (some group) = some spelling) :
    isName key.toList = true ∧ Catalog.isHandlerName key = false ∧
      isName (group ++ "." ++ key).toList = true ∧
      Catalog.isHandlerName (group ++ "." ++ key) = false := by
  have hall : ∀ g ∈ Catalog.groups, ∀ e ∈ g.2, isName e.1.toList = true ∧
      Catalog.isHandlerName e.1 = false ∧ isName (g.1 ++ "." ++ e.1).toList = true ∧
      Catalog.isHandlerName (g.1 ++ "." ++ e.1) = false := by
    decide +kernel
  simp only [Catalog.spelling?] at h
  cases hg : Table.get? Catalog.groups group with
  | none =>
      rw [hg] at h
      exact absurd h (by simp only [Option.getD_none, Table.get?, reduceCtorEq,
        not_false_eq_true])
  | some fields =>
      rw [hg] at h
      exact hall (group, fields) (Table.mem_of_get? hg) (key, spelling) (Table.mem_of_get? h)

theorem blockGroups_name {key : String} (h : key ∈ blockGroups) :
    isName key.toList = true ∧ isCapitalized key.toList = false ∧
      key ∉ "id" :: Catalog.geometry := by
  have hall : ∀ key ∈ blockGroups, isName key.toList = true ∧
      isCapitalized key.toList = false ∧ key ∉ "id" :: Catalog.geometry := by
    decide +kernel
  exact hall key h

/-- No block of a widget has a use of its own for the name of a typed property. -/
theorem Typed.free {key : String} {v : Value} (h : Typed key v) :
    key ∉ "id" :: Catalog.geometry := by
  cases h with
  | plain hv =>
      rcases hv with ⟨spelling, hspelling, -⟩
      exact (listed_name hspelling).2.2.2
  | group hkey =>
      rcases hkey with hkey | ⟨rfl, -⟩
      · exact (blockGroups_name hkey).2.2
      · decide
  | object hname hpoint hfree => exact hfree

/-- A typed property that fits is legible. -/
theorem Typed.legible {key : String} {v : Value} (h : Typed key v)
    (hwritable : v.writable = true) : Legible none key v := by
  induction h with
  | plain hv =>
      rcases hv with ⟨spelling, hspelling, hadmits⟩
      rcases listed_name hspelling with ⟨hname, hhandler, hpoint, -⟩
      exact Legible.plain hname hhandler (fun _ => Reading.splitName?_eq_none hpoint)
        (Listed.spelled ⟨spelling, hspelling, hadmits⟩ hwritable)
  | group hkey hnodup hfields =>
      rename_i key fields
      rw [Value.writable] at hwritable
      rcases hkey with hkey | ⟨rfl, hne⟩
      · rcases blockGroups_name hkey with ⟨hname, hcapital, -⟩
        refine Legible.block hname hcapital hnodup fun f hf => ?_
        rcases hfields f hf with ⟨spelling, hspelling, hadmits⟩
        rcases listed_field hspelling with ⟨hfield, hhandler, -, -⟩
        exact Legible.plain hfield hhandler (fun hnone => absurd hnone (by
          simp only [reduceCtorEq, not_false_eq_true]))
          (Listed.spelled ⟨spelling, hspelling, hadmits⟩ (writable_of_mem hwritable hf))
      · refine Legible.points (by decide) (by decide) (by decide) hne hnodup fun f hf => ?_
        rcases hfields f hf with ⟨spelling, hspelling, hadmits⟩
        rcases listed_field hspelling with ⟨-, -, hname, hhandler⟩
        exact ⟨hname, hhandler,
          Listed.spelled ⟨spelling, hspelling, hadmits⟩ (writable_of_mem hwritable hf)⟩
  | object hname hpoint hfree htype hcapital hnodup hproperties ih =>
      rw [Value.writable, Bool.and_eq_true] at hwritable
      exact Legible.object hname htype hcapital hnodup fun f hf =>
        ih f hf (writable_of_mem hwritable.2 hf)

theorem isPlain_of_admits {spelling : Catalog.Spelling} {v : Value}
    (h : spelling.admits v = true) : isPlain v = true := by
  cases v with
  | text s => rfl
  | int n => rfl
  | bool b => rfl
  | _ => exact absurd h (by simp only [Catalog.Spelling.admits, Bool.false_eq_true,
      not_false_eq_true])

theorem Listed.writable_of_propertyLines {depth : Nat} {group : Option String}
    {front key : String} {v : Value} {lines : List String} (hv : Listed group key v)
    (h : propertyLines depth group front key v = .ok lines) : v.writable = true := by
  rcases hv with ⟨spelling, hspelling, hadmits⟩
  rw [propertyLines_eq_scalar (isPlain_of_admits hadmits), hspelling] at h
  rcases ok_of_bind h with ⟨t, ht, -⟩
  exact writable_of_scalar hadmits ht

/-- The fields of a group whose lines are written. -/
theorem fieldLines_of_group {depth : Nat} {group : Option String} {front key : String}
    {fields : Fields} {lines : List String}
    (h : propertyLines depth group front key (.group fields) = .ok lines) :
    ∃ depth' front' ls, fieldLines depth' (some key) front' fields = .ok ls := by
  rw [propertyLines] at h
  split at h
  · exact ⟨_, _, _, h⟩
  · rcases ok_of_bind h with ⟨inner, hinner, -⟩
    exact ⟨_, _, _, hinner⟩

/-- A typed property whose lines are written fits. -/
theorem Typed.writable_of_propertyLines {key : String} {v : Value} (h : Typed key v)
    {depth : Nat} {front : String} {lines : List String}
    (hlines : propertyLines depth none front key v = .ok lines) : v.writable = true := by
  induction h generalizing depth front lines with
  | plain hv => exact hv.writable_of_propertyLines hlines
  | group hkey hnodup hfields =>
      rw [Value.writable]
      rcases fieldLines_of_group hlines with ⟨_, _, _, hinner⟩
      refine writableEntries_of_forall fun f hf => ?_
      rcases propertyLines_of_fieldLines hinner hf with ⟨_, hfield⟩
      exact (hfields f hf).writable_of_propertyLines hfield
  | object hname hpoint hfree htype hcapital hnodup hproperties ih =>
      rw [propertyLines] at hlines
      rcases ok_of_bind hlines with ⟨inner, hinner, -⟩
      have htext : ∀ t : String, (Value.text t).writable = true := fun _ => rfl
      rw [Value.writable, htext, Bool.true_and]
      refine writableEntries_of_forall fun f hf => ?_
      rcases propertyLines_of_fieldLines hinner hf with ⟨_, hfield⟩
      exact ih f hf hfield

/-- Typed properties survive writing and reading. -/
theorem typed_carried : Carried Typed where
  free := Typed.free
  legible := Typed.legible
  writable := fun h _ _ _ hlines => h.writable_of_propertyLines hlines
  objects := fun h => by
    cases h with
    | plain hv =>
        rcases hv with ⟨spelling, -, hadmits⟩
        exact absurd hadmits (by simp only [Catalog.Spelling.admits, Bool.false_eq_true,
          not_false_eq_true])
    | object => exact ⟨_, rfl⟩

/-- A typed document is one with typed properties. -/
theorem TypedDocument.formed {d : Document} (h : TypedDocument d) : FormedDocument Typed d where
  window := { h.window with }
  nodes := fun n hn => { (h.nodes n hn).toTypedBody, h.nodes n hn with }
  distinct := h.distinct

/-- A typed document that fits is written, and reading gives it again. -/
theorem TypedDocument.restored (s : Settings) {d : Document} (h : TypedDocument d)
    (hfits : d.fits = true) :
    ∃ text, writeDocument d = .ok text ∧ (readDocument s text).1 = d :=
  h.formed.restored typed_carried s hfits

/-- Reading undoes writing on typed documents. A typed document can be written just if
    its integers are short enough, and reading its text gives the document again. -/
theorem writeDocument_readDocument_typed (s : Settings) (d : Document) (h : TypedDocument d) :
    ((∃ text, writeDocument d = .ok text) ↔ d.fits = true) ∧
      ∀ text, writeDocument d = .ok text → (readDocument s text).1 = d := by
  exact h.formed.undone typed_carried s

/-- A form with a signed size, quotes and line feeds in its texts, groups of all four
    sorts, objects in objects and widgets in widgets. -/
def sampleForm : Document where
  window :=
    { width := .int (-640), height := .int 480, title := .text "\"Sign in\"\n\\ now \x7b"
      visible := .bool true
      properties := [("background", .object (.text "Rectangle")
        [("color", .text "\t#fff"), ("gradient", .object (.text "Gradient") [])])] }
  nodes :=
    [{ type := .text "QtQuick.Frame", id := .text "frame", x := .int (-3), y := .int 0
       width := .int 300, height := .int 200
       properties := [("border", .group []), ("Layout", .group [("row", .int (-1))])]
       children :=
         [{ type := .text "Label", id := .text "_1", x := .int 0, y := .int 0
            width := .int 9, height := .int (-9)
            properties :=
              [("text", .text "// no comment \x7d"), ("wrapMode", .text "WordWrap"),
               ("font", .group [("bold", .bool false), ("weight", .text "Light")]),
               ("anchors", .group [("margins", .int 4)])] }] },
     { type := .text "Button", id := .text "ok", x := .int 1, y := .int 2
       width := .int 3, height := .int 4 }]

theorem listed_of_admits {group : Option String} {key : String} {v : Value}
    (h : (Catalog.spelling? key group).any (·.admits v) = true) : Listed group key v := by
  cases hspelling : Catalog.spelling? key group with
  | none =>
      rw [hspelling] at h
      exact absurd h Bool.false_ne_true
  | some spelling =>
      rw [hspelling] at h
      exact ⟨spelling, hspelling, h⟩

theorem sampleForm_typed : TypedDocument sampleForm := by
  refine ⟨⟨⟨_, rfl⟩, ⟨_, rfl⟩, ⟨_, rfl⟩, ⟨_, rfl⟩, by decide, ?_⟩, ?_, ?_⟩
  · intro f hf
    simp only [sampleForm, List.mem_cons, List.not_mem_nil, or_false] at hf
    subst hf
    refine ⟨by decide, .object (by decide +kernel) (by decide) (by decide) (by decide +kernel)
      (by decide) (by decide) fun f hf => ?_⟩
    simp only [List.mem_cons, List.not_mem_nil, or_false] at hf
    rcases hf with rfl | rfl
    · exact .plain (listed_of_admits (by decide +kernel))
    · refine .object (by decide +kernel) (by decide) (by decide) (by decide +kernel)
        (by decide) (by decide) fun f hf => absurd hf List.not_mem_nil
  · intro n hn
    simp only [sampleForm, Forest.walk, Node.depthFirst, List.append_nil, List.cons_append,
      List.nil_append, List.mem_cons, List.not_mem_nil, or_false] at hn
    rcases hn with rfl | rfl | rfl
    · refine ⟨⟨⟨_, rfl, by decide +kernel, by decide +kernel⟩, ⟨_, rfl⟩, ⟨_, rfl⟩, ⟨_, rfl⟩,
        ⟨_, rfl⟩, by decide, fun f hf => ?_⟩, ⟨_, rfl, by decide⟩⟩
      simp only [List.mem_cons, List.not_mem_nil, or_false] at hf
      rcases hf with rfl | rfl
      · exact .group (.inl (by decide)) (by decide) fun f hf => absurd hf List.not_mem_nil
      · refine .group (.inr ⟨rfl, by decide⟩) (by decide) fun f hf => ?_
        simp only [List.mem_cons, List.not_mem_nil, or_false] at hf
        subst hf
        exact listed_of_admits (by decide +kernel)
    · refine ⟨⟨⟨_, rfl, by decide +kernel, by decide +kernel⟩, ⟨_, rfl⟩, ⟨_, rfl⟩, ⟨_, rfl⟩,
        ⟨_, rfl⟩, by decide, fun f hf => ?_⟩, ⟨_, rfl, by decide⟩⟩
      simp only [List.mem_cons, List.not_mem_nil, or_false] at hf
      rcases hf with rfl | rfl | rfl | rfl
      · exact .plain (listed_of_admits (by decide +kernel))
      · exact .plain (listed_of_admits (by decide +kernel))
      · refine .group (.inl (by decide)) (by decide) fun f hf => ?_
        simp only [List.mem_cons, List.not_mem_nil, or_false] at hf
        rcases hf with rfl | rfl
        · exact listed_of_admits (by decide +kernel)
        · exact listed_of_admits (by decide +kernel)
      · refine .group (.inl (by decide)) (by decide) fun f hf => ?_
        simp only [List.mem_cons, List.not_mem_nil, or_false] at hf
        subst hf
        exact listed_of_admits (by decide +kernel)
    · exact ⟨⟨⟨_, rfl, by decide +kernel, by decide +kernel⟩, ⟨_, rfl⟩, ⟨_, rfl⟩, ⟨_, rfl⟩,
        ⟨_, rfl⟩, by decide, fun f hf => absurd hf List.not_mem_nil⟩, ⟨_, rfl, by decide⟩⟩
  · simp only [sampleForm, Forest.walk, Node.depthFirst, List.append_nil, List.cons_append,
      List.nil_append, List.map_cons, List.map_nil, List.nodup_cons, List.mem_cons,
      Value.text.injEq, List.not_mem_nil, or_false, List.nodup_nil, and_true]
    decide

theorem sampleForm_restored :
    TypedDocument sampleForm ∧ ∃ text, writeDocument sampleForm = .ok text ∧
      (readDocument {} text).1 = sampleForm := by
  rcases writeDocument_readDocument_typed {} sampleForm sampleForm_typed with ⟨hwritten, hread⟩
  rcases hwritten.mpr (by decide +kernel) with ⟨text, htext⟩
  exact ⟨sampleForm_typed, text, htext, hread text htext⟩

end Markup

end WidgetSync
