import WidgetSync.Proofs.Locality
import WidgetSync.Proofs.Widgets

/-!
# Documents Are Read as Written

The text of a document gives the document again.

Around the widgets stand the imports, which the reader skips, and the block of the
window. The window writes four attributes before its other properties. Source text
under one of these names is written in the place of the attribute, and reading
leaves the attribute as the settings have it, so a window comes back in a settled
form like a widget does.

After reading, ids are given out. The ids of the document are safe and distinct and
stand in the text, so nothing is left to do then.

## Main definitions

* `settledWindow`: The window as it is read back.
* `LegibleWindow`: What a window needs to be read back.
* `LegibleDocument`: What a document needs to be read back.

## Theorems

* `shows_import`: The line of an import is skipped.
* `importsOf_known`: The imports of a forest are known ones.
* `shows_windowLines`: The attributes of the window are read as written.
* `readDocument_writeDocument`: A legible document is read back in settled form.
-/

namespace WidgetSync

namespace Markup

/-- The imports that documents have. -/
def knownImports : List String :=
  Catalog.baseImports ++ Catalog.typeImports.map (·.2)

/-- The line is cut for itself, and is one statement that starts with the word for
    an import. -/
def isImportLine (line : String) : Bool :=
  let cs := line.toList ++ ['\n']
  closed cs && (scan cs).tail.isEmpty &&
    match (scan cs).tokens with
    | t :: ts => t.kind == .name && t.text == "import" && ts.getLast? == some lineEnd
        && ts.dropLast.all fun u => u.kind != .newline
    | [] => false

theorem isImportLine_known {line : String} (h : line ∈ knownImports) :
    isImportLine line = true := by
  have hall : knownImports.all isImportLine = true := by decide +kernel
  exact List.all_eq_true.mp hall line h

/-- The line of an import is skipped. -/
theorem shows_import {line : String} (h : line ∈ knownImports) {r : Reading}
    (hframes : r.frames = []) : Shows (linesText [line]) r r := by
  have hline := isImportLine_known h
  have htext : linesText [line] = line.toList ++ ['\n'] := by
    rw [linesText_cons, linesText_nil, List.append_nil]
  have hwhole : wholeLines (line.toList ++ ['\n']) = true := by
    rw [wholeLines, List.getLast?_concat, beq_self_eq_true, Bool.or_true]
  unfold isImportLine at hline
  simp only [Bool.and_eq_true, List.isEmpty_iff] at hline
  rw [htext]
  obtain ⟨⟨hclosed, htail⟩, htokens⟩ := hline
  have hlexes := lexes_of_closed hclosed hwhole htail
  cases hts : (scan (line.toList ++ ['\n'])).tokens with
  | nil =>
      rw [hts] at htokens
      exact absurd htokens (by decide)
  | cons t ts =>
      rw [hts] at htokens hlexes
      simp only [Bool.and_eq_true, beq_iff_eq] at htokens
      obtain ⟨⟨⟨hkind, hword⟩, hlast⟩, hplain⟩ := htokens
      have hsplit : ts = ts.dropLast ++ [lineEnd] := by
        rcases List.getLast?_eq_some_iff.mp hlast with ⟨front, hfront⟩
        rw [hfront, List.dropLast_concat]
      rw [hsplit] at hlexes
      refine Shows.of_tokens hlexes (Reads.line _ fun tail rest => ?_)
      have htake : (ts.dropLast ++ lineEnd :: rest).takeWhile (fun u => u.kind != .newline)
          = ts.dropLast := by
        rw [List.takeWhile_append_of_pos (List.all_eq_true.mp hplain), List.takeWhile_cons,
          if_neg (by decide), List.append_nil]
      have hempty : r.frames.isEmpty = true := by rw [hframes]; rfl
      unfold Reading.step Reading.topLevel
      rw [if_pos hempty, if_neg (by rw [hkind]; decide), if_pos ⟨hkind, Or.inl hword⟩, htake]

/-- One step of `importsOf`. -/
def addImport (found : List String) (type : Value) : Except Fault (List String) := do
  match ← importOf type with
  | some line => return if found.contains line then found else found ++ [line]
  | none => return found

theorem importsOf_eq (nodes : Forest) :
    importsOf nodes
      = ((Forest.walk nodes).flatMap typesNamed).foldlM addImport Catalog.baseImports :=
  rfl

/-- The imports of a forest are known ones. -/
theorem importsOf_known {nodes : Forest}
    (h : ∀ type ∈ (Forest.walk nodes).flatMap typesNamed, ∃ t, type = .text t) :
    ∃ imports, importsOf nodes = .ok imports ∧ ∀ line ∈ imports, line ∈ knownImports := by
  have hfold : ∀ (types : List Value) (found : List String), (∀ type ∈ types, ∃ t, type = .text t) →
      (∀ line ∈ found, line ∈ knownImports) →
      ∃ imports, types.foldlM addImport found = .ok imports ∧
        ∀ line ∈ imports, line ∈ knownImports := by
    intro types
    induction types with
    | nil => exact fun found _ hfound => ⟨found, rfl, hfound⟩
    | cons type types ih =>
        intro found htypes hfound
        rcases htypes type List.mem_cons_self with ⟨t, rfl⟩
        have himport : importOf (.text t) = .ok (Catalog.requiredImport t) := rfl
        have hothers := fun type htype => htypes type (List.mem_cons_of_mem _ htype)
        rw [List.foldlM_cons, addImport, himport]
        cases hrequired : Catalog.requiredImport t with
        | none => exact ih found hothers hfound
        | some line =>
            refine ih (if found.contains line then found else found ++ [line]) hothers ?_
            intro l hl
            split at hl
            · exact hfound l hl
            · rcases List.mem_append.mp hl with hl | hl
              · exact hfound l hl
              · rw [List.mem_singleton.mp hl]
                refine List.mem_append_right _ (List.mem_map.mpr ⟨(t, line), ?_, rfl⟩)
                exact Table.mem_of_get? hrequired
  rw [importsOf_eq]
  exact hfold _ _ h fun line hline => List.mem_append_left _ hline

/-- The names of the attributes that are always written. -/
def attributeNames : List String :=
  ["width", "height", "visible", "title"]

/-- A reading inside the block of the window. -/
def inWindow (w : Window) (roots : Forest) : Reading :=
  { window := w, roots := roots, declared := true, frames := [.window] }

/-- The window behind the line of an attribute, which a property of the same name
    replaces. -/
def attributed (properties : Fields) (key : String) (given : Window → Window) (w : Window) :
    Window :=
  match properties.get? key with
  | some v => { w with properties := w.properties ++ [(key, v)] }
  | none => given w

/-- A property that stands in the place of an attribute is read as written. -/
def LegibleInPlace (key : String) (v : Value) : Prop :=
  Legible none key v ∧ (isPlain v = true →
    ∀ t, scalar v (Catalog.spelling? key) = .ok t → SelfDelimiting t.toList →
      Reading.windowTakes key t = false)

/-- The lines of an attribute, or of the property in its place. -/
def attributeLines (properties : Fields) (key text : String) : Except Fault (List String) :=
  match properties.get? key with
  | some v => propertyLines 1 none "" key v
  | none => .ok [s!"{indent 1}{key}: {text}"]

theorem windowLines_eq (w : Window) :
    windowLines w = (do
      let header ← windowHeader w
      let first ← header.mapM fun a => attributeLines w.properties a.1 a.2
      let others ← fieldLines 1 none "" (without ("id" :: header.map (·.1)) w.properties)
      return first.flatten ++ others) :=
  rfl

/-- An attribute that is always written: its name, its source text, and the window that
    the source text gives. -/
structure Attribute where
  key : String
  text : String
  given : Window → Window

/-- The line of an attribute is read as the attribute, and so is the line of a property in
    its place. -/
structure Attribute.Legible (properties : Fields) (a : Attribute) : Prop where
  known : a.key ∈ attributeNames
  place : ∀ v, properties.get? a.key = some v → LegibleInPlace a.key v
  read : properties.get? a.key = none → SelfDelimiting a.text.toList ∧
    ∀ w, Reading.windowAttribute w a.key a.text = .ok (some (a.given w))
  keeps : ∀ w, (a.given w).properties = w.properties

theorem attributed_free {properties : Fields} {key other : String} {given : Window → Window}
    {w : Window} (hgiven : ∀ u, (given u).properties = u.properties) (hne : key ≠ other)
    (hfree : w.properties.get? other = none) :
    (attributed properties key given w).properties.get? other = none := by
  unfold attributed
  split
  · rw [Table.get?_append_of_eq_none _ hfree, Table.get?, if_neg hne, Table.get?]
  · rwa [hgiven]

/-- The line of an attribute, or of the property in its place. -/
theorem shows_attribute {properties : Fields} {a : Attribute} (h : a.Legible properties)
    (w : Window) (hfree : w.properties.get? a.key = none) :
    ∃ lines, attributeLines properties a.key a.text = .ok lines ∧
      Shows (linesText lines) (inWindow w [])
        (inWindow (attributed properties a.key a.given w) []) := by
  have hframes : (inWindow w []).frames ≠ [] := List.cons_ne_nil _ _
  unfold attributed attributeLines
  cases hget : properties.get? a.key with
  -- A property stands in the place of the attribute, and is not taken for one.
  | some v =>
      rcases h.place v hget with ⟨hlegible, htakes⟩
      rcases hlegible.written 1 (inWindow w []) hframes rfl htakes hfree with
        ⟨lines, hlines, hshows⟩
      rw [Reading.store_eq_append (r := inWindow w []) v hfree] at hshows
      exact ⟨lines, hlines, hshows⟩
  | none =>
      rcases h.read hget with ⟨hself, hattribute⟩
      have hall : ∀ key ∈ attributeNames, isName key.toList = true ∧
          Catalog.isHandlerName key = false ∧ Reading.splitName? key = none := by
        decide +kernel
      rcases hall a.key h.known with ⟨hname, hhandler, hpoints⟩
      refine ⟨_, rfl, ?_⟩
      rw [linesText_value_free]
      refine shows_property 1 hframes hname hself hhandler fun used => ?_
      rw [String.ofList_toList]
      unfold Reading.assign
      simp only [inWindow, hpoints, Option.map_none, hattribute]

/-- The lines of attributes, one after the other, each in front of the window that the ones
    before it lead to. -/
theorem shows_attributes {properties : Fields} {attributes : List Attribute}
    (h : ∀ a ∈ attributes, a.Legible properties) (hnodup : (attributes.map (·.key)).Nodup)
    (w : Window) (hfree : ∀ a ∈ attributes, w.properties.get? a.key = none) :
    ∃ lines, attributes.mapM (fun a => attributeLines properties a.key a.text) = .ok lines ∧
      Shows (linesText lines.flatten) (inWindow w [])
        (inWindow (attributes.foldl (fun u a => attributed properties a.key a.given u) w) []) := by
  induction attributes generalizing w with
  | nil => exact ⟨[], rfl, shows_nil _⟩
  | cons a others ih =>
      rw [List.map_cons, List.nodup_cons] at hnodup
      have ha := h a List.mem_cons_self
      rcases shows_attribute ha w (hfree a List.mem_cons_self) with ⟨first, hfirst, hshows⟩
      -- The line of one attribute leaves the names of the others free.
      have hothers : ∀ b ∈ others,
          (attributed properties a.key a.given w).properties.get? b.key = none := by
        intro b hb
        refine attributed_free ha.keeps ?_ (hfree b (List.mem_cons_of_mem a hb))
        intro hsame
        exact hnodup.1 (hsame ▸ List.mem_map_of_mem hb)
      rcases ih (fun b hb => h b (List.mem_cons_of_mem a hb)) hnodup.2 _ hothers with
        ⟨lines, hlines, hrest⟩
      refine ⟨first :: lines, ?_, ?_⟩
      · rw [List.mapM_cons, hfirst, hlines]
        rfl
      · rw [List.flatten_cons, linesText_append]
        exact hshows.append hrest

/-- The properties in the place of attributes, in the order in which they are written. -/
def inPlace (properties : Fields) : Fields :=
  attributeNames.filterMap fun key => (properties.get? key).map fun v => (key, v)

/-- The window as it is read back. -/
def settledWindow (s : Settings) (w : Window) : Window where
  width := if (w.properties.get? "width").isSome then .int s.width else w.width
  height := if (w.properties.get? "height").isSome then .int s.height else w.height
  title := if (w.properties.get? "title").isSome then .text s.title else w.title
  visible := if (w.properties.get? "visible").isSome then .bool true else w.visible
  properties := inPlace w.properties ++ without ("id" :: attributeNames) w.properties

/-- What a window needs to be read back. -/
structure LegibleWindow (w : Window) : Prop where
  /-- Its width and height can be written, and are numbers if no property stands in
      their place. -/
  width : (∃ t, literal w.width = .ok t) ∧
    (w.properties.get? "width" = none → LegibleNumber w.width)
  height : (∃ t, literal w.height = .ok t) ∧
    (w.properties.get? "height" = none → LegibleNumber w.height)
  /-- Its title is a text, and whether it is shown is a truth value. -/
  title : w.properties.get? "title" = none → ∃ s, w.title = .text s
  visible : w.properties.get? "visible" = none → ∃ b, w.visible = .bool b
  /-- Properties in the place of attributes are read as written. -/
  places : ∀ key ∈ attributeNames, ∀ v, w.properties.get? key = some v → LegibleInPlace key v
  /-- Its other properties have different names and are legible. -/
  nodup : (Table.names (without ("id" :: attributeNames) w.properties)).Nodup
  properties : ∀ f ∈ without ("id" :: attributeNames) w.properties, Legible none f.1 f.2

/-- The four attributes of a window, with the source text of its width and height. -/
def writtenAttributes (w : Window) (width height : String) : List Attribute :=
  [⟨"width", width, fun u => { u with width := w.width }⟩,
    ⟨"height", height, fun u => { u with height := w.height }⟩,
    ⟨"visible", if w.visible.truth then "true" else "false",
      fun u => { u with visible := w.visible }⟩,
    ⟨"title", localized (if w.title.truth then w.title.plain else ""),
      fun u => { u with title := w.title }⟩]

theorem writtenAttributes_keys (w : Window) (width height : String) :
    (writtenAttributes w width height).map (·.key) = attributeNames :=
  rfl

/-- What the lines of the four attributes make of the window of the settings. -/
theorem attributed_all (s : Settings) (w : Window) (width height : String) :
    (writtenAttributes w width height).foldl
        (fun u a => attributed w.properties a.key a.given u) (Window.usual s)
      = { settledWindow s w with properties := inPlace w.properties } := by
  -- The lines come in a fixed order, so do the properties that stand in their place.
  have hplaces : inPlace w.properties
      = ((w.properties.get? "width").map fun v => ("width", v)).toList
        ++ ((w.properties.get? "height").map fun v => ("height", v)).toList
        ++ ((w.properties.get? "visible").map fun v => ("visible", v)).toList
        ++ ((w.properties.get? "title").map fun v => ("title", v)).toList := by
    simp only [inPlace, attributeNames, List.filterMap_cons, List.filterMap_nil]
    cases w.properties.get? "width"
    all_goals cases w.properties.get? "height"
    all_goals cases w.properties.get? "visible"
    all_goals cases w.properties.get? "title"
    all_goals rfl
  rw [hplaces]
  simp only [writtenAttributes, List.foldl_cons, List.foldl_nil, attributed, settledWindow]
  cases w.properties.get? "width"
  all_goals cases w.properties.get? "height"
  all_goals cases w.properties.get? "visible"
  all_goals cases w.properties.get? "title"
  all_goals rfl

theorem title_text {v : Value} {s : String} (h : v = .text s) :
    (if v.truth then v.plain else "") = s := by
  subst h
  rw [Value.truth, Value.plain]
  split
  · rfl
  · rename_i hempty
    simp only [Bool.not_eq_true', Bool.not_eq_false] at hempty
    exact (String.isEmpty_iff.mp hempty).symm

theorem windowAttribute_number {w : Window} {v : Value} {t : String}
    (h : numberLiteral? t = .ok (some v)) :
    Reading.windowAttribute w "width" t = .ok (some { w with width := v }) ∧
      Reading.windowAttribute w "height" t = .ok (some { w with height := v }) := by
  unfold Reading.windowAttribute
  simp only [h, String.reduceEq, if_false, if_true]
  exact ⟨rfl, rfl⟩

theorem windowAttribute_visible (w : Window) (b : Bool) :
    Reading.windowAttribute w "visible" (if b then "true" else "false")
      = .ok (some { w with visible := .bool b }) := by
  unfold Reading.windowAttribute
  cases b with
  | false => simp only [String.reduceEq, if_false, Bool.false_eq_true, and_false, and_self, if_true]
  | true => simp only [String.reduceEq, if_false, and_self, if_true]

theorem windowAttribute_title (w : Window) (s : String) :
    Reading.windowAttribute w "title" (localized s) = .ok (some { w with title := .text s }) := by
  unfold Reading.windowAttribute
  simp only [String.reduceEq, if_false, if_true, stringLiteral?_localized, Option.map_some]

/-- The window leaves all other names to its properties. -/
theorem windowTakes_eq_false {key : String} (raw : String) (h : key ∉ "id" :: attributeNames) :
    Reading.windowTakes key raw = false := by
  simp only [attributeNames, List.mem_cons, List.not_mem_nil, or_false, not_or] at h
  obtain ⟨hid, hwidth, hheight, hvisible, htitle⟩ := h
  unfold Reading.windowTakes
  rw [if_neg hid, if_neg (by simp only [hwidth, hheight, or_self, not_false_eq_true]),
    if_neg htitle, beq_eq_false_iff_ne.mpr hvisible, Bool.false_and]

theorem names_inPlace {properties : Fields} {key : String}
    (h : key ∈ Table.names (inPlace properties)) : key ∈ attributeNames := by
  rcases List.mem_map.mp h with ⟨f, hf, rfl⟩
  rcases List.mem_filterMap.mp hf with ⟨k, hk, hsome⟩
  rcases Option.map_eq_some_iff.mp hsome with ⟨v, -, rfl⟩
  exact hk

/-- The four attributes of a legible window are legible. -/
theorem LegibleWindow.attributes {w : Window} {width height : String} (h : LegibleWindow w)
    (hwidth : literal w.width = .ok width) (hheight : literal w.height = .ok height) :
    ∀ a ∈ writtenAttributes w width height, a.Legible w.properties := by
  have hnumber : ∀ {v : Value} {t : String}, literal v = .ok t → LegibleNumber v →
      SelfDelimiting t.toList ∧ numberLiteral? t = .ok (some v) := by
    intro v t ht hv
    rcases hv with ⟨t', ht', hself, hvalue⟩
    rw [ht] at ht'
    rw [Except.ok.inj ht']
    exact ⟨hself, hvalue⟩
  intro a ha
  have hknown : a.key ∈ attributeNames :=
    writtenAttributes_keys w width height ▸ List.mem_map_of_mem ha
  have hplace := h.places a.key hknown
  simp only [writtenAttributes, List.mem_cons, List.not_mem_nil, or_false] at ha
  rcases ha with rfl | rfl | rfl | rfl
  · refine ⟨hknown, hplace, fun hnone => ?_, fun _ => rfl⟩
    have hread := hnumber hwidth (h.width.2 hnone)
    exact ⟨hread.1, fun u => (windowAttribute_number hread.2).1⟩
  · refine ⟨hknown, hplace, fun hnone => ?_, fun _ => rfl⟩
    have hread := hnumber hheight (h.height.2 hnone)
    exact ⟨hread.1, fun u => (windowAttribute_number hread.2).2⟩
  · refine ⟨hknown, hplace, fun hnone => ?_, fun _ => rfl⟩
    rcases h.visible hnone with ⟨b, hb⟩
    rw [hb]
    exact ⟨(@stands_bool b ⟨.bool, none⟩ rfl).1, fun u => windowAttribute_visible u b⟩
  · refine ⟨hknown, hplace, fun hnone => ?_, fun _ => rfl⟩
    rcases h.title hnone with ⟨t, ht⟩
    rw [title_text ht, localized_toList, ht]
    exact ⟨selfDelimiting_localized t, fun u => windowAttribute_title u t⟩

/-- The lines of the window's attributes and properties are read as written. -/
theorem shows_windowLines (s : Settings) {w : Window} (h : LegibleWindow w) :
    ∃ lines, windowLines w = .ok lines ∧
      Shows (linesText lines) (inWindow (.usual s) []) (inWindow (settledWindow s w) []) := by
  rcases h.width.1 with ⟨width, hwidth⟩
  rcases h.height.1 with ⟨height, hheight⟩
  -- The four attributes lead from the window of the settings to the settled attributes.
  have hnodup : ((writtenAttributes w width height).map (·.key)).Nodup := by
    rw [writtenAttributes_keys]
    decide
  rcases shows_attributes (h.attributes hwidth hheight) hnodup (.usual s)
    (fun _ _ => rfl) with ⟨first, hfirst, hattributes⟩
  rw [attributed_all] at hattributes
  generalize hw : { settledWindow s w with properties := inPlace w.properties } = u at hattributes
  have hbag : (inWindow u []).bag = inPlace w.properties := by rw [← hw]; rfl
  -- The other properties have names that no attribute has, so the window leaves them alone.
  have hfree : ∀ f ∈ without ("id" :: attributeNames) w.properties,
      (inWindow u []).leaves f.1 f.2 ∧ (inWindow u []).bag.get? f.1 = none := by
    intro f hf
    have hnot := without_mem hf
    refine ⟨fun _ t _ _ => windowTakes_eq_false t hnot, ?_⟩
    rw [hbag]
    exact Table.get?_eq_none_of_not_mem fun hmem =>
      hnot (List.mem_cons_of_mem _ (names_inPlace hmem))
  rcases written_fields (fun f hf => (h.properties f hf).written) h.nodup 1
      (r := inWindow u []) (List.cons_ne_nil _ _) rfl hfree with ⟨others, hothers, hfields⟩
  have hsettled : (inWindow u []).setBag ((inWindow u []).bag
      ++ without ("id" :: attributeNames) w.properties) = inWindow (settledWindow s w) [] := by
    rw [hbag, ← hw]
    rfl
  rw [hsettled] at hfields
  refine ⟨first.flatten ++ others, ?_, ?_⟩
  · have hlines : windowLines w = (do
        let first ← (writtenAttributes w width height).mapM fun a =>
          attributeLines w.properties a.key a.text
        let others ← fieldLines 1 none "" (without ("id" :: attributeNames) w.properties)
        return first.flatten ++ others) := by
      rw [windowLines_eq, windowHeader, hwidth, hheight]
      rfl
    rw [hlines, hfirst, hothers]
    rfl
  · rw [linesText_append]
    exact hattributes.append hfields

/-- What a document needs to be read back. -/
structure LegibleDocument (d : Document) : Prop where
  /-- Its window is legible. -/
  window : LegibleWindow d.window
  /-- All its widgets are legible. -/
  nodes : ∀ n ∈ Forest.walk d.nodes, LegibleNode n
  /-- Its ids are safe and distinct. -/
  ids : Forest.WellNamed d.nodes

/-- The document as it is read back. -/
def settledDocument (s : Settings) (d : Document) : Document :=
  ⟨settledWindow s d.window, Forest.settled d.nodes⟩

theorem intercalate_lines {ls : List String} (h : ls ≠ []) :
    ("\n".intercalate ls ++ "\n").toList = linesText ls := by
  have hmark : "\n".toList = ['\n'] := by decide
  rw [String.toList_append, String.toList_intercalate, hmark]
  induction ls with
  | nil => exact absurd rfl h
  | cons l ls ih =>
      cases ls with
      | nil =>
          rw [List.map_cons, List.map_nil, List.intercalate_singleton, linesText_cons,
            linesText_nil, List.append_nil]
      | cons m ms =>
          have hrest := ih (List.cons_ne_nil _ _)
          rw [List.map_cons] at hrest
          rw [List.map_cons, List.map_cons, List.intercalate_cons_cons, linesText_cons, ← hrest,
            List.append_assoc, List.append_assoc]

/-- The line that opens the block of the window. -/
theorem shows_windowBlock (w : Window) :
    Shows (linesText ["ApplicationWindow \x7b"]) { window := w } (inWindow w []) := by
  have hname : isName "ApplicationWindow".toList = true := by decide +kernel
  have hline : linesText ["ApplicationWindow \x7b"] = blockLine 0 "ApplicationWindow".toList := by
    rw [← linesText_block]
    decide
  rw [hline]
  refine Shows.of_tokens (Lexes.nameLine 0 hname ⟨' ', _, rfl, by decide⟩ lexes_brace)
    (Reads.line [⟨.opening, [' '], ['\x7b']⟩] fun tail rest => ?_)
  have hcontainer : Catalog.rootContainers.contains "ApplicationWindow" = true := by decide
  unfold Reading.step Reading.topLevel
  simp only [List.isEmpty_nil, if_true, reduceCtorEq, or_self, if_false, text_name, String.reduceEq,
    and_false, List.cons_append, starts, beq_self_eq_true, and_self, Bool.not_false, hcontainer,
    Bool.and_self, List.length_cons, List.length_nil, Nat.zero_add]
  rfl

/-- The line of the window's id. -/
theorem shows_windowId (w : Window) :
    Shows (linesText [s!"{indent 1}id: window"]) (inWindow w []) (inWindow w []) := by
  have hline : linesText [s!"{indent 1}id: window"] = valueLine 1 "id" "window".toList := by
    rw [← linesText_value_free]
    decide
  rw [hline]
  refine shows_property 1 (List.cons_ne_nil _ _) (by decide)
    (selfDelimiting_name (by decide +kernel)) (by decide) fun used => ?_
  have hpoints : Reading.splitName? "id" = none := by decide
  unfold Reading.assign Reading.windowAttribute
  simp only [inWindow, hpoints, Option.map_none, if_true]

/-- The line that closes the block of the window. -/
theorem shows_windowEnd (w : Window) (roots : Forest) :
    Shows (linesText ["\x7d"]) (inWindow w roots)
      { window := w, roots := roots, declared := true, frames := [] } := by
  have hline : linesText ["\x7d"] = closeLine 0 := by decide
  rw [hline]
  exact shows_close 0 (List.cons_ne_nil _ _) fun _ => rfl

theorem shows_imports {lines : List String} (h : ∀ line ∈ lines, line ∈ knownImports) {r : Reading}
    (hframes : r.frames = []) : Shows (linesText lines) r r := by
  induction lines with
  | nil => exact shows_nil r
  | cons line lines ih =>
      have hsplit : linesText (line :: lines) = linesText [line] ++ linesText lines := by
        rw [linesText_cons, linesText_cons, linesText_nil, List.append_nil]
      rw [hsplit]
      exact (shows_import (h line List.mem_cons_self) hframes).append
        (ih fun l hl => h l (List.mem_cons_of_mem _ hl))

theorem foldl_adopt_window (w : Window) (roots ns : List Node) :
    ns.foldl Reading.adopt (inWindow w roots) = inWindow w (roots ++ ns) := by
  induction ns generalizing roots with
  | nil => rw [List.foldl_nil, List.append_nil]
  | cons n ns ih =>
      have hadopt : (inWindow w roots).adopt n = inWindow w (roots ++ [n]) := rfl
      rw [List.foldl_cons, hadopt, ih, List.append_assoc, List.singleton_append]

/-- What is read of the text of a legible document. -/
theorem shows_document (s : Settings) {d : Document} (h : LegibleDocument d) :
    ∃ text, writeDocument d = .ok text ∧ Shows text.toList { window := .usual s }
      { window := settledWindow s d.window
        roots := Forest.settled d.nodes
        declared := true } := by
  have htypes : ∀ type ∈ (Forest.walk d.nodes).flatMap typesNamed, ∃ t, type = .text t := by
    intro type htype
    rcases List.mem_flatMap.mp htype with ⟨n, hn, htype⟩
    rcases List.mem_cons.mp htype with rfl | htype
    · rcases (h.nodes n hn).type with ⟨t, ht, -⟩
      exact ⟨t, ht⟩
    · rcases List.mem_filterMap.mp htype with ⟨⟨key, v⟩, hf, hsome⟩
      cases v with
      | object type' ps =>
          rw [← Option.some.inj hsome]
          exact (h.nodes n hn).objects _ hf type' ps rfl
      | _ => exact absurd hsome (by simp only [reduceCtorEq, not_false_eq_true])
  rcases importsOf_known htypes with ⟨imports, himports, hknown⟩
  rcases shows_windowLines s h.window with ⟨attributes, hattributes, hwindow⟩
  rcases Forest.shows 1 d.nodes h.nodes (inWindow (settledWindow s d.window) [])
      (List.cons_ne_nil _ _) with ⟨widgets, hwidgets, hnodes⟩
  rw [foldl_adopt_window, List.nil_append] at hnodes
  refine ⟨"\n".intercalate (imports ++ ["", "ApplicationWindow \x7b", s!"{indent 1}id: window"]
    ++ attributes ++ widgets ++ ["\x7d"]) ++ "\n", ?_, ?_⟩
  · rw [writeDocument, himports, hattributes, hwidgets]
    rfl
  · rw [intercalate_lines (List.append_ne_nil_of_right_ne_nil _ (List.cons_ne_nil _ _))]
    have hhead : ["", "ApplicationWindow \x7b", s!"{indent 1}id: window"]
        = [""] ++ ["ApplicationWindow \x7b"] ++ [s!"{indent 1}id: window"] := rfl
    have hblank : linesText [""] = ['\n'] := by decide
    simp only [hhead, linesText_append, hblank]
    have himported : Shows (linesText imports) { window := .usual s } { window := .usual s } :=
      shows_imports hknown rfl
    have hopened := ((shows_blank _).append (shows_windowBlock (.usual s))).append
      (shows_windowId (.usual s))
    exact (((himported.append hopened).append hwindow).append hnodes).append (shows_windowEnd _ _)

/-- A text that shows what was read is read as that. -/
theorem run_of_shows {text : List Char} {r s : Reading} (h : Shows text r s)
    (hframes : s.frames = []) : (r.run (scan text).tail (scan text).tokens).reading = s := by
  have houtcome := h.2 (scan text).tail []
  rw [List.append_nil, Reading.outcome, Reading.outcome, Reading.run.eq_def s] at houtcome
  have hreading := congrArg Prod.fst houtcome
  simp only at hreading
  rw [hreading, Reading.closeAll, hframes]
  rfl

/-- A legible document is read back in settled form. -/
theorem readDocument_writeDocument (s : Settings) {d : Document} (h : LegibleDocument d) :
    ∃ text, writeDocument d = .ok text ∧ (readDocument s text).1 = settledDocument s d := by
  rcases shows_document s h with ⟨text, htext, hshows⟩
  refine ⟨text, htext, ?_⟩
  have hids : Forest.WellNamed (Forest.settled d.nodes) := by
    rcases h.ids with ⟨names, hnames, hdistinct⟩
    exact ⟨names, by rw [Forest.settled_ids, hnames], hdistinct⟩
  unfold readDocument
  simp only [run_of_shows hshows rfl, Forest.assignIds_self hids.keyed]
  rfl

end Markup

end WidgetSync
