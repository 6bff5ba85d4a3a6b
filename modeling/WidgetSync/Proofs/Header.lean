import WidgetSync.Proofs.Canonical
import WidgetSync.Proofs.Writable

/-!
# The Header of a Text

A text that is written begins with its imports. Are they all that its types need?

The imports are collected on a walk of their own, and the types are written on another.
The first walk comes to every widget and looks at the values of its properties, but it
does not look into them. The second one goes through groups and objects to any depth and
begins with the properties of the window. So a type that only stands deeper, in a group,
in another object or in the window, is written and may lack its import.

`Document.typeNames` collects the names that the text mentions, and `Document.outerNames`
those that the header is made for. Whether the import of a name stands in the header is a
question about the outer names alone.

## Main definitions

* `header`: The lines of a text in front of the first empty one.
* `Value.objectNames`: The types of the objects in a value, at any depth.
* `Document.typeNames`: The types that a document mentions.
* `Document.outerNames`: Those that the imports are collected from.

## Theorems

* `addImport_spec`, `foldlM_addImport`: What collecting imports adds.
* `importsOf_spec`: The imports of a forest.
* `header_writeDocument`: The header of a text are these imports.
* `header_complete_iff`: When the import of a type stands in the header.
-/

namespace WidgetSync

open Markup (typesNamed importOf importsOf)

mutual

/-- The names of the types of the objects in a value, at any depth. -/
def Value.objectNames : Value → List String
  | .object type properties => type.asText?.toList ++ Value.objectNamesIn properties
  | .group fields => Value.objectNamesIn fields
  | _ => []

/-- The names of the types of the objects in fields. -/
def Value.objectNamesIn : List (String × Value) → List String
  | [] => []
  | (_, v) :: fields => v.objectNames ++ Value.objectNamesIn fields

end

namespace Document

/-- The names of the types that a document mentions: those of its widgets, and of the
    objects in their properties and in those of the window. -/
def typeNames (d : Document) : List String :=
  ((Forest.walk d.nodes).flatMap fun n =>
    n.type.asText?.toList ++ Value.objectNamesIn n.properties) ++
  Value.objectNamesIn d.window.properties

/-- The names of the types of the widgets, and of the objects that are themselves the value
    of a property of a widget. -/
def outerNames (d : Document) : List String :=
  ((Forest.walk d.nodes).flatMap typesNamed).filterMap Value.asText?

end Document

theorem Value.mem_objectNamesIn {fields : List (String × Value)} {key : String} {v : Value}
    (hv : (key, v) ∈ fields) {name : String} (hname : name ∈ v.objectNames) :
    name ∈ Value.objectNamesIn fields := by
  induction fields with
  | nil => exact absurd hv List.not_mem_nil
  | cons f fields ih =>
      obtain ⟨other, w⟩ := f
      rw [Value.objectNamesIn, List.mem_append]
      rcases List.mem_cons.mp hv with heq | hv
      · exact .inl ((Prod.mk.inj heq).2 ▸ hname)
      · exact .inr (ih hv)

/-- The outer names are among all names. -/
theorem Document.outerNames_subset (d : Document) : d.outerNames ⊆ d.typeNames := by
  intro name hname
  rcases List.mem_filterMap.mp hname with ⟨type, htype, htext⟩
  rcases List.mem_flatMap.mp htype with ⟨n, hn, htype⟩
  refine List.mem_append_left _ (List.mem_flatMap.mpr ⟨n, hn, List.mem_append.mpr ?_⟩)
  rcases List.mem_cons.mp htype with rfl | htype
  · exact .inl (Option.mem_toList.mpr htext)
  · -- An object that is itself a value is the first that is found in it.
    rcases List.mem_filterMap.mp htype with ⟨⟨key, v⟩, hv, hobject⟩
    refine .inr (Value.mem_objectNamesIn hv ?_)
    cases v with
    | object type' properties =>
        obtain rfl := Option.some.inj hobject
        rw [Value.objectNames]
        exact List.mem_append_left _ (Option.mem_toList.mpr htext)
    | _ => exact absurd hobject (by simp only [reduceCtorEq, not_false_eq_true])

namespace Markup

/-- The lines of a text in front of the first empty one. -/
def header (text : String) : List String :=
  ((Text.lines text.toList).takeWhile fun l => !l.isEmpty).map String.ofList

/-- What one type adds to the imports that were found: the line that it needs, unless it is
    there. -/
theorem addImport_spec {found more : List String} {type : Value}
    (h : addImport found type = .ok more) :
    found <+: more ∧ (found.Nodup → more.Nodup) ∧
      ∀ line, line ∈ more ↔ line ∈ found ∨ importOf type = .ok (some line) := by
  rcases ok_of_bind h with ⟨needed, hneeded, h⟩
  rw [hneeded]
  cases needed with
  | none =>
      obtain rfl := Except.ok.inj h
      refine ⟨List.prefix_rfl, id, fun line => (or_iff_left ?_).symm⟩
      simp only [Except.ok.injEq, reduceCtorEq, not_false_eq_true]
  | some line =>
      have hsame : ∀ other, Except.ok (some line) = (.ok (some other) : Except Fault _)
          ↔ other = line := fun other => by
        rw [Except.ok.injEq, Option.some.injEq, eq_comm]
      simp only [hsame]
      have hmore : (if found.contains line then found else found ++ [line]) = more :=
        Except.ok.inj h
      by_cases hfound : line ∈ found
      · rw [if_pos (List.contains_iff_mem.mpr hfound)] at hmore
        obtain rfl := hmore
        exact ⟨List.prefix_rfl, id, fun other => (or_iff_left_of_imp fun heq => heq ▸ hfound).symm⟩
      · rw [if_neg fun hc => hfound (List.contains_iff_mem.mp hc)] at hmore
        obtain rfl := hmore
        refine ⟨List.prefix_append _ _, fun hnodup => ?_, fun other => ?_⟩
        · rw [← List.concat_eq_append, List.nodup_concat]
          exact ⟨hfound, hnodup⟩
        · rw [List.mem_append, List.mem_singleton]

/-- What some types add, one after the other. -/
theorem foldlM_addImport (types : List Value) : ∀ {found lines : List String},
    types.foldlM addImport found = .ok lines →
    found <+: lines ∧ (found.Nodup → lines.Nodup) ∧
      ∀ line, line ∈ lines ↔ line ∈ found ∨ ∃ type ∈ types, importOf type = .ok (some line) := by
  induction types with
  | nil =>
      intro found lines h
      obtain rfl := Except.ok.inj h
      refine ⟨List.prefix_rfl, id, fun line => (or_iff_left ?_).symm⟩
      rintro ⟨type, htype, -⟩
      exact List.not_mem_nil htype
  | cons type types ih =>
      intro found lines h
      rw [List.foldlM_cons] at h
      rcases ok_of_bind h with ⟨more, hmore, hlines⟩
      rcases addImport_spec hmore with ⟨hfront, hnodup, hmem⟩
      rcases ih hlines with ⟨hfront', hnodup', hmem'⟩
      refine ⟨hfront.trans hfront', fun h => hnodup' (hnodup h), fun line => ?_⟩
      rw [hmem' line, hmem line, List.exists_mem_cons_iff, or_assoc]

/-- An import is needed by a type that has a name. -/
theorem importOf_eq_some_iff {type : Value} {line : String} :
    importOf type = .ok (some line)
      ↔ ∃ name, type.asText? = some name ∧ Catalog.requiredImport name = some line := by
  rw [importOf]
  cases type.asText? with
  | none =>
      refine iff_of_false ?_ fun ⟨name, hname, _⟩ => Option.some_ne_none name hname.symm
      cases type.canName with
      | true => exact fun h => Option.some_ne_none line (Except.ok.inj h).symm
      | false => exact fun h => by simp only [Bool.false_eq_true, if_false, reduceCtorEq] at h
  | some name => simp only [Except.ok.injEq, Option.some.injEq, exists_eq_left']

/-- The imports of a forest: those of every document come first, no line comes twice, and
    the others are those that the outer names need. -/
theorem importsOf_spec {d : Document} {lines : List String} (h : importsOf d.nodes = .ok lines) :
    Catalog.baseImports <+: lines ∧ lines.Nodup ∧
      ∀ line, line ∈ lines ↔ line ∈ Catalog.baseImports ∨
        ∃ name ∈ d.outerNames, Catalog.requiredImport name = some line := by
  rw [importsOf_eq] at h
  rcases foldlM_addImport _ h with ⟨hbase, hnodup, hmem⟩
  refine ⟨hbase, hnodup (by decide), fun line => (hmem line).trans (or_congr_right ?_)⟩
  constructor
  · rintro ⟨type, htype, himport⟩
    rcases importOf_eq_some_iff.mp himport with ⟨name, hname, hrequired⟩
    exact ⟨name, List.mem_filterMap.mpr ⟨type, htype, hname⟩, hrequired⟩
  · rintro ⟨name, hname, hrequired⟩
    rcases List.mem_filterMap.mp hname with ⟨type, htype, htext⟩
    exact ⟨type, htype, importOf_eq_some_iff.mpr ⟨name, htext, hrequired⟩⟩

theorem mem_knownImports {name line : String} (h : Catalog.requiredImport name = some line) :
    line ∈ knownImports :=
  List.mem_append_right _ (List.mem_map.mpr ⟨(name, line), Table.mem_of_get? h, rfl⟩)

/-- The import of a type is none of those that every document has. -/
theorem requiredImport_not_base {name line : String}
    (h : Catalog.requiredImport name = some line) : line ∉ Catalog.baseImports := by
  have hall : ∀ entry ∈ Catalog.typeImports, entry.2 ∉ Catalog.baseImports := by decide
  exact hall (name, line) (Table.mem_of_get? h)

/-- An import is a line, and it is not an empty one. -/
theorem knownImport_line {line : String} (h : line ∈ knownImports) :
    '\n' ∉ line.toList ∧ line.toList.isEmpty = false := by
  have hall : knownImports.all (fun line =>
      !line.toList.contains '\n' && !line.toList.isEmpty) = true := by decide +kernel
  have hline := List.all_eq_true.mp hall line h
  rw [Bool.and_eq_true, Bool.not_eq_true', Bool.not_eq_true'] at hline
  refine ⟨fun hmem => ?_, hline.2⟩
  rw [List.contains_iff_mem.mpr hmem] at hline
  exact absurd hline.1 (by decide)

/-- The header of a text that was written are the imports of its widgets. -/
theorem header_writeDocument {d : Document} {text : String} (h : writeDocument d = .ok text) :
    importsOf d.nodes = .ok (header text) := by
  rw [writeDocument_lines] at h
  rcases ok_of_map h with ⟨lines, hlines, rfl⟩
  rcases ok_of_bind hlines with ⟨imports, himports, hlines⟩
  rcases ok_of_bind hlines with ⟨attributes, -, hlines⟩
  rcases ok_of_bind hlines with ⟨widgets, -, hlines⟩
  rw [himports]
  refine congrArg Except.ok ?_
  have hmem := (importsOf_spec himports).2.2
  have hknown : ∀ line ∈ imports, line ∈ knownImports := by
    intro line hline
    rcases (hmem line).mp hline with hbase | ⟨name, -, hrequired⟩
    · exact List.mem_append_left _ hbase
    · exact mem_knownImports hrequired
  -- Behind the imports stands an empty line, whatever comes then.
  obtain ⟨rest, rfl⟩ : ∃ rest, lines = imports ++ "" :: rest :=
    ⟨_, (Except.ok.inj hlines).symm.trans (by simp only [List.append_assoc, List.cons_append]; rfl)⟩
  have hsplit : linesText (imports ++ "" :: rest)
      = (imports.map String.toList).flatMap (· ++ ['\n']) ++ '\n' :: linesText rest := by
    rw [linesText_append, linesText_cons, linesText, List.flatMap_map]
    rfl
  have hends : ∀ l ∈ imports.map String.toList, '\n' ∉ l := by
    intro l hl
    rcases List.mem_map.mp hl with ⟨line, hline, rfl⟩
    exact (knownImport_line (hknown line hline)).1
  have hfull : ∀ l ∈ imports.map String.toList, (!l.isEmpty) = true := by
    intro l hl
    rcases List.mem_map.mp hl with ⟨line, hline, rfl⟩
    rw [(knownImport_line (hknown line hline)).2]
    rfl
  rw [header, intercalate_lines (by simp only [ne_eq, List.append_eq_nil_iff, reduceCtorEq,
    and_false, not_false_eq_true]), hsplit, lines_flatMap _ hends, Text.lines, if_pos rfl,
    List.takeWhile_append_of_pos hfull, List.takeWhile_cons, if_neg (by decide), List.append_nil,
    List.map_map]
  exact (List.map_congr_left fun line _ => String.ofList_toList).trans (List.map_id _) |>.symm

/-- The header of a text. A document has a text if its parts can be written. The text begins
    with the imports of every document; no import comes twice, and none comes that no type
    needs. The import that a type needs, wherever the document mentions the type, stands
    there if and only if one of the outer names needs it, be it that of the type itself or
    another. -/
theorem header_complete_iff (d : Document) (hnodup : (Table.names d.window.properties).Nodup) :
    ((∃ text, writeDocument d = .ok text) ↔ d.sized = true ∧ d.sayable = true) ∧
      ∀ text, writeDocument d = .ok text →
        Catalog.baseImports <+: header text ∧ (header text).Nodup ∧
        (∀ line ∈ header text, line ∈ Catalog.baseImports ∨
          ∃ name ∈ d.typeNames, Catalog.requiredImport name = some line) ∧
        ∀ name ∈ d.typeNames, ∀ line, Catalog.requiredImport name = some line →
          (line ∈ header text ↔
            ∃ other ∈ d.outerNames, Catalog.requiredImport other = some line) := by
  refine ⟨writeDocument_ok_iff hnodup, fun text hwritten => ?_⟩
  rcases importsOf_spec (header_writeDocument hwritten) with ⟨hbase, hdistinct, hmem⟩
  refine ⟨hbase, hdistinct, fun line hline => ((hmem line).mp hline).imp_right ?_, ?_⟩
  · rintro ⟨name, hname, hrequired⟩
    exact ⟨name, d.outerNames_subset hname, hrequired⟩
  · intro name _ line hrequired
    exact (hmem line).trans (or_iff_right (requiredImport_not_base hrequired))

/-- Two charts in a column, one of them in a property, and a player that plays in a group. -/
def chartColumn : Document :=
  (readDocument {} ("ColumnLayout \x7b overview: Chart \x7b \x7d; ChartView \x7b "
    ++ "legend \x7b jingle: MediaPlayer \x7b \x7d \x7d \x7d \x7d")).1

theorem chartColumn_header :
    (Table.names chartColumn.window.properties).Nodup ∧
      chartColumn.typeNames = ["ColumnLayout", "Chart", "ChartView", "MediaPlayer"] ∧
      ∃ text, writeDocument chartColumn = .ok text ∧ Catalog.baseImports <+: header text ∧
        (header text).Nodup ∧ "import QtQuick.Layouts 1.15" ∈ header text ∧
        "import QtCharts 2.15" ∈ header text ∧
        "import QtMultimedia 5.15" ∉ header text := by
  have hnodup : (Table.names chartColumn.window.properties).Nodup := by decide +kernel
  have hnames : chartColumn.typeNames = ["ColumnLayout", "Chart", "ChartView", "MediaPlayer"] := by
    decide +kernel
  have houter : chartColumn.outerNames = ["ColumnLayout", "Chart", "ChartView"] := by
    decide +kernel
  rcases header_complete_iff chartColumn hnodup with ⟨hwritable, hheader⟩
  rcases hwritable.mpr ⟨by decide +kernel, by decide +kernel⟩ with ⟨text, hwritten⟩
  rcases hheader text hwritten with ⟨hbase, hdistinct, -, hmem⟩
  rw [hnames, houter] at hmem
  refine ⟨hnodup, hnames, text, hwritten, hbase, hdistinct, ?_, ?_, ?_⟩
  · exact (hmem "ColumnLayout" (by decide) _ rfl).mpr ⟨"ColumnLayout", by decide, rfl⟩
  · exact (hmem "ChartView" (by decide) _ rfl).mpr ⟨"Chart", by decide, rfl⟩
  · intro hline
    exact absurd ((hmem "MediaPlayer" (by decide) _ rfl).mp hline) (by decide)

/-- A player in an object, in a group and in the window. -/
def players : List String :=
  ["Item \x7b deck: Item \x7b track: MediaPlayer \x7b \x7d \x7d \x7d",
    "Item \x7b deck \x7b track: MediaPlayer \x7b \x7d \x7d \x7d",
    "Window \x7b track: MediaPlayer \x7b \x7d \x7d"]

/-- Each player is mentioned in the document and needs an import, and in none of the texts
    the header has it. -/
theorem players_unimported :
    Catalog.requiredImport "MediaPlayer" = some "import QtMultimedia 5.15" ∧
      ∀ source ∈ players, "MediaPlayer" ∈ (readDocument {} source).1.typeNames ∧
        ∃ text, writeDocument (readDocument {} source).1 = .ok text ∧
          "import QtMultimedia 5.15" ∉ header text := by
  have hall : ∀ source ∈ players, "MediaPlayer" ∈ (readDocument {} source).1.typeNames ∧
      (documentLines (readDocument {} source).1).toOption.isSome = true ∧
      (importsOf (readDocument {} source).1.nodes).toOption = some Catalog.baseImports := by
    decide +kernel
  refine ⟨rfl, fun source hsource => ?_⟩
  rcases hall source hsource with ⟨hmentioned, hlines, himports⟩
  refine ⟨hmentioned, ?_⟩
  rw [writeDocument_lines]
  cases hwritten : documentLines (readDocument {} source).1 with
  | error fault =>
      rw [hwritten] at hlines
      exact absurd hlines Bool.false_ne_true
  | ok lines =>
      refine ⟨_, rfl, ?_⟩
      have hheader := header_writeDocument ((writeDocument_lines _).trans
        (congrArg (Except.map fun ls => "\n".intercalate ls ++ "\n") hwritten))
      rw [hheader] at himports
      rw [Option.some.inj himports]
      decide

end Markup

end WidgetSync
