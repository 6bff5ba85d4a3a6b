import WidgetSync.Proofs.Ids
import WidgetSync.Proofs.Properties

/-!
# Widgets Are Read as Written

The block of a widget gives that widget again, and the blocks of a forest give the
forest.

A widget writes its id and its four coordinates before its other properties, and a
coordinate that is bound to source text is written as that source text. Reading
puts such a binding among the properties and leaves the coordinate as the type has
it. So what comes back is not always the widget that was written: its bindings come
first among the properties, in the order of the coordinates, and a coordinate that
is bound has the usual value. `Node.settled` is the widget in that form, and a
widget without bindings is settled already.

The statement about a widget holds in front of every open block, since all a block
does with a widget is to adopt it. The two statements about widgets and forests
are proved together, along the tree.

## Main definitions

* `bound?`: The source text that a coordinate or size is bound to.
* `Node.settled`, `Forest.settled`: Widgets as they are read back.
* `LegibleNode`: What a widget needs to be read back.

## Theorems

* `shows_place`: The line of a coordinate or size.
* `Node.shows`, `Forest.shows`: Widgets are read as written.
* `Forest.settled_self`: Widgets without bindings are read back as they were.
-/

namespace WidgetSync

namespace Table

theorem erase_of_get?_eq_none {α : Type} {t : Table α} {key : String}
    (h : get? t key = none) : erase t key = t := by
  induction t with
  | nil => rfl
  | cons e t ih =>
      obtain ⟨k, v⟩ := e
      rw [get?] at h
      split at h
      · exact absurd h (by simp only [reduceCtorEq, not_false_eq_true])
      · rename_i hk
        rw [erase, if_neg hk, ih h]

end Table

namespace Markup

/-- The source text that a coordinate or size is bound to. -/
def bound? (properties : Fields) (key : String) : Option String :=
  match properties.get? key with
  | some (.raw s) => some s
  | _ => none

/-- The bindings of coordinates and sizes, in the order in which they are written. -/
def bindings (properties : Fields) : Fields :=
  Catalog.geometry.filterMap fun key => (bound? properties key).map fun s => (key, .raw s)

/-- A coordinate or size as it is read back. -/
def settledPlace (properties : Fields) (key : String) (usual number : Value) : Value :=
  match bound? properties key with
  | some _ => usual
  | none => number

/-- The properties of a widget as they are read back. -/
def settledProperties (properties : Fields) : Fields :=
  bindings properties ++ without ("id" :: Catalog.geometry) properties

end Markup

mutual

/-- A widget as it is read back. -/
def Node.settled : Node → Node
  | ⟨type, id, x, y, width, height, properties, children⟩ =>
    let usual := Node.ofType type.plain
    ⟨type, id, Markup.settledPlace properties "x" usual.x x,
      Markup.settledPlace properties "y" usual.y y,
      Markup.settledPlace properties "width" usual.width width,
      Markup.settledPlace properties "height" usual.height height,
      Markup.settledProperties properties, Forest.settled children⟩

/-- Widgets as they are read back. -/
def Forest.settled : List Node → List Node
  | [] => []
  | n :: ns => n.settled :: Forest.settled ns

end

namespace Markup

/-- The number has a literal that is read as the number. -/
def LegibleNumber (v : Value) : Prop :=
  ∃ t, literal v = .ok t ∧ SelfDelimiting t.toList ∧ numberLiteral? t = .ok (some v)

/-- A coordinate or size is read as written, be it a number or bound. -/
def LegiblePlace (properties : Fields) (key : String) (number : Value) : Prop :=
  match bound? properties key with
  | some s => Verbatim key s ∨ SelfDelimiting s.toList ∧ numberLiteral? s = .ok none
  | none => LegibleNumber number

theorem legibleNumber_integer {n : Int} (h : (Value.int n).writable = true) :
    LegibleNumber (.int n) := by
  refine ⟨toString n, ?_, ?_, numberLiteral?_integer h⟩
  · rw [literal_integer, if_pos h]
  · rw [toString_int]
    exact selfDelimiting_integer n

/-- The widget behind the line of a coordinate or size. -/
def placed (properties : Fields) (m : Node) (key : String) (number : Value) : Node :=
  match bound? properties key with
  | some s => { m with properties := m.properties ++ [(key, .raw s)] }
  | none => Reading.setGeometry m key number

theorem setGeometry_properties (m : Node) (key : String) (v : Value) :
    (Reading.setGeometry m key v).properties = m.properties := by
  unfold Reading.setGeometry
  split
  all_goals rfl

theorem geometry_name {key : String} (h : key ∈ Catalog.geometry) :
    isName key.toList = true ∧ Catalog.isHandlerName key = false ∧
      Reading.splitName? key = none ∧ key ≠ "id" := by
  have hall : ∀ key ∈ Catalog.geometry, isName key.toList = true ∧
      Catalog.isHandlerName key = false ∧ Reading.splitName? key = none ∧ key ≠ "id" := by
    decide +kernel
  exact hall key h

/-- Source text for a coordinate or size in the block of a widget. -/
theorem assign_place {r : Reading} {m m' : Node} {key raw : String} (hkey : key ∈ Catalog.geometry)
    (h : Reading.nodeAttribute m key raw = .ok (some m')) (used : Nat) :
    (r.push (.node m)).assign key raw used = .next (r.push (.node m')) used [] := by
  unfold Reading.assign
  simp only [Reading.push, (geometry_name hkey).2.2.1, Option.map_none, h]

/-- The line of a coordinate or size. -/
theorem shows_place {properties : Fields} {key : String} {number : Value}
    (hkey : key ∈ Catalog.geometry) (h : LegiblePlace properties key number) (depth : Nat)
    (r : Reading) {m : Node} (hfree : m.properties.get? key = none) :
    ∃ line, geometryLine depth properties key number = .ok line ∧
      Shows (linesText [line]) (r.push (.node m))
        (r.push (.node (placed properties m key number))) := by
  rcases geometry_name hkey with ⟨hname, hhandler, hpoints, hid⟩
  have hcontains : Catalog.geometry.contains key = true := by
    rwa [List.contains_iff_mem]
  -- Whatever the text, the line is an assignment to an attribute of the widget.
  have hshows : ∀ {t : String} {m' : Node}, SelfDelimiting t.toList →
      Reading.nodeAttribute m key t = .ok (some m') →
      Shows (linesText [s!"{indent depth}{key}: {t}"]) (r.push (.node m)) (r.push (.node m')) := by
    intro t m' hself hattribute
    rw [linesText_value_free]
    refine shows_property depth (List.cons_ne_nil _ _) hname hself hhandler fun used => ?_
    rw [String.ofList_toList]
    exact assign_place hkey hattribute used
  unfold LegiblePlace at h
  unfold placed
  cases hbound : bound? properties key with
  | some s =>
      rw [hbound] at h
      simp only at h ⊢
      have hget : properties.get? key = some (.raw s) := by
        unfold bound? at hbound
        split at hbound
        · rename_i s' hs'
          rw [hs', Option.some.inj hbound]
        · exact absurd hbound (by simp only [reduceCtorEq, not_false_eq_true])
      refine ⟨s!"{indent depth}{key}: {s}", ?_, ?_⟩
      · unfold geometryLine
        simp only [hget]
        rfl
      · -- A binding stays source text: either the reader takes it over as it stands, or it
        -- finds that it is no number.
        rcases h with hverbatim | ⟨hself, hnumber⟩
        · have htaken := hverbatim.shows depth (r := r.push (.node m)) (List.cons_ne_nil _ _) hname
          rw [Reading.store_eq_append (r := r.push (.node m)) _ hfree] at htaken
          rw [linesText_value_free]
          exact htaken
        · refine hshows hself ?_
          unfold Reading.nodeAttribute
          rw [if_neg hid, if_pos hcontains, hnumber, ← Table.set_of_get?_eq_none _ hfree]
          rfl
  | none =>
      rw [hbound] at h
      rcases h with ⟨t, ht, hself, hvalue⟩
      refine ⟨s!"{indent depth}{key}: {t}", ?_, hshows hself ?_⟩
      · unfold geometryLine
        split
        · rename_i s hs
          rw [bound?, hs] at hbound
          exact absurd hbound (by simp only [reduceCtorEq, not_false_eq_true])
        · rw [ht]
          rfl
      · unfold Reading.nodeAttribute
        rw [if_neg hid, if_pos hcontains, hvalue]
        simp only [Except.map, Table.erase_of_get?_eq_none hfree]
        rw [← setGeometry_properties m key number]
        cases Reading.setGeometry m key number
        rfl

/-- The lines of coordinates and sizes, one after the other. -/
theorem shows_places (properties : Fields) (places : List (String × Value))
    (hkeys : ∀ p ∈ places, p.1 ∈ Catalog.geometry) (hnodup : (places.map (·.1)).Nodup)
    (h : ∀ p ∈ places, LegiblePlace properties p.1 p.2) (depth : Nat) (r : Reading) {m : Node}
    (hfree : ∀ p ∈ places, m.properties.get? p.1 = none) :
    ∃ lines, places.mapM (fun (key, v) => geometryLine depth properties key v) = .ok lines ∧
      Shows (linesText lines) (r.push (.node m))
        (r.push (.node (places.foldl (fun m p => placed properties m p.1 p.2) m))) := by
  induction places generalizing m with
  | nil => exact ⟨[], rfl, shows_nil _⟩
  | cons p places ih =>
      obtain ⟨key, v⟩ := p
      rw [List.map_cons, List.nodup_cons] at hnodup
      rcases shows_place (hkeys (key, v) List.mem_cons_self) (h (key, v) List.mem_cons_self) depth r
          (hfree (key, v) List.mem_cons_self) with ⟨line, hline, hfirst⟩
      -- The line behind a coordinate leaves the other names as free as they were.
      have hothers : ∀ p ∈ places, (placed properties m key v).properties.get? p.1 = none := by
        intro p hp
        have hp' := hfree p (List.mem_cons_of_mem _ hp)
        have hne : key ≠ p.1 := by
          rintro rfl
          exact hnodup.1 (List.mem_map.mpr ⟨p, hp, rfl⟩)
        unfold placed
        split
        · simp only [Table.get?_append_of_eq_none _ hp', Table.get?, if_neg hne]
        · rwa [setGeometry_properties]
      rcases ih (fun p hp => hkeys p (List.mem_cons_of_mem _ hp)) hnodup.2
          (fun p hp => h p (List.mem_cons_of_mem _ hp)) hothers with ⟨lines, hlines, hrest⟩
      refine ⟨line :: lines, ?_, ?_⟩
      · rw [List.mapM_cons]
        simp only [hline, hlines]
        rfl
      · have htext : linesText (line :: lines) = linesText [line] ++ linesText lines := by
          rw [linesText_cons, linesText_cons, linesText_nil, List.append_nil]
        rw [htext]
        exact hfirst.append hrest

/-- What reading the four lines makes of a new widget. -/
theorem foldl_placed (properties : Fields) (type id x y width height usualX usualY usualWidth
    usualHeight : Value) :
    [("x", x), ("y", y), ("width", width), ("height", height)].foldl
        (fun m p => placed properties m p.1 p.2)
        ⟨type, id, usualX, usualY, usualWidth, usualHeight, [], []⟩
      = ⟨type, id, settledPlace properties "x" usualX x, settledPlace properties "y" usualY y,
          settledPlace properties "width" usualWidth width,
          settledPlace properties "height" usualHeight height, bindings properties, []⟩ := by
  -- The bindings come in the order of the four lines, so does what is read of them.
  have hbindings : bindings properties
      = ((bound? properties "x").map fun s => ("x", Value.raw s)).toList
        ++ ((bound? properties "y").map fun s => ("y", Value.raw s)).toList
        ++ ((bound? properties "width").map fun s => ("width", Value.raw s)).toList
        ++ ((bound? properties "height").map fun s => ("height", Value.raw s)).toList := by
    simp only [bindings, Catalog.geometry, List.filterMap_cons, List.filterMap_nil]
    cases bound? properties "x"
    all_goals cases bound? properties "y"
    all_goals cases bound? properties "width"
    all_goals cases bound? properties "height"
    all_goals rfl
  rw [hbindings]
  simp only [List.foldl_cons, List.foldl_nil, placed, settledPlace]
  cases bound? properties "x"
  all_goals cases bound? properties "y"
  all_goals cases bound? properties "width"
  all_goals cases bound? properties "height"
  all_goals rfl

/-- What a widget needs, besides its children, to be read back. -/
structure LegibleNode (n : Node) : Prop where
  /-- Its type is a name with a capital. -/
  type : ∃ t, n.type = .text t ∧ isName t.toList = true ∧ isCapitalized t.toList = true
  /-- Its id is safe. -/
  id : ∃ s, n.id = .text s ∧ isSafeId s = true
  /-- Its coordinates and sizes are numbers or bound. -/
  x : LegiblePlace n.properties "x" n.x
  y : LegiblePlace n.properties "y" n.y
  width : LegiblePlace n.properties "width" n.width
  height : LegiblePlace n.properties "height" n.height
  /-- Its other properties have different names. -/
  nodup : (Table.names (without ("id" :: Catalog.geometry) n.properties)).Nodup
  /-- Its other properties are legible. -/
  properties : ∀ f ∈ without ("id" :: Catalog.geometry) n.properties, Legible none f.1 f.2
  /-- The types of its objects are texts. -/
  objects : ∀ f ∈ n.properties, ∀ type ps, f.2 = .object type ps → ∃ t, type = .text t

theorem isIdChar_not_quote {c : Char} (h : isIdChar c = true) :
    c ≠ '"' ∧ c ≠ '\'' ∧ c ≠ '(' ∧ c ≠ '.' := by
  refine ⟨?_, ?_, ?_, ?_⟩
  all_goals
    rintro rfl
    exact absurd h (by decide)

theorem isSafeId_cons {s : String} (h : isSafeId s = true) :
    ∃ c cs, s.toList = c :: cs ∧ isIdChar c = true ∧ c.isDigit = false ∧
      ∀ d ∈ cs, isIdChar d = true := by
  unfold isSafeId at h
  split at h
  · exact absurd h (by decide)
  · rename_i c cs hs
    simp only [Bool.and_eq_true, Bool.not_eq_true', List.all_eq_true] at h
    exact ⟨c, cs, hs, h.1.1, h.1.2, h.2⟩

/-- A safe id is a name. -/
theorem isName_of_isSafeId {s : String} (h : isSafeId s = true) : isName s.toList = true := by
  rcases isSafeId_cons h with ⟨c, cs, hs, hc, hdigit, hcs⟩
  have hstart : startsName c = true := by
    rw [isIdChar, Char.isAlphanum, hdigit, Bool.or_false] at hc
    rw [startsName, hc, Bool.true_or]
  have hlength : ∀ ds : List Char, (∀ d ∈ ds, isIdChar d = true) → nameLength ds = ds.length := by
    intro ds hds
    induction ds with
    | nil => rfl
    | cons d ds ih =>
        rw [nameLength.eq_def]
        simp only [isIdChar_continuesName (hds d List.mem_cons_self), if_true, List.length_cons,
          ih fun e he => hds e (List.mem_cons_of_mem d he)]
  rw [hs, isName, hstart, hlength cs hcs, beq_self_eq_true]
  rfl

/-- A safe id is no text in quotes. -/
theorem stringLiteral?_of_isSafeId {s : String} (h : isSafeId s = true) :
    stringLiteral? s = none := by
  rcases isSafeId_cons h with ⟨c, cs, hs, hc, -, hcs⟩
  have hmark : localizedMark = ['q', 's', 'T', 'r', '('] := by decide
  -- The mark of a localized text has a bracket, and a safe id has none.
  have hlocalized : localized? s.toList = none := by
    unfold localized?
    rw [if_neg]
    intro hprefix
    rw [List.isPrefixOf_iff_prefix] at hprefix
    have hmem : '(' ∈ s.toList := by
      refine hprefix.subset ?_
      rw [hmark]
      decide
    rw [hs] at hmem
    rcases List.mem_cons.mp hmem with heq | hmem
    · exact (isIdChar_not_quote hc).2.2.1 heq.symm
    · exact (isIdChar_not_quote (hcs _ hmem)).2.2.1 rfl
  have hwhole : wholeQuoted? s.toList = none := by
    have hstart : quotedStart? s.toList = none := by
      rw [hs, quotedStart?, if_neg]
      rintro (rfl | rfl)
      · exact (isIdChar_not_quote hc).1 rfl
      · exact (isIdChar_not_quote hc).2.1 rfl
    rw [wholeQuoted?, hstart]
  rw [stringLiteral?]
  simp only [hlocalized, hwhole, Option.or_none, Option.map_none]

/-- The line of the id. -/
theorem shows_id {s : String} (h : isSafeId s = true) (depth : Nat) (r : Reading) (m : Node) :
    Shows (linesText [s!"{indent depth}id: {s}"]) (r.push (.node m))
      (r.push (.node { m with id := .text s })) := by
  have hline : linesText [s!"{indent depth}id: {s}"] = valueLine depth "id" s.toList := by
    have hmark : "id: " = "id" ++ ": " := by decide
    rw [← linesText_value_free]
    simp only [toString, hmark, String.append_assoc]
  rw [hline]
  refine shows_property depth (List.cons_ne_nil _ _) (by decide)
    (selfDelimiting_name (isName_of_isSafeId h)) (by decide) fun used => ?_
  have hpoints : Reading.splitName? "id" = none := by decide
  rw [String.ofList_toList]
  unfold Reading.assign Reading.nodeAttribute
  simp only [Reading.push, hpoints, Option.map_none, if_true, stringLiteral?_of_isSafeId h,
    safeId_of_isSafeId h]

namespace Reading

theorem adopt_frames_ne_nil {r : Reading} (h : r.frames ≠ []) (n : Node) :
    (r.adopt n).frames ≠ [] := by
  unfold adopt
  rcases hf : r.frames with _ | ⟨_ | _ | _ | _, fs⟩
  · exact absurd hf h
  · exact List.cons_ne_nil _ _
  · exact List.cons_ne_nil _ _
  · simp only [hf, ne_eq, reduceCtorEq, not_false_eq_true]
  · exact List.cons_ne_nil _ _

/-- Widgets that are adopted by a widget. -/
theorem foldl_adopt_node (r : Reading) (m : Node) (ns : List Node) :
    ns.foldl adopt (r.push (.node m)) = r.push (.node { m with children := m.children ++ ns }) := by
  induction ns generalizing m with
  | nil =>
      cases m
      rw [List.foldl_nil, List.append_nil]
  | cons n ns ih =>
      have hadopt : (r.push (.node m)).adopt n
          = r.push (.node { m with children := m.children ++ [n] }) := rfl
      rw [List.foldl_cons, hadopt, ih, List.append_assoc, List.singleton_append]

end Reading

theorem without_mem {names : List String} {fields : Fields} {f : String × Value}
    (h : f ∈ without names fields) : f.1 ∉ names := by
  have hfilter := (List.mem_filter.mp h).2
  simpa only [Bool.not_eq_true', List.contains_eq_mem, decide_eq_false_iff_not] using hfilter

theorem names_bindings {properties : Fields} {key : String}
    (h : key ∈ Table.names (bindings properties)) : key ∈ Catalog.geometry := by
  rcases List.mem_map.mp h with ⟨f, hf, rfl⟩
  rcases List.mem_filterMap.mp hf with ⟨k, hk, hsome⟩
  rcases Option.map_eq_some_iff.mp hsome with ⟨s, -, rfl⟩
  exact hk

/-- A widget as it is read in front of its other properties and its children. -/
def placedNode (n : Node) : Node :=
  { n.settled with properties := bindings n.properties, children := [] }

/-- The lines of the coordinates and sizes, behind the line of the id. -/
theorem LegibleNode.shows_places {type id x y width height : Value} {properties : Fields}
    {children : List Node}
    (hn : LegibleNode ⟨type, id, x, y, width, height, properties, children⟩) {t : String}
    (ht : type = .text t) (depth : Nat) (r : Reading) :
    ∃ lines, [("x", x), ("y", y), ("width", width), ("height", height)].mapM
        (fun (key, v) => geometryLine depth properties key v) = .ok lines ∧
      Shows (linesText lines) (r.push (.node { Node.ofType t with id := id }))
        (r.push (.node (placedNode ⟨type, id, x, y, width, height, properties, children⟩))) := by
  subst ht
  have hkeys : ∀ p ∈ [("x", x), ("y", y), ("width", width), ("height", height)],
      p.1 ∈ Catalog.geometry ∧ LegiblePlace properties p.1 p.2 := by
    intro p hp
    simp only [List.mem_cons, List.not_mem_nil, or_false] at hp
    rcases hp with rfl | rfl | rfl | rfl
    · exact ⟨(by decide : "x" ∈ Catalog.geometry), hn.x⟩
    · exact ⟨(by decide : "y" ∈ Catalog.geometry), hn.y⟩
    · exact ⟨(by decide : "width" ∈ Catalog.geometry), hn.width⟩
    · exact ⟨(by decide : "height" ∈ Catalog.geometry), hn.height⟩
  have hnames : ([("x", x), ("y", y), ("width", width), ("height", height)].map (·.1)).Nodup := by
    simp only [List.map_cons, List.map_nil]
    decide
  rcases Markup.shows_places properties _ (fun p hp => (hkeys p hp).1) hnames
      (fun p hp => (hkeys p hp).2) depth r (m := { Node.ofType t with id := id })
      (fun _ _ => rfl) with ⟨lines, hlines, hshows⟩
  refine ⟨lines, hlines, ?_⟩
  rw [show ({ Node.ofType t with id := id } : Node) = ⟨.text t, id, (Node.ofType t).x,
    (Node.ofType t).y, (Node.ofType t).width, (Node.ofType t).height, [], []⟩ from rfl] at hshows ⊢
  rw [foldl_placed] at hshows
  rw [placedNode, Node.settled]
  exact hshows

/-- The lines of the other properties, behind those of the coordinates and sizes. -/
theorem LegibleNode.shows_others {n : Node} (hn : LegibleNode n) (depth : Nat) (r : Reading) :
    ∃ lines, fieldLines depth none "" (without ("id" :: Catalog.geometry) n.properties)
        = .ok lines ∧
      Shows (linesText lines) (r.push (.node (placedNode n)))
        (r.push (.node { n.settled with children := [] })) := by
  have hbag : (r.push (.node (placedNode n))).bag = bindings n.properties := rfl
  -- They are called neither like an attribute nor like a binding that was read before.
  have hfree : ∀ f ∈ without ("id" :: Catalog.geometry) n.properties,
      (r.push (.node (placedNode n))).leaves f.1 f.2 ∧
        (r.push (.node (placedNode n))).bag.get? f.1 = none := by
    intro f hf
    have hnot := without_mem hf
    refine ⟨fun _ _ _ _ => ?_, ?_⟩
    · rw [Reading.takes, Reading.push, List.contains_eq_mem,
        decide_eq_false_iff_not]
      exact hnot
    · rw [hbag]
      exact Table.get?_eq_none_of_not_mem fun hmem =>
        hnot (List.mem_cons_of_mem _ (names_bindings hmem))
  rcases written_fields (fun f hf => (hn.properties f hf).written) hn.nodup depth
      (List.cons_ne_nil _ _) rfl hfree with ⟨lines, hlines, hshows⟩
  refine ⟨lines, hlines, ?_⟩
  have hsettled : (r.push (.node (placedNode n))).setBag ((r.push (.node (placedNode n))).bag
      ++ without ("id" :: Catalog.geometry) n.properties)
      = r.push (.node { n.settled with children := [] }) := by
    rw [hbag]
    cases n
    rw [Node.settled]
    rfl
  rwa [hsettled] at hshows

/-- The line that closes a widget. -/
theorem shows_adopt (depth : Nat) (r : Reading) (n : Node) :
    Shows (closeLine depth) (r.push (.node n)) (r.adopt n) :=
  shows_close depth (List.cons_ne_nil _ _) fun _ => rfl

/-- The block of a widget, from the blocks of its children. -/
theorem shows_node {type id x y width height : Value} {properties : Fields} {children : List Node}
    (hn : LegibleNode ⟨type, id, x, y, width, height, properties, children⟩) (depth : Nat)
    (hchildren : ∀ r : Reading, r.frames ≠ [] →
      ∃ lines, forestLines (depth + 1) children = .ok lines ∧
        Shows (linesText lines) r ((Forest.settled children).foldl Reading.adopt r))
    {r : Reading} (hframes : r.frames ≠ []) :
    ∃ lines, nodeLines depth ⟨type, id, x, y, width, height, properties, children⟩ = .ok lines ∧
      Shows (linesText lines) r
        (r.adopt (Node.settled ⟨type, id, x, y, width, height, properties, children⟩)) := by
  rcases hn.type with ⟨t, ht, htname, htcapital⟩
  rcases hn.id with ⟨s, hs, hsafe⟩
  simp only at ht hs
  subst ht hs
  -- The pieces of the block, from the first line to the last.
  have hopens := shows_block depth hframes htname
  rw [htcapital, if_pos rfl] at hopens
  have hid := shows_id hsafe (depth + 1) r (Node.ofType t)
  rcases hn.shows_places rfl (depth + 1) r with ⟨places, hplaceLines, hplaces⟩
  rcases hn.shows_others (depth + 1) r with ⟨others, hothers, hfields⟩
  rcases hchildren (r.push (.node { Node.settled ⟨.text t, .text s, x, y, width, height,
    properties, children⟩ with children := [] })) (List.cons_ne_nil _ _) with
    ⟨inside, hinside, hbelow⟩
  -- The children are adopted one after the other, and the widget is then complete.
  rw [Reading.foldl_adopt_node, List.nil_append] at hbelow
  rw [Node.settled] at hfields hbelow ⊢
  have hcloses := shows_adopt depth r (Node.settled ⟨.text t, .text s, x, y, width, height,
    properties, children⟩)
  rw [Node.settled] at hcloses
  refine ⟨[s!"{indent depth}{t} \x7b", s!"{indent (depth + 1)}id: {s}"] ++ places ++ others
    ++ inside ++ [indent depth ++ "\x7d"], ?_, ?_⟩
  · have hplain : Value.safeId (.text s) = s := safeId_of_isSafeId hsafe
    rw [nodeLines, hplaceLines, hothers, hinside, hplain]
    rfl
  · have hhead : [s!"{indent depth}{t} \x7b", s!"{indent (depth + 1)}id: {s}"]
        = [s!"{indent depth}{t} \x7b"] ++ [s!"{indent (depth + 1)}id: {s}"] := rfl
    simp only [hhead, linesText_append, linesText_block, linesText_close]
    exact (((((hopens.append hid).append hplaces).append hfields).append hbelow).append hcloses)

end Markup

mutual

/-- The lines of a widget are read as the widget. -/
theorem Node.shows (depth : Nat) : ∀ n : Node, (∀ m ∈ n.depthFirst, Markup.LegibleNode m) →
    ∀ r : Markup.Reading, r.frames ≠ [] →
      ∃ lines, Markup.nodeLines depth n = .ok lines ∧
        Markup.Shows (Markup.linesText lines) r (r.adopt n.settled)
  | ⟨type, id, x, y, width, height, properties, children⟩ => by
    intro h r hframes
    obtain ⟨hn, hbelow⟩ := Node.forall_depthFirst.mp h
    exact Markup.shows_node hn depth (Forest.shows (depth + 1) children hbelow) hframes

/-- The lines of widgets are read as the widgets. -/
theorem Forest.shows (depth : Nat) : ∀ ns : List Node,
    (∀ m ∈ Forest.walk ns, Markup.LegibleNode m) → ∀ r : Markup.Reading, r.frames ≠ [] →
      ∃ lines, Markup.forestLines depth ns = .ok lines ∧
        Markup.Shows (Markup.linesText lines) r ((Forest.settled ns).foldl Markup.Reading.adopt r)
  | [] => by
    intro _ r _
    exact ⟨[], by rw [Markup.forestLines], Markup.shows_nil r⟩
  | n :: ns => by
    intro h r hframes
    obtain ⟨hn, hns⟩ := Forest.forall_walk_cons.mp h
    rcases Node.shows depth n hn r hframes with ⟨first, hfirst, hshows⟩
    -- The other widgets are read when this one has been handed over.
    rcases Forest.shows depth ns hns (r.adopt n.settled)
        (Markup.Reading.adopt_frames_ne_nil hframes _) with ⟨others, hothers, hrest⟩
    refine ⟨"" :: first ++ others, ?_, ?_⟩
    · rw [Markup.forestLines, hfirst, hothers]
      rfl
    · have hblank : Markup.linesText ("" :: first ++ others)
          = ['\n'] ++ (Markup.linesText first ++ Markup.linesText others) := by
        rw [List.cons_append, Markup.linesText_cons, Markup.linesText_append]
        rfl
      rw [hblank, Forest.settled, List.foldl_cons]
      exact (Markup.shows_blank r).append (hshows.append hrest)

end

mutual

theorem Node.settled_ids : ∀ n : Node,
    n.settled.depthFirst.map (·.id) = n.depthFirst.map (·.id)
  | ⟨type, id, x, y, width, height, properties, children⟩ => by
    rw [Node.settled, Node.depthFirst, Node.depthFirst, List.map_cons, List.map_cons,
      Forest.settled_ids children]

/-- Widgets are read back under their ids. -/
theorem Forest.settled_ids : ∀ ns : List Node,
    (Forest.walk (Forest.settled ns)).map (·.id) = (Forest.walk ns).map (·.id)
  | [] => by rw [Forest.settled]
  | n :: ns => by
    rw [Forest.settled, Forest.walk_cons, Forest.walk_cons, List.map_append, List.map_append,
      Node.settled_ids n, Forest.settled_ids ns]

end

/-- No name for a coordinate, a size or the id is among the properties. -/
def Node.unbound (n : Node) : Prop :=
  ∀ f ∈ n.properties, f.1 ∉ "id" :: Catalog.geometry

namespace Markup

theorem bound?_eq_none {properties : Fields} {key : String} (hkey : key ∈ Catalog.geometry)
    (h : ∀ f ∈ properties, f.1 ∉ "id" :: Catalog.geometry) : bound? properties key = none := by
  have hnone : properties.get? key = none := by
    refine Table.get?_eq_none_of_not_mem fun hmem => ?_
    rcases List.mem_map.mp hmem with ⟨f, hf, rfl⟩
    exact h f hf (List.mem_cons_of_mem _ hkey)
  rw [bound?, hnone]

theorem without_self {names : List String} {fields : Fields} (h : ∀ f ∈ fields, f.1 ∉ names) :
    without names fields = fields := by
  refine List.filter_eq_self.mpr fun f hf => ?_
  rw [Bool.not_eq_true', List.contains_eq_mem, decide_eq_false_iff_not]
  exact h f hf

end Markup

mutual

theorem Node.settled_self : ∀ n : Node, (∀ m ∈ n.depthFirst, m.unbound) → n.settled = n
  | ⟨type, id, x, y, width, height, properties, children⟩ => by
    intro h
    obtain ⟨hn, hbelow⟩ := Node.forall_depthFirst.mp h
    have hbound : ∀ key ∈ Catalog.geometry, Markup.bound? properties key = none :=
      fun key hkey => Markup.bound?_eq_none hkey hn
    have hbindings : Markup.bindings properties = [] := by
      refine List.filterMap_eq_nil_iff.mpr fun key hkey => ?_
      rw [hbound key hkey, Option.map_none]
    have hplace : ∀ key ∈ Catalog.geometry, ∀ usual number,
        Markup.settledPlace properties key usual number = number := by
      intro key hkey usual number
      rw [Markup.settledPlace, hbound key hkey]
    rw [Node.settled, Forest.settled_self children hbelow, Markup.settledProperties, hbindings,
      Markup.without_self hn, List.nil_append, hplace "x" (by decide), hplace "y" (by decide),
      hplace "width" (by decide), hplace "height" (by decide)]

/-- Widgets without bindings are read back as they were. -/
theorem Forest.settled_self : ∀ ns : List Node, (∀ m ∈ Forest.walk ns, m.unbound) →
    Forest.settled ns = ns
  | [] => by
    intro _
    rw [Forest.settled]
  | n :: ns => by
    intro h
    obtain ⟨hn, hns⟩ := Forest.forall_walk_cons.mp h
    rw [Forest.settled, Node.settled_self n hn, Forest.settled_self ns hns]

end

end WidgetSync
