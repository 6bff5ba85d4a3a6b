import WidgetSync.Proofs.Firm

/-!
# What Can Be Written

Writing a document as markup fails on three things: an integer with too many digits,
code that has no lines, and what should name a type but cannot be looked up. So
whether a document has a text is seen from its parts one by one, and nothing has to
be written to tell it.

Values of a few kinds have no lines in some places and are passed over in others. A
value under the name of a coordinate is written only if it is source text, and the
type of an object only needs to be looked up if the object is a property of a widget
itself. `Node.sayable` follows the writer in that.

None of the three is ever read from markup. So what is read from there can be
written, and all that is needed besides is that the window gets a size that can be
written if the text names none. Nothing is said about what is read of the text that is
written; for that a document has to be firm.

## Main definitions

* `Value.hasLines`: The code and the integers in a value can be written.
* `Node.sayable`, `Document.sayable`: Markup can say the widget, and the document.
* `Document.sized`: The size of the window can be written.
* `WindowParts`: The lines of a window, taken apart.
* `Simple`: The values without structure that source text can stand for.

## Theorems

* `propertyLines_ok_iff`: Which values have lines.
* `windowLines_iff_parts`: A window is written part by part.
* `writeDocument_ok_iff`: Which documents have a text.
* `Given.simple`: The value of some source text is simple.
* `GainedDocument.sayable`: Markup can say what was read from it.
* `GainedDocument.writeDocument_ok`: A document that was read has a text.
-/

namespace WidgetSync

section Results

variable {α β : Type}

/-- Two steps succeed if and only if each does. -/
theorem bind_ok_iff {x : Except Fault α} {f : α → Except Fault β} {p : Prop}
    (hf : ∀ a, x = .ok a → ((∃ b, f a = .ok b) ↔ p)) :
    (∃ b, (x >>= f) = .ok b) ↔ (∃ a, x = .ok a) ∧ p := by
  constructor
  · rintro ⟨b, hb⟩
    rcases ok_of_bind hb with ⟨a, ha, hstep⟩
    exact ⟨⟨a, ha⟩, (hf a ha).mp ⟨b, hstep⟩⟩
  · rintro ⟨⟨a, rfl⟩, hp⟩
    exact (hf a rfl).mpr hp

/-- Changing the result does not make a difference. -/
theorem bind_pure_ok_iff {x : Except Fault α} {f : α → β} :
    (∃ b, (x >>= fun a => pure (f a)) = .ok b) ↔ ∃ a, x = .ok a :=
  (bind_ok_iff (p := True) fun a _ => iff_true_intro ⟨f a, rfl⟩).trans (iff_of_eq (and_true _))

theorem ok_of_mapM_cons {f : α → Except Fault β} {a : α} {as : List α} {bs : List β}
    (h : (a :: as).mapM f = .ok bs) :
    ∃ b bs', f a = .ok b ∧ as.mapM f = .ok bs' ∧ bs = b :: bs' := by
  rw [List.mapM_cons] at h
  rcases ok_of_bind h with ⟨b, hb, h⟩
  rcases ok_of_bind h with ⟨bs', hbs', h⟩
  exact ⟨b, bs', hb, hbs', (Except.ok.inj h).symm⟩

theorem mapM_ok_iff {f : α → Except Fault β} {as : List α} :
    (∃ bs, as.mapM f = .ok bs) ↔ ∀ a ∈ as, ∃ b, f a = .ok b := by
  induction as with
  | nil => exact iff_of_true ⟨[], rfl⟩ (List.forall_mem_nil _)
  | cons a as ih =>
      rw [List.mapM_cons, bind_ok_iff fun _ _ => bind_pure_ok_iff, ih, List.forall_mem_cons]

end Results

namespace Value

/-- The code of a handler has lines. In a block only a text has any; on one line also
    data in which a line end can be looked for and is not found. -/
def codeHasLines (code block : Value) : Bool :=
  code.asText?.isSome || (!block.truth && (code.mentions "\n").toOption == some false)

mutual

/-- The code and the integers in the value can be written. -/
def hasLines : Value → Bool
  | .group fields => fieldsHaveLines fields
  | .handler code block => codeHasLines code block
  | .object _ properties => fieldsHaveLines properties
  | v => v.writable

/-- The code and the integers in the fields can be written. -/
def fieldsHaveLines : List (String × Value) → Bool
  | [] => true
  | (_, v) :: fields => v.hasLines && fieldsHaveLines fields

end

theorem fieldsHaveLines_iff {fields : List (String × Value)} :
    fieldsHaveLines fields = true ↔ ∀ f ∈ fields, f.2.hasLines = true := by
  induction fields with
  | nil => exact iff_of_true (by rw [fieldsHaveLines]) (List.forall_mem_nil _)
  | cons f fields ih =>
      obtain ⟨key, v⟩ := f
      rw [fieldsHaveLines, Bool.and_eq_true, ih, List.forall_mem_cons]

-- Whether something can be looked for in a value does not depend on what it is.
theorem mentions_ok {v : Value} {needle : String} {found : Bool}
    (h : v.mentions needle = .ok found) (other : String) : ∃ b, v.mentions other = .ok b := by
  cases v with
  | text s => exact ⟨_, rfl⟩
  | raw s => exact ⟨_, rfl⟩
  | list items => exact ⟨_, rfl⟩
  | record entries => exact ⟨_, rfl⟩
  | _ => exact absurd h (by simp only [mentions, reduceCtorEq, not_false_eq_true])

theorem mentions_of_asText? {v : Value} {text : String} (h : v.asText? = some text)
    (needle : String) : ∃ b, v.mentions needle = .ok b := by
  cases v with
  | text s => exact ⟨_, rfl⟩
  | raw s => exact ⟨_, rfl⟩
  | _ => exact absurd h (by simp only [asText?, reduceCtorEq, not_false_eq_true])

end Value

namespace Markup

/-- A coordinate or size has a line: source text among the properties, or the number. -/
def placeHasLine (properties : Fields) (key : String) (number : Value) : Bool :=
  match properties.get? key with
  | some (.raw _) => true
  | _ => number.writable

end Markup

/-- The lines of the widget can be written, those of the widgets inside apart. -/
def Node.hasLines (n : Node) : Bool :=
  ([("x", n.x), ("y", n.y), ("width", n.width), ("height", n.height)].all fun p =>
    Markup.placeHasLine n.properties p.1 p.2) &&
  Value.fieldsHaveLines (Markup.without ("id" :: Catalog.geometry) n.properties)

/-- Markup can say the widget: its lines can be written, and the types it names can be
    looked up. -/
def Node.sayable (n : Node) : Bool :=
  n.hasLines && (Markup.typesNamed n).all Value.canName

namespace Document

/-- The size of the window can be written. -/
def sized (d : Document) : Bool :=
  d.window.width.writable && d.window.height.writable

/-- Markup can say the document, the size of its window apart. -/
def sayable (d : Document) : Bool :=
  Value.fieldsHaveLines (Markup.without ["id"] d.window.properties) &&
    (Forest.walk d.nodes).all Node.sayable

end Document

namespace Markup

-- Values

theorem literal_ok_iff {v : Value} : (∃ text, literal v = .ok text) ↔ v.writable = true := by
  unfold literal
  split
  · exact iff_of_true ⟨_, rfl⟩ rfl
  · exact iff_of_true ⟨_, rfl⟩ rfl
  · exact iff_of_true ⟨_, rfl⟩ rfl
  · split
    · exact iff_of_true ⟨_, rfl⟩ ‹_›
    · exact iff_of_false not_ok_of_error ‹_›

theorem scalar_ok_iff {v : Value} {spelling : Option Catalog.Spelling} :
    (∃ text, scalar v spelling = .ok text) ↔ v.writable = true := by
  unfold scalar
  split
  · exact iff_of_true ⟨_, rfl⟩ rfl
  · exact iff_of_true ⟨_, rfl⟩ rfl
  · exact literal_ok_iff

theorem handlerLines_ok_iff {depth : Nat} {name : String} {code block : Value} :
    (∃ lines, handlerLines depth name code block = .ok lines)
      ↔ Value.codeHasLines code block = true := by
  unfold handlerLines Value.codeHasLines
  cases htext : code.asText? with
  | some text =>
      -- A text has lines in any form.
      refine iff_of_true ?_ rfl
      rcases Value.mentions_of_asText? htext "\n" with ⟨lineEnd, hlineEnd⟩
      rcases Value.mentions_of_asText? htext ";" with ⟨several, hseveral⟩
      rw [hlineEnd, hseveral]
      cases block.truth <;> cases lineEnd <;> cases several <;> exact ⟨_, rfl⟩
  | none =>
      rw [Option.isSome_none, Bool.false_or]
      cases block.truth with
      | true => exact iff_of_false not_ok_of_error Bool.false_ne_true
      | false =>
          cases hlineEnd : code.mentions "\n" with
          | error e => exact iff_of_false not_ok_of_error Bool.false_ne_true
          | ok found =>
              rcases Value.mentions_ok hlineEnd ";" with ⟨several, hseveral⟩
              rw [hseveral]
              cases found with
              | true => exact iff_of_false not_ok_of_error (by decide)
              | false => exact iff_of_true (by cases several <;> exact ⟨_, rfl⟩) (by decide)

mutual

/-- Which values have lines. Where these would stand does not matter. -/
theorem propertyLines_ok_iff : ∀ (v : Value) {depth : Nat} {group : Option String}
    {front key : String},
    (∃ lines, propertyLines depth group front key v = .ok lines) ↔ v.hasLines = true
  | .null, _, _, _, _ => iff_of_true ⟨[], by rw [propertyLines]⟩ rfl
  | .group fields, _, _, _, _ => by
    rw [propertyLines, Value.hasLines]
    split
    · exact fieldLines_ok_iff fields
    · exact bind_pure_ok_iff.trans (fieldLines_ok_iff fields)
  | .handler code block, _, _, _, _ => by
    rw [propertyLines, Value.hasLines]
    exact handlerLines_ok_iff
  | .object type properties, _, _, _, _ => by
    rw [propertyLines, Value.hasLines]
    exact bind_pure_ok_iff.trans (fieldLines_ok_iff properties)
  | .bool _, _, _, _, _ | .int _, _, _, _, _ | .float _, _, _, _, _ | .text _, _, _, _, _
  | .raw _, _, _, _, _ | .moment _, _, _, _, _ | .list _, _, _, _, _
  | .record _, _, _, _, _ => by
    rw [propertyLines, Value.hasLines]
    · exact bind_pure_ok_iff.trans scalar_ok_iff
    all_goals simp only [reduceCtorEq, imp_false, not_false_eq_true, implies_true]

/-- Which fields have lines. -/
theorem fieldLines_ok_iff : ∀ (fields : List (String × Value)) {depth : Nat}
    {group : Option String} {front : String},
    (∃ lines, fieldLines depth group front fields = .ok lines)
      ↔ Value.fieldsHaveLines fields = true
  | [], _, _, _ => iff_of_true ⟨[], by rw [fieldLines]⟩ (by rw [Value.fieldsHaveLines])
  | (key, v) :: fields, _, _, _ => by
    rw [fieldLines, Value.fieldsHaveLines, Bool.and_eq_true]
    rw [bind_ok_iff fun _ _ => bind_pure_ok_iff, propertyLines_ok_iff v, fieldLines_ok_iff fields]

end

-- Widgets

theorem geometryLine_ok_iff {depth : Nat} {properties : Fields} {key : String} {number : Value} :
    (∃ line, geometryLine depth properties key number = .ok line)
      ↔ placeHasLine properties key number = true := by
  unfold geometryLine placeHasLine
  cases properties.get? key with
  | none => exact bind_pure_ok_iff.trans literal_ok_iff
  | some v =>
      cases v with
      | raw s => exact iff_of_true ⟨_, rfl⟩ rfl
      | _ => exact bind_pure_ok_iff.trans literal_ok_iff

/-- Which widgets have lines, if it is known which widgets inside have. -/
theorem nodeLines_ok_iff_of_inside {n : Node} {depth : Nat} {p : Prop}
    (hinside : (∃ lines, forestLines (depth + 1) n.children = .ok lines) ↔ p) :
    (∃ lines, nodeLines depth n = .ok lines) ↔ n.hasLines = true ∧ p := by
  obtain ⟨type, id, x, y, width, height, properties, children⟩ := n
  rw [nodeLines, Node.hasLines, Bool.and_eq_true, List.all_eq_true, and_assoc]
  rw [bind_ok_iff fun _ _ => bind_ok_iff fun _ _ => bind_pure_ok_iff, mapM_ok_iff,
    fieldLines_ok_iff, hinside]
  simp only [geometryLine_ok_iff]

end Markup

mutual

theorem Node.nodeLines_ok_iff : (n : Node) → {depth : Nat} →
    ((∃ lines, Markup.nodeLines depth n = .ok lines) ↔ ∀ m ∈ n.depthFirst, m.hasLines = true)
  | ⟨type, id, x, y, width, height, properties, children⟩, _ => by
    rw [Node.forall_depthFirst]
    exact Markup.nodeLines_ok_iff_of_inside (Forest.forestLines_ok_iff children)

/-- Which widgets side by side have lines: all those of which each has, and each below. -/
theorem Forest.forestLines_ok_iff : (ns : Forest) → {depth : Nat} →
    ((∃ lines, Markup.forestLines depth ns = .ok lines)
      ↔ ∀ n ∈ Forest.walk ns, n.hasLines = true)
  | [], _ => iff_of_true ⟨[], rfl⟩ (List.forall_mem_nil _)
  | n :: ns, _ => by
    rw [Forest.forall_walk_cons, Markup.forestLines]
    rw [bind_ok_iff fun _ _ => bind_pure_ok_iff, Node.nodeLines_ok_iff n,
      Forest.forestLines_ok_iff ns]

end

namespace Markup

theorem importOf_ok_iff {type : Value} :
    (∃ line, importOf type = .ok line) ↔ type.canName = true := by
  cases type
  all_goals first
    | exact iff_of_true ⟨_, rfl⟩ rfl
    | exact iff_of_false not_ok_of_error Bool.false_ne_true

/-- Which forests have imports: those whose types can be looked up. -/
theorem importsOf_ok_iff {nodes : Forest} :
    (∃ imports, importsOf nodes = .ok imports)
      ↔ ∀ n ∈ Forest.walk nodes, ∀ type ∈ typesNamed n, type.canName = true := by
  have hfold : ∀ (types : List Value) (found : List String),
      (∃ imports, types.foldlM addImport found = .ok imports)
        ↔ ∀ type ∈ types, type.canName = true := by
    intro types
    induction types with
    | nil => exact fun found => iff_of_true ⟨found, rfl⟩ (List.forall_mem_nil _)
    | cons type types ih =>
        intro found
        have hstep : (∃ more, addImport found type = .ok more) ↔ type.canName = true := by
          rw [addImport, bind_ok_iff (p := True) fun line _ => ?_, importOf_ok_iff, and_true]
          cases line
          all_goals exact iff_true_intro ⟨_, rfl⟩
        rw [List.foldlM_cons, bind_ok_iff fun more _ => ih more, hstep, List.forall_mem_cons]
  rw [importsOf_eq, hfold]
  simp only [List.mem_flatMap, forall_exists_index, and_imp]
  exact ⟨fun h n hn type htype => h type n hn htype, fun h type n hn htype => h n hn type htype⟩

-- Windows

theorem attributeLines_ok_iff {properties : Fields} {key text : String} :
    (∃ lines, attributeLines properties key text = .ok lines)
      ↔ ∀ v, properties.get? key = some v → v.hasLines = true := by
  unfold attributeLines
  cases hget : properties.get? key with
  | none => exact iff_of_true ⟨_, rfl⟩ (by rintro _ ⟨⟩)
  | some v =>
      refine (propertyLines_ok_iff v).trans ⟨fun h w hw => ?_, fun h => h v rfl⟩
      rwa [← Option.some.inj hw]

/-- The attributes and the other properties are together all properties but the id. -/
theorem attributes_hasLines_iff {properties : Fields} (hnodup : (Table.names properties).Nodup) :
    ((∀ key ∈ attributeNames, ∀ v, properties.get? key = some v → v.hasLines = true) ∧
        ∀ f ∈ without ("id" :: attributeNames) properties, f.2.hasLines = true)
      ↔ ∀ f ∈ without ["id"] properties, f.2.hasLines = true := by
  have hmem : ∀ {names : List String} {f : String × Value},
      f ∈ without names properties ↔ f ∈ properties ∧ f.1 ∉ names := by
    intro names f
    rw [without, List.mem_filter, Bool.not_eq_true', List.contains_eq_mem, decide_eq_false_iff_not]
  constructor
  · rintro ⟨hattributes, hothers⟩ ⟨key, v⟩ hf
    rcases hmem.mp hf with ⟨hin, hid⟩
    by_cases hkey : key ∈ attributeNames
    · exact hattributes key hkey v (Table.get?_of_mem hnodup hin)
    · refine hothers _ (hmem.mpr ⟨hin, ?_⟩)
      rw [List.mem_cons, not_or]
      exact ⟨fun heq => hid (List.mem_singleton.mpr heq), hkey⟩
  · intro h
    refine ⟨fun key hkey v hget => h (key, v) (hmem.mpr ⟨Table.mem_of_get? hget, ?_⟩),
      fun f hf => h f (hmem.mpr ⟨(hmem.mp hf).1, ?_⟩)⟩
    · rw [List.mem_singleton]
      rintro rfl
      exact absurd hkey (by decide)
    · exact fun hid => (hmem.mp hf).2 (List.mem_cons.mpr (.inl (List.mem_singleton.mp hid)))

theorem windowLines_ok_iff {w : Window} (hnodup : (Table.names w.properties).Nodup) :
    (∃ lines, windowLines w = .ok lines)
      ↔ (w.width.writable = true ∧ w.height.writable = true) ∧
        Value.fieldsHaveLines (without ["id"] w.properties) = true := by
  have hheader : (∃ header, windowHeader w = .ok header)
      ↔ w.width.writable = true ∧ w.height.writable = true :=
    (bind_ok_iff fun _ _ => bind_pure_ok_iff.trans literal_ok_iff).trans
      (and_congr_left' literal_ok_iff)
  -- Whatever the sizes are, the names of the attributes are the same.
  have hnames : ∀ header, windowHeader w = .ok header → header.map Prod.fst = attributeNames := by
    intro header hheader
    rcases ok_of_bind hheader with ⟨width, -, hheader⟩
    rcases ok_of_bind hheader with ⟨height, -, hheader⟩
    rw [← Except.ok.inj hheader]
    rfl
  rw [Value.fieldsHaveLines_iff, ← attributes_hasLines_iff hnodup, windowLines_eq, ← hheader]
  refine bind_ok_iff fun header hok => ?_
  rw [bind_ok_iff fun _ _ => bind_pure_ok_iff, mapM_ok_iff, fieldLines_ok_iff,
    Value.fieldsHaveLines_iff, hnames header hok, ← hnames header hok, List.forall_mem_map]
  simp only [attributeLines_ok_iff]

/-- The lines of a window, taken apart: those in the place of each attribute, and those of
    the other properties. -/
structure WindowParts (w : Window) (width height visible title others : List String) : Prop where
  width : ∃ text, literal w.width = .ok text ∧
    attributeLines w.properties "width" text = .ok width
  height : ∃ text, literal w.height = .ok text ∧
    attributeLines w.properties "height" text = .ok height
  visible : attributeLines w.properties "visible" (if w.visible.truth then "true" else "false")
    = .ok visible
  title : attributeLines w.properties "title"
    (localized (if w.title.truth then w.title.plain else "")) = .ok title
  others : fieldLines 1 none "" (without ("id" :: attributeNames) w.properties) = .ok others

/-- A window is written part by part. -/
theorem windowLines_iff_parts {w : Window} {lines : List String} :
    windowLines w = .ok lines
      ↔ ∃ width height visible title others, WindowParts w width height visible title others ∧
        lines = width ++ height ++ visible ++ title ++ others := by
  rw [windowLines_eq]
  constructor
  · intro h
    rcases ok_of_bind h with ⟨header, hheader, h⟩
    rcases ok_of_bind hheader with ⟨width, hwidth, hheader⟩
    rcases ok_of_bind hheader with ⟨height, hheight, hheader⟩
    obtain rfl := Except.ok.inj hheader
    rcases ok_of_bind h with ⟨first, hfirst, h⟩
    rcases ok_of_bind h with ⟨others, hothers, h⟩
    rcases ok_of_mapM_cons hfirst with ⟨first₁, rest₁, hfirst₁, hrest₁, rfl⟩
    rcases ok_of_mapM_cons hrest₁ with ⟨first₂, rest₂, hfirst₂, hrest₂, rfl⟩
    rcases ok_of_mapM_cons hrest₂ with ⟨first₃, rest₃, hfirst₃, hrest₃, rfl⟩
    rcases ok_of_mapM_cons hrest₃ with ⟨first₄, rest₄, hfirst₄, hrest₄, rfl⟩
    obtain rfl : [] = rest₄ := Except.ok.inj hrest₄
    refine ⟨first₁, first₂, first₃, first₄, others,
      ⟨⟨width, hwidth, hfirst₁⟩, ⟨height, hheight, hfirst₂⟩, hfirst₃, hfirst₄, hothers⟩, ?_⟩
    rw [← Except.ok.inj h]
    simp only [List.flatten_cons, List.flatten_nil, List.append_nil, List.append_assoc]
  · rintro ⟨width, height, visible, title, others, hparts, rfl⟩
    rcases hparts.width with ⟨widthText, hwidth, hfirst₁⟩
    rcases hparts.height with ⟨heightText, hheight, hfirst₂⟩
    rw [windowHeader, hwidth, hheight]
    simp only [List.mapM_cons, List.mapM_nil, bind, Except.bind, pure, Except.pure, hfirst₁,
      hfirst₂, hparts.visible, hparts.title, List.map_cons, List.map_nil]
    rw [show ["id", "width", "height", "visible", "title"] = "id" :: attributeNames from rfl,
      hparts.others]
    simp only [List.flatten_cons, List.flatten_nil, List.append_nil, List.append_assoc]

/-- Which documents have a text. -/
theorem writeDocument_ok_iff {d : Document} (hnodup : (Table.names d.window.properties).Nodup) :
    (∃ text, writeDocument d = .ok text) ↔ d.sized = true ∧ d.sayable = true := by
  rw [writeDocument, bind_ok_iff fun _ _ => bind_ok_iff fun _ _ => bind_pure_ok_iff,
    importsOf_ok_iff, windowLines_ok_iff hnodup, Forest.forestLines_ok_iff]
  simp only [Document.sized, Document.sayable, Node.sayable, Bool.and_eq_true, List.all_eq_true]
  constructor
  · rintro ⟨htypes, ⟨hsizes, hwindow⟩, hnodes⟩
    exact ⟨hsizes, hwindow, fun n hn => ⟨hnodes n hn, htypes n hn⟩⟩
  · rintro ⟨hsizes, hwindow, hnodes⟩
    exact ⟨fun n hn => (hnodes n hn).2, ⟨hsizes, hwindow⟩, fun n hn => (hnodes n hn).1⟩

-- What is read from markup

/-- The values without structure that source text can stand for. -/
inductive Simple : Value → Prop where
  | raw (s : String) : Simple (.raw s)
  | text (s : String) : Simple (.text s)
  /-- An integer that can be written. -/
  | int {n : Int} (h : (Value.int n).writable = true) : Simple (.int n)
  | bool (b : Bool) : Simple (.bool b)
  | float (x : Float) : Simple (.float x)

theorem Given.simple {group : Option String} {key : String} {v : Value} (h : Given group key v) :
    Simple v := by
  rcases h with ⟨raw, -, hvalue⟩
  rcases valueOf_cases hvalue with rfl | ⟨spelling, -, hliteral⟩
  · exact .raw raw
  · cases hliteral with
    | bool => exact .bool _
    | number hnumber =>
        cases gainedNumber_of_numberLiteral? hnumber with
        | int hwritable => exact .int hwritable
        | float x => exact .float x
    | name => exact .text _
    | text => exact .text _

theorem Simple.hasLines {v : Value} (h : Simple v) : v.hasLines = true := by
  cases h with
  | int h => exact h
  | _ => rfl

theorem GainedNumber.writable {v : Value} (h : GainedNumber v) : v.writable = true := by
  cases h with
  | int h => exact h
  | float x => rfl

/-- A value that was read has lines. -/
theorem Gained.hasLines {group : Option String} {key : String} {v : Value}
    (h : Gained group key v) : v.hasLines = true := by
  induction h with
  | plain _ _ _ hv => exact hv.simple.hasLines
  | verbatim => rfl
  | declaration => rfl
  | handler => rfl
  | block _ _ _ _ ih => exact Value.fieldsHaveLines_iff.mpr ih
  | points _ _ _ hfields =>
      exact Value.fieldsHaveLines_iff.mpr fun f hf => (hfields.values f hf).2.2.simple.hasLines
  | object _ _ _ _ _ ih => exact Value.fieldsHaveLines_iff.mpr ih

theorem GainedFields.haveLines {fields : Fields} (h : GainedFields none fields)
    (names : List String) : Value.fieldsHaveLines (without names fields) = true :=
  Value.fieldsHaveLines_iff.mpr fun f hf => (h.values f (List.mem_of_mem_filter hf)).hasLines

/-- The types that widgets name after reading are texts. -/
theorem GainedNode.types {n : Node} (h : GainedNode n) :
    ∀ type ∈ typesNamed n, ∃ t, type = .text t := by
  intro type htype
  rcases List.mem_cons.mp htype with rfl | htype
  · rcases h.type with ⟨t, ht, -⟩
    exact ⟨t, ht⟩
  · rcases List.mem_filterMap.mp htype with ⟨⟨key, v⟩, hf, hsome⟩
    have hv := h.fields.values _ hf
    simp only at hsome hv
    cases hv with
    | plain _ _ _ hv =>
        cases hv.simple
        all_goals exact absurd hsome (by simp only [reduceCtorEq, not_false_eq_true])
    | object => exact ⟨_, (Option.some.inj hsome).symm⟩
    | _ => exact absurd hsome (by simp only [reduceCtorEq, not_false_eq_true])

/-- Markup can say a widget that was read. -/
theorem GainedNode.sayable {n : Node} (h : GainedNode n) : n.sayable = true := by
  have hplace : ∀ {key : String} {number : Value}, GainedNumber number →
      placeHasLine n.properties key number = true := by
    intro key number hnumber
    unfold placeHasLine
    split
    · rfl
    · exact hnumber.writable
  rw [Node.sayable, Node.hasLines, Bool.and_eq_true, Bool.and_eq_true, List.all_eq_true,
    List.all_eq_true]
  simp only [List.forall_mem_cons]
  refine ⟨⟨⟨hplace h.x, hplace h.y, hplace h.width, hplace h.height, List.forall_mem_nil _⟩,
    h.fields.haveLines _⟩, fun type htype => ?_⟩
  rcases h.types type htype with ⟨t, rfl⟩
  rfl

/-- A size can be written if the settings can, or if it was read. -/
theorem GainedWindow.sizes {s : Settings} {w : Window} (h : GainedWindow s w)
    (hwidth : (Value.int s.width).writable = true)
    (hheight : (Value.int s.height).writable = true) :
    w.width.writable = true ∧ w.height.writable = true :=
  ⟨writable_of_size hwidth (h.width.imp_right GainedNumber.writable),
    writable_of_size hheight (h.height.imp_right GainedNumber.writable)⟩

/-- Markup can say what was read from it. -/
theorem GainedDocument.sayable {s : Settings} {d : Document} (h : GainedDocument s d) :
    d.sayable = true := by
  rw [Document.sayable, h.window.fields.haveLines, Bool.true_and, List.all_eq_true]
  exact fun n hn => (h.nodes n hn).sayable

/-- What was read from a text can be written. -/
theorem GainedDocument.writeDocument_ok {s : Settings} {d : Document} (h : GainedDocument s d)
    (hwidth : (Value.int s.width).writable = true)
    (hheight : (Value.int s.height).writable = true) : ∃ text, writeDocument d = .ok text :=
  (writeDocument_ok_iff h.window.fields.nodup).mpr
    ⟨by rw [Document.sized, Bool.and_eq_true]; exact h.window.sizes hwidth hheight, h.sayable⟩

end Markup

end WidgetSync
