import WidgetSync.Proofs.Documents

/-!
# Documents of One Kind

What reading and writing do to documents whose properties are all of one kind.

Which properties survive depends on what their values are, but what has to be said
about the widgets around them does not. A kind of property is `Carried` if it is
legible as soon as its integers are short enough to be written, and cannot be written
otherwise. A document is of the kind if its properties are, its ids are safe and
different, its types are capitalized names, and its coordinates and sizes are integers.
Reading undoes writing on such documents.

The only thing that can go wrong is an integer that is too long to be written. The
condition `fits` says that there is none. It is needed and it is enough: a document of
a kind that is carried is written just if it fits.

## Main definitions

* `Document.fits`: Every integer of the document can be written.
* `Carried`: A kind of property that survives writing and reading.
* `FormedNode`, `FormedWindow`, `FormedDocument`: Widgets, windows and documents with
  properties of one kind.

## Theorems

* `FormedDocument.legible`: Documents of a carried kind that fit are legible.
* `FormedDocument.fits_of_written`: A document of a carried kind that is written fits.
* `FormedDocument.undone`: Reading undoes writing on documents of a carried kind.
-/

namespace WidgetSync

/-- Every integer of the widget itself can be written. -/
def Node.fits (n : Node) : Bool :=
  [n.x, n.y, n.width, n.height].all Value.writable && Value.writableEntries n.properties

/-- Every integer of the document can be written. -/
def Document.fits (d : Document) : Bool :=
  d.window.width.writable && d.window.height.writable
    && Value.writableEntries d.window.properties && (Forest.walk d.nodes).all Node.fits

namespace Markup

/-- A kind of property that survives writing and reading. -/
structure Carried (p : String → Value → Prop) : Prop where
  /-- No block of a widget has a use of its own for the name. -/
  free : ∀ {key : String} {v : Value}, p key v → key ∉ "id" :: Catalog.geometry
  /-- If it can be written, it is read as written. -/
  legible : ∀ {key : String} {v : Value}, p key v → v.writable = true → Legible none key v
  /-- If it is written, its integers are short enough. -/
  writable : ∀ {key : String} {v : Value}, p key v → ∀ {depth : Nat} {front : String}
    {lines : List String}, propertyLines depth none front key v = .ok lines → v.writable = true
  /-- The types of objects are texts. -/
  objects : ∀ {key : String} {type : Value} {properties : Fields},
    p key (.object type properties) → ∃ t, type = .text t

/-- A widget, without its children, with properties of a kind. -/
structure FormedNode (p : String → Value → Prop) (n : Node) : Prop where
  type : ∃ t, n.type = .text t ∧ isName t.toList = true ∧ isCapitalized t.toList = true
  id : ∃ s, n.id = .text s ∧ isSafeId s = true
  x : ∃ i, n.x = .int i
  y : ∃ i, n.y = .int i
  width : ∃ i, n.width = .int i
  height : ∃ i, n.height = .int i
  nodup : (Table.names n.properties).Nodup
  properties : ∀ f ∈ n.properties, p f.1 f.2

/-- A window with properties of a kind. -/
structure FormedWindow (p : String → Value → Prop) (w : Window) : Prop where
  width : ∃ i, w.width = .int i
  height : ∃ i, w.height = .int i
  title : ∃ s, w.title = .text s
  visible : ∃ b, w.visible = .bool b
  nodup : (Table.names w.properties).Nodup
  properties : ∀ f ∈ w.properties, f.1 ∉ "id" :: attributeNames ∧ p f.1 f.2

/-- A document with properties of a kind, whose ids are different. -/
structure FormedDocument (p : String → Value → Prop) (d : Document) : Prop where
  window : FormedWindow p d.window
  nodes : ∀ n ∈ Forest.walk d.nodes, FormedNode p n
  distinct : ((Forest.walk d.nodes).map (·.id)).Nodup

theorem Node.fits_mem {n : Node} (h : n.fits = true) :
    n.x.writable = true ∧ n.y.writable = true ∧ n.width.writable = true ∧
      n.height.writable = true ∧ Value.writableEntries n.properties = true := by
  simpa only [Node.fits, List.all_cons, List.all_nil, Bool.and_true, Bool.and_eq_true,
    and_assoc] using h

theorem Document.fits_mem {d : Document} (h : d.fits = true) :
    d.window.width.writable = true ∧ d.window.height.writable = true ∧
      Value.writableEntries d.window.properties = true ∧
      ∀ n ∈ Forest.walk d.nodes, n.fits = true := by
  simpa only [Document.fits, Bool.and_eq_true, List.all_eq_true, and_assoc] using h

theorem legiblePlace_integer {properties : Fields} {key : String} {v : Value}
    (hbound : bound? properties key = none) (hv : ∃ i, v = .int i) (hwritable : v.writable = true) :
    LegiblePlace properties key v := by
  rcases hv with ⟨i, rfl⟩
  rw [LegiblePlace, hbound]
  exact legibleNumber_integer hwritable

theorem legibleNumber_of_writable {v : Value} (hv : ∃ i, v = .int i)
    (hwritable : v.writable = true) : LegibleNumber v := by
  rcases hv with ⟨i, rfl⟩
  exact legibleNumber_integer hwritable

theorem propertyLines_of_fieldLines {depth : Nat} {group : Option String} {front : String}
    {fields : Fields} {lines : List String} (h : fieldLines depth group front fields = .ok lines)
    {f : String × Value} (hf : f ∈ fields) :
    ∃ ls, propertyLines depth group front f.1 f.2 = .ok ls := by
  induction fields generalizing lines with
  | nil => exact absurd hf List.not_mem_nil
  | cons e fields ih =>
      rw [fieldLines] at h
      rcases ok_of_bind h with ⟨first, hfirst, h⟩
      rcases ok_of_bind h with ⟨others, hothers, -⟩
      rcases List.mem_cons.mp hf with rfl | hf
      · exact ⟨first, hfirst⟩
      · exact ih hothers hf

theorem writable_of_literal {v : Value} (hv : ∃ i, v = .int i) {t : String}
    (h : literal v = .ok t) : v.writable = true := by
  rcases hv with ⟨i, rfl⟩
  rw [literal_integer] at h
  by_cases hi : (Value.int i).writable = true
  · exact hi
  · rw [if_neg hi] at h
    exact absurd h (by simp only [reduceCtorEq, not_false_eq_true])

theorem writable_of_geometryLine {depth : Nat} {properties : Fields} {key : String} {v : Value}
    {line : String} (hbound : bound? properties key = none) (hv : ∃ i, v = .int i)
    (h : geometryLine depth properties key v = .ok line) : v.writable = true := by
  unfold geometryLine at h
  simp only at h
  split at h
  · rename_i s hs
    rw [bound?, hs] at hbound
    exact absurd hbound (by simp only [reduceCtorEq, not_false_eq_true])
  · rcases ok_of_bind h with ⟨t, ht, -⟩
    exact writable_of_literal hv ht

variable {p : String → Value → Prop}

theorem FormedNode.unbound (hp : Carried p) {n : Node} (h : FormedNode p n) : n.unbound :=
  fun f hf => hp.free (h.properties f hf)

/-- A widget of a carried kind that fits is legible. -/
theorem FormedNode.legible (hp : Carried p) {n : Node} (h : FormedNode p n)
    (hfits : n.fits = true) : LegibleNode n := by
  rcases Node.fits_mem hfits with ⟨hx, hy, hwidth, hheight, hproperties⟩
  have hbound : ∀ key ∈ Catalog.geometry, bound? n.properties key = none :=
    fun key hkey => bound?_eq_none hkey (h.unbound hp)
  have hwithout : without ("id" :: Catalog.geometry) n.properties = n.properties :=
    without_self (h.unbound hp)
  exact {
    type := h.type
    id := h.id
    x := legiblePlace_integer (hbound "x" (by decide)) h.x hx
    y := legiblePlace_integer (hbound "y" (by decide)) h.y hy
    width := legiblePlace_integer (hbound "width" (by decide)) h.width hwidth
    height := legiblePlace_integer (hbound "height" (by decide)) h.height hheight
    nodup := by rw [hwithout]; exact h.nodup
    properties := by
      rw [hwithout]
      exact fun f hf => hp.legible (h.properties f hf) (writable_of_mem hproperties hf)
    objects := by
      intro f hf type ps heq
      have hproperty := h.properties f hf
      rw [heq] at hproperty
      exact hp.objects hproperty }

theorem FormedWindow.get?_eq_none {w : Window} (h : FormedWindow p w) {key : String}
    (hkey : key ∈ attributeNames) : w.properties.get? key = none := by
  refine Table.get?_eq_none_of_not_mem fun hmem => ?_
  rcases List.mem_map.mp hmem with ⟨f, hf, rfl⟩
  exact (h.properties f hf).1 (List.mem_cons_of_mem _ hkey)

/-- A window of a carried kind that fits is legible. -/
theorem FormedWindow.legible (hp : Carried p) {w : Window} (h : FormedWindow p w)
    (hwidth : w.width.writable = true) (hheight : w.height.writable = true)
    (hproperties : Value.writableEntries w.properties = true) : LegibleWindow w := by
  have hwithout : without ("id" :: attributeNames) w.properties = w.properties :=
    without_self fun f hf => (h.properties f hf).1
  have hnumber : ∀ {v : Value}, LegibleNumber v → ∃ t, literal v = .ok t :=
    fun ⟨t, ht, _⟩ => ⟨t, ht⟩
  have hw := legibleNumber_of_writable h.width hwidth
  have hh := legibleNumber_of_writable h.height hheight
  exact {
    width := ⟨hnumber hw, fun _ => hw⟩
    height := ⟨hnumber hh, fun _ => hh⟩
    title := fun _ => h.title
    visible := fun _ => h.visible
    places := by
      intro key hkey v hv
      rw [h.get?_eq_none hkey] at hv
      exact absurd hv (by simp only [reduceCtorEq, not_false_eq_true])
    nodup := by rw [hwithout]; exact h.nodup
    properties := by
      rw [hwithout]
      exact fun f hf => hp.legible (h.properties f hf).2 (writable_of_mem hproperties hf) }

theorem FormedWindow.settled (s : Settings) {w : Window} (h : FormedWindow p w) :
    settledWindow s w = w := by
  have hwithout : without ("id" :: attributeNames) w.properties = w.properties :=
    without_self fun f hf => (h.properties f hf).1
  have hplace : inPlace w.properties = [] := by
    refine List.filterMap_eq_nil_iff.mpr fun key hkey => ?_
    rw [h.get?_eq_none hkey, Option.map_none]
  rw [settledWindow, h.get?_eq_none (by decide), h.get?_eq_none (by decide),
    h.get?_eq_none (by decide), h.get?_eq_none (by decide), hwithout, hplace]
  rfl

theorem exists_names {ns : List Node} (h : ∀ n ∈ ns, ∃ s, n.id = .text s ∧ isSafeId s = true) :
    ∃ names : List String, ns.map (·.id) = names.map Value.text ∧
      ∀ s ∈ names, isSafeId s = true := by
  induction ns with
  | nil => exact ⟨[], rfl, fun s hs => absurd hs List.not_mem_nil⟩
  | cons n ns ih =>
      rcases h n List.mem_cons_self with ⟨s, hs, hsafe⟩
      rcases ih fun m hm => h m (List.mem_cons_of_mem _ hm) with ⟨names, hnames, hall⟩
      refine ⟨s :: names, by rw [List.map_cons, List.map_cons, hs, hnames], ?_⟩
      intro t ht
      rcases List.mem_cons.mp ht with rfl | ht
      · exact hsafe
      · exact hall t ht

theorem FormedDocument.wellNamed {d : Document} (h : FormedDocument p d) :
    Forest.WellNamed d.nodes := by
  rcases exists_names fun n hn => (h.nodes n hn).id with ⟨names, hnames, hsafe⟩
  refine ⟨names, hnames, ?_, hsafe⟩
  have hdistinct := h.distinct
  rw [hnames, List.Nodup, List.pairwise_map] at hdistinct
  exact hdistinct.imp fun hne heq => hne (by rw [heq])

/-- A document of a carried kind that fits is legible. -/
theorem FormedDocument.legible (hp : Carried p) {d : Document} (h : FormedDocument p d)
    (hfits : d.fits = true) : LegibleDocument d := by
  rcases Document.fits_mem hfits with ⟨hwidth, hheight, hproperties, hnodes⟩
  exact ⟨h.window.legible hp hwidth hheight hproperties,
    fun n hn => (h.nodes n hn).legible hp (hnodes n hn), h.wellNamed⟩

/-- A document of a carried kind is settled. -/
theorem FormedDocument.settled (hp : Carried p) (s : Settings) {d : Document}
    (h : FormedDocument p d) : settledDocument s d = d := by
  rw [settledDocument, h.window.settled s,
    Forest.settled_self d.nodes fun n hn => (h.nodes n hn).unbound hp]

/-- A widget of a carried kind whose lines are written fits, and the widgets in it are
    written too. -/
theorem FormedNode.fits_of_nodeLines (hp : Carried p) {n : Node} (h : FormedNode p n) {depth : Nat}
    {lines : List String} (hlines : nodeLines depth n = .ok lines) :
    n.fits = true ∧ ∃ ls, forestLines (depth + 1) n.children = .ok ls := by
  obtain ⟨type, id, x, y, width, height, properties, children⟩ := n
  have hbound : ∀ key ∈ Catalog.geometry, bound? properties key = none :=
    fun key hkey => bound?_eq_none hkey (h.unbound hp)
  -- No property is named like an attribute, so none is passed over.
  have hwithout : without ("id" :: Catalog.geometry) properties = properties :=
    without_self (h.unbound hp)
  rw [nodeLines, hwithout] at hlines
  rcases ok_of_bind hlines with ⟨places, hplaces, hlines⟩
  rcases ok_of_bind hlines with ⟨others, hothers, hlines⟩
  rcases ok_of_bind hlines with ⟨inside, hinside, -⟩
  refine ⟨?_, inside, hinside⟩
  -- The four lines of coordinates and sizes were written, so each of the numbers could be.
  simp only [List.mapM_cons, List.mapM_nil] at hplaces
  rcases ok_of_bind hplaces with ⟨_, hx, hplaces⟩
  rcases ok_of_bind hplaces with ⟨_, hplaces, -⟩
  rcases ok_of_bind hplaces with ⟨_, hy, hplaces⟩
  rcases ok_of_bind hplaces with ⟨_, hplaces, -⟩
  rcases ok_of_bind hplaces with ⟨_, hwidth, hplaces⟩
  rcases ok_of_bind hplaces with ⟨_, hplaces, -⟩
  rcases ok_of_bind hplaces with ⟨_, hheight, -⟩
  have hproperties : Value.writableEntries properties = true := by
    refine writableEntries_of_forall fun f hf => ?_
    rcases propertyLines_of_fieldLines hothers hf with ⟨_, hfield⟩
    exact hp.writable (h.properties f hf) hfield
  simp only [Node.fits, List.all_cons, List.all_nil, Bool.and_true, hproperties,
    writable_of_geometryLine (hbound "x" (by decide)) h.x hx,
    writable_of_geometryLine (hbound "y" (by decide)) h.y hy,
    writable_of_geometryLine (hbound "width" (by decide)) h.width hwidth,
    writable_of_geometryLine (hbound "height" (by decide)) h.height hheight]

end Markup

mutual

theorem Node.fits_of_written {p : String → Value → Prop} (hp : Markup.Carried p) (depth : Nat) :
    ∀ n : Node, (∀ m ∈ n.depthFirst, Markup.FormedNode p m) → ∀ {lines : List String},
      Markup.nodeLines depth n = .ok lines → ∀ m ∈ n.depthFirst, m.fits = true
  | ⟨type, id, x, y, width, height, properties, children⟩ => by
    intro h lines hlines
    obtain ⟨hn, hbelow⟩ := Node.forall_depthFirst.mp h
    rcases hn.fits_of_nodeLines hp hlines with ⟨hfits, inside, hinside⟩
    exact Node.forall_depthFirst.mpr
      ⟨hfits, Forest.fits_of_written hp (depth + 1) children hbelow hinside⟩

/-- Widgets of a carried kind whose lines are written fit. -/
theorem Forest.fits_of_written {p : String → Value → Prop} (hp : Markup.Carried p) (depth : Nat) :
    ∀ ns : List Node, (∀ m ∈ Forest.walk ns, Markup.FormedNode p m) → ∀ {lines : List String},
      Markup.forestLines depth ns = .ok lines → ∀ m ∈ Forest.walk ns, m.fits = true
  | [] => by
    intro _ _ _ m hm
    rw [Forest.walk] at hm
    exact absurd hm List.not_mem_nil
  | n :: ns => by
    intro h lines hlines
    obtain ⟨hn, hns⟩ := Forest.forall_walk_cons.mp h
    rw [Markup.forestLines] at hlines
    rcases ok_of_bind hlines with ⟨first, hfirst, hlines⟩
    rcases ok_of_bind hlines with ⟨others, hothers, -⟩
    exact Forest.forall_walk_cons.mpr ⟨Node.fits_of_written hp depth n hn hfirst,
      Forest.fits_of_written hp depth ns hns hothers⟩

end

namespace Markup

variable {p : String → Value → Prop}

/-- A document of a carried kind that is written fits. -/
theorem FormedDocument.fits_of_written (hp : Carried p) {d : Document} (h : FormedDocument p d)
    {text : String} (htext : writeDocument d = .ok text) : d.fits = true := by
  unfold writeDocument at htext
  rcases ok_of_bind htext with ⟨imports, -, htext⟩
  rcases ok_of_bind htext with ⟨attributes, hattributes, htext⟩
  rcases ok_of_bind htext with ⟨widgets, hwidgets, -⟩
  rw [windowLines_eq] at hattributes
  rcases ok_of_bind hattributes with ⟨header, hheader, hattributes⟩
  rcases ok_of_bind hattributes with ⟨first, -, hattributes⟩
  rcases ok_of_bind hattributes with ⟨others, hothers, -⟩
  unfold windowHeader at hheader
  rcases ok_of_bind hheader with ⟨width, hwidth, hheader⟩
  rcases ok_of_bind hheader with ⟨height, hheight, hheader⟩
  -- The attributes of the window have the four names whatever their values are.
  have hnames : "id" :: header.map (·.1) = "id" :: attributeNames := by
    rw [← Except.ok.inj hheader]
    rfl
  rw [hnames, without_self fun f hf => (h.window.properties f hf).1] at hothers
  have hproperties : Value.writableEntries d.window.properties = true := by
    refine writableEntries_of_forall fun f hf => ?_
    rcases propertyLines_of_fieldLines hothers hf with ⟨_, hfield⟩
    exact hp.writable (h.window.properties f hf).2 hfield
  have hnodes : (Forest.walk d.nodes).all Node.fits = true :=
    List.all_eq_true.mpr (Forest.fits_of_written hp 1 d.nodes h.nodes hwidgets)
  rw [Document.fits, writable_of_literal h.window.width hwidth,
    writable_of_literal h.window.height hheight, hproperties, hnodes]
  rfl

/-- A document of a carried kind that fits is written, and reading gives it again. -/
theorem FormedDocument.restored (hp : Carried p) (s : Settings) {d : Document}
    (h : FormedDocument p d) (hfits : d.fits = true) :
    ∃ text, writeDocument d = .ok text ∧ (readDocument s text).1 = d := by
  rcases readDocument_writeDocument s (h.legible hp hfits) with ⟨text, htext, hread⟩
  exact ⟨text, htext, hread.trans (h.settled hp s)⟩

/-- Reading undoes writing on documents of a carried kind: such a document is written just
    if its integers are short enough, and reading its text gives the document again. -/
theorem FormedDocument.undone (hp : Carried p) (s : Settings) {d : Document}
    (h : FormedDocument p d) :
    ((∃ text, writeDocument d = .ok text) ↔ d.fits = true) ∧
      ∀ text, writeDocument d = .ok text → (readDocument s text).1 = d := by
  refine ⟨⟨fun ⟨text, htext⟩ => h.fits_of_written hp htext, fun hfits => ?_⟩, fun text htext => ?_⟩
  · rcases h.restored hp s hfits with ⟨text, htext, -⟩
    exact ⟨text, htext⟩
  · rcases h.restored hp s (h.fits_of_written hp htext) with ⟨text', htext', hread⟩
    rw [htext] at htext'
    rw [Except.ok.inj htext']
    exact hread

end Markup

end WidgetSync
