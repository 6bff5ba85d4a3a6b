import WidgetSync.Format
import WidgetSync.Proofs.JsonData
import WidgetSync.Proofs.Writable

/-!
# Documents through Plain Data

What is exchanged as plain data comes back as it was.

Four kinds of values are no plain data, and each is put into a record with a tag.
Going back, a record is asked for the tags one after the other. That the right
tag answers has to be said of one record at a time only: the record of a value
has the tag of its kind first and never another, and what is nested in the value
stands under further names, which are not asked. Names of properties are such
names; a property that is called like a tag does no harm.

`Portable` lists the values for which this works. It leaves out plain records
that carry a tag of their own, and nothing else that a text or a host can bring
in. A node is portable if its attributes are data and its id is safe, since ids
are made safe on the way back; a window if its size is not below zero, since such
a size is replaced.

What is read from a text is portable, as long as no size of the window is below
zero. So JSON carries whatever markup can say.

## Main definitions

* `Portable`: The values that plain data bring back.
* `PortableNode`, `PortableWindow`, `PortableDocument`: Widgets, windows, documents.

## Theorems

* `Portable.restored`, `Portable.datum`: Values come back, and are data meanwhile.
* `Node.ofData_toData`: Trees come back.
* `PortableDocument.restored`, `PortableDocument.datum`: Documents come back.
* `GainedDocument.portable`: What is read from a text is portable.
* `Format.json_keeps_markup`: Markup goes through JSON and comes back.
-/

namespace WidgetSync

open Json (Datum)

namespace Value

/-- The names that are tags. -/
def tags : List String :=
  ["$raw", "$group", "$handler", "$object"]

/-- The values that plain data bring back. -/
inductive Portable : Value → Prop where
  /-- Plain data; a record among them has no tag. -/
  | data {v : Value} (h : Datum v)
      (htags : ∀ entries, v = .record entries → ∀ tag ∈ tags, tag ∉ Table.names entries) :
      Portable v
  | raw (s : String) : Portable (.raw s)
  | group {fields : Fields} (hnodup : (Table.names fields).Nodup)
      (h : ∀ f ∈ fields, Portable f.2) : Portable (.group fields)
  | handler {code : Value} (h : Datum code) (block : Bool) : Portable (.handler code (.bool block))
  | object {type : Value} {properties : Fields} (htype : Datum type)
      (hnodup : (Table.names properties).Nodup) (h : ∀ f ∈ properties, Portable f.2) :
      Portable (.object type properties)

theorem names_fieldsToData (fields : List (String × Value)) :
    Table.names (fieldsToData fields) = Table.names fields := by
  induction fields with
  | nil => rw [fieldsToData]
  | cons f fields ih =>
      obtain ⟨k, v⟩ := f
      rw [fieldsToData, Table.names, List.map_cons, ← Table.names, ih]
      rfl

theorem mem_fieldsToData {fields : List (String × Value)} {e : String × Value}
    (h : e ∈ fieldsToData fields) : ∃ f ∈ fields, e = (f.1, f.2.toData) := by
  induction fields with
  | nil =>
      rw [fieldsToData] at h
      exact absurd h List.not_mem_nil
  | cons f fields ih =>
      obtain ⟨k, v⟩ := f
      rw [fieldsToData] at h
      rcases List.mem_cons.mp h with rfl | h
      · exact ⟨(k, v), List.mem_cons_self, rfl⟩
      · rcases ih h with ⟨f, hf, he⟩
        exact ⟨f, List.mem_cons_of_mem _ hf, he⟩

/-- Fields come back if their values do. -/
theorem fieldsOfData_fieldsToData {fields : List (String × Value)}
    (h : ∀ f ∈ fields, f.2.toData.ofData = .ok f.2) :
    fieldsOfData (fieldsToData fields) = .ok fields := by
  induction fields with
  | nil => rw [fieldsToData, fieldsOfData]
  | cons f fields ih =>
      obtain ⟨k, v⟩ := f
      rw [List.forall_mem_cons] at h
      rw [fieldsToData, fieldsOfData, h.1, ih h.2]
      rfl

/-- Fields are data if their values are. -/
theorem datum_fieldsToData {fields : List (String × Value)} (hnodup : (Table.names fields).Nodup)
    (h : ∀ f ∈ fields, Datum f.2.toData) : Datum (.record (fieldsToData fields)) := by
  refine .record (by rwa [names_fieldsToData]) fun e he => ?_
  rcases mem_fieldsToData he with ⟨f, hf, rfl⟩
  exact h f hf

/-- Plain data are not changed on the way. -/
theorem toData_datum {v : Value} (h : Datum v) : v.toData = v := by
  cases h
  all_goals rfl

/-- The fields under a name are those of the value under it. -/
theorem fieldsUnder_eq (name : String) (entries : List (String × Value)) :
    fieldsUnder name entries = (Table.get? entries name).map fieldsIn := by
  induction entries with
  | nil => rw [fieldsUnder]; rfl
  | cons e entries ih =>
      obtain ⟨k, v⟩ := e
      rw [fieldsUnder, Table.get?, ih]
      split
      · rfl
      · rfl

/-- A record without a tag is data of its own. -/
theorem ofData_untagged {entries : List (String × Value)}
    (h : ∀ tag ∈ tags, tag ∉ Table.names entries) :
    ofData (.record entries) = .ok (.record entries) := by
  have hnone : ∀ tag ∈ tags, Table.get? entries tag = none := fun tag htag =>
    Table.get?_eq_none_of_not_mem (h tag htag)
  simp only [tags, List.forall_mem_cons] at hnone
  obtain ⟨hraw, hgroup, hhandler, hobject, -⟩ := hnone
  simp only [ofData, fieldsUnder_eq, hraw, hgroup, hhandler, hobject, Option.map_none]

theorem ofData_raw (s : String) : ofData (.record [("$raw", .text s)]) = .ok (.raw s) := by
  rw [ofData]
  rfl

theorem ofData_group (fields : List (String × Value)) :
    ofData (.record [("$group", .record fields)]) = (fieldsOfData fields).map .group := by
  rw [ofData, fieldsUnder_eq]
  rfl

theorem ofData_handler (code : Value) (block : Bool) :
    ofData (.record [("$handler", code), ("block", .bool block)])
      = .ok (.handler code (.bool block)) := by
  rw [ofData, fieldsUnder_eq]
  rfl

theorem ofData_object (type : Value) (properties : List (String × Value)) :
    ofData (.record [("$object", type), ("properties", .record properties)])
      = (fieldsOfData properties).map (.object type) := by
  rw [ofData, fieldsUnder_eq, fieldsUnder_eq]
  rfl

namespace Portable

/-- Values come back as they were. -/
theorem restored {v : Value} (h : Portable v) : v.toData.ofData = .ok v := by
  induction h with
  | data h htags =>
      rw [toData_datum h]
      cases h with
      | record => exact ofData_untagged (htags _ rfl)
      | _ => rw [ofData]; exact fun _ => Value.noConfusion
  | raw s => rw [toData, ofData_raw]
  | group _ _ ih =>
      rw [toData, ofData_group, fieldsOfData_fieldsToData ih]
      rfl
  | handler _ block => rw [toData, ofData_handler]
  | object _ _ _ ih =>
      rw [toData, ofData_object, fieldsOfData_fieldsToData ih]
      rfl

/-- On the way values are data. -/
theorem datum {v : Value} (h : Portable v) : Datum v.toData := by
  induction h with
  | data h => rwa [toData_datum h]
  | raw s =>
      rw [toData]
      refine .record (show ["$raw"].Nodup by decide) ?_
      exact List.forall_mem_singleton.mpr (.text s)
  | group hnodup _ ih =>
      rw [toData]
      refine .record (show ["$group"].Nodup by decide) ?_
      exact List.forall_mem_singleton.mpr (datum_fieldsToData hnodup ih)
  | handler hcode block =>
      rw [toData]
      refine .record (show ["$handler", "block"].Nodup by decide) ?_
      simp only [List.forall_mem_cons]
      exact ⟨hcode, .bool block, List.forall_mem_nil _⟩
  | object htype hnodup _ ih =>
      rw [toData]
      refine .record (show ["$object", "properties"].Nodup by decide) ?_
      simp only [List.forall_mem_cons]
      exact ⟨htype, datum_fieldsToData hnodup ih, List.forall_mem_nil _⟩

end Portable

/-- Properties that plain data bring back. -/
structure PortableFields (fields : Fields) : Prop where
  nodup : (Table.names fields).Nodup
  values : ∀ f ∈ fields, Portable f.2

namespace PortableFields

variable {fields : Fields}

theorem restored (h : PortableFields fields) :
    fieldsIn (.record (fieldsToData fields)) = .ok fields := by
  rw [fieldsIn, fieldsOfData_fieldsToData fun f hf => (h.values f hf).restored]

theorem datum (h : PortableFields fields) : Datum (.record (fieldsToData fields)) :=
  datum_fieldsToData h.nodup fun f hf => (h.values f hf).datum

end PortableFields

end Value

open Value (PortableFields)

/-- A node that plain data bring back, its children apart. -/
structure PortableNode (n : Node) : Prop where
  type : ∃ t, n.type = .text t
  /-- The id is safe, or there is none. -/
  id : ∃ name, n.id = .text name ∧ (name = "" ∨ isSafeId name = true)
  x : Datum n.x
  y : Datum n.y
  width : Datum n.width
  height : Datum n.height
  fields : PortableFields n.properties

namespace Node

/-- The trees under a name are those of the value under it. -/
theorem forestUnder_eq (name : String) (entries : List (String × Value)) :
    forestUnder name entries = (Table.get? entries name).map forestIn := by
  induction entries with
  | nil => rw [forestUnder]; rfl
  | cons e entries ih =>
      obtain ⟨k, v⟩ := e
      rw [forestUnder, Table.get?, ih]
      split
      · rfl
      · rfl

/-- The members of a node, as plain data. -/
def members (n : Node) : Fields :=
  [("id", n.id), ("type", n.type), ("x", n.x), ("y", n.y), ("width", n.width),
   ("height", n.height), ("properties", .record (Value.fieldsToData n.properties)),
   ("children", .list (allToData n.children))]

theorem toData_eq (n : Node) : n.toData = .record n.members := by
  cases n
  rw [toData]
  rfl

/-- A node comes back if its children do. -/
theorem ofEntries_members {n : Node} (h : PortableNode n) :
    ofEntries n.members (.ok n.children) = .ok n := by
  rcases h.type with ⟨t, ht⟩
  rcases h.id with ⟨name, hname, hsafe⟩
  have hid : (if (Value.text name).truth = true then (Value.text name).safeId else "") = name := by
    rcases hsafe with rfl | hsafe
    · rfl
    · rw [if_pos (Value.truth_of_safe rfl hsafe)]
      exact safeId_of_isSafeId hsafe
  have hfields := h.fields.restored
  obtain ⟨type, id, x, y, width, height, properties, children⟩ := n
  simp only at ht hname hfields
  subst ht hname
  unfold ofEntries members
  simp only [Table.get?, String.reduceEq, if_true, if_false, Option.getD_some, Value.plain, hid,
    hfields]
  rfl

/-- A node is data if its children are. -/
theorem datum_toData {n : Node} (h : PortableNode n)
    (hchildren : ∀ v ∈ allToData n.children, Datum v) : Datum n.toData := by
  rcases h.type with ⟨t, ht⟩
  rcases h.id with ⟨name, hname, -⟩
  rw [toData_eq]
  refine .record (show ["id", "type", "x", "y", "width", "height", "properties", "children"].Nodup
    by decide) ?_
  rw [members, ht, hname]
  simp only [List.forall_mem_cons]
  exact ⟨.text name, .text t, h.x, h.y, h.width, h.height, h.fields.datum, .list hchildren,
    List.forall_mem_nil _⟩

mutual

/-- A tree comes back. -/
theorem ofData_toData : ∀ (n : Node), (∀ m ∈ n.depthFirst, PortableNode m) →
    ofData n.toData = .ok n
  | ⟨type, id, x, y, width, height, properties, children⟩, h => by
    rw [Node.forall_depthFirst] at h
    have hchildren := forestOfData_allToData children h.2
    rw [toData_eq, ofData, forestUnder_eq]
    refine Eq.trans ?_ (ofEntries_members h.1)
    rw [← hchildren]
    rfl

/-- Trees side by side come back. -/
theorem forestOfData_allToData : ∀ (ns : List Node), (∀ m ∈ Forest.walk ns, PortableNode m) →
    forestOfData (allToData ns) = .ok ns
  | [], _ => by rw [allToData, forestOfData]
  | n :: ns, h => by
    rw [Forest.forall_walk_cons] at h
    rw [allToData, forestOfData, ofData_toData n h.1, forestOfData_allToData ns h.2]
    rfl

end

mutual

/-- On the way a tree is data. -/
theorem datum_tree : ∀ (n : Node), (∀ m ∈ n.depthFirst, PortableNode m) → Datum n.toData
  | ⟨type, id, x, y, width, height, properties, children⟩, h => by
    rw [Node.forall_depthFirst] at h
    exact datum_toData h.1 (datum_forest children h.2)

/-- On the way each of the trees is data. -/
theorem datum_forest : ∀ (ns : List Node), (∀ m ∈ Forest.walk ns, PortableNode m) →
    ∀ v ∈ allToData ns, Datum v
  | [], _ => by
    rw [allToData]
    exact List.forall_mem_nil _
  | n :: ns, h => by
    rw [Forest.forall_walk_cons] at h
    rw [allToData, List.forall_mem_cons]
    exact ⟨datum_tree n h.1, datum_forest ns h.2⟩

end

end Node

/-- A window that plain data bring back. -/
structure PortableWindow (w : Window) : Prop where
  width : Datum w.width
  height : Datum w.height
  /-- A size below zero would be replaced. -/
  widthKept : w.width.isNegative = .ok false
  heightKept : w.height.isNegative = .ok false
  title : ∃ t, w.title = .text t
  visible : ∃ b, w.visible = .bool b
  fields : PortableFields w.properties

namespace Window

variable {w : Window}

/-- The members of a window, as plain data. -/
def members (w : Window) : Fields :=
  [("width", w.width), ("height", w.height), ("title", w.title), ("visible", w.visible)] ++
    if w.properties.isEmpty then []
    else [("properties", .record (Value.fieldsToData w.properties))]

theorem toData_eq (w : Window) : w.toData = .record w.members := rfl

/-- Properties that are left out come back as none. -/
theorem get?_properties (w : Window) :
    (Table.get? w.members "properties").getD (.record [])
      = .record (Value.fieldsToData w.properties) := by
  unfold members
  cases w.properties with
  | nil =>
      rw [Value.fieldsToData]
      rfl
  | cons f fs => rfl

theorem names_members (w : Window) : (Table.names w.members).Nodup := by
  unfold members
  cases w.properties with
  | nil => exact (show ["width", "height", "title", "visible"].Nodup by decide)
  | cons f fs => exact (show ["width", "height", "title", "visible", "properties"].Nodup by decide)

/-- A window is made anew from its attributes. -/
theorem ofData_toData_eq (hvisible : ∃ b, w.visible = .bool b)
    (hfields : PortableFields w.properties) (s : Settings) :
    ofData s w.toData = make s w.width w.height w.title w.visible w.properties := by
  rcases hvisible with ⟨b, hb⟩
  have hparts : parts (.record w.members) = .ok (w.members, w.properties) := by
    unfold parts
    simp only [Value.entries, bind, Except.bind, get?_properties, hfields.restored, pure,
      Except.pure]
  have hwidth : Table.get? w.members "width" = some w.width := rfl
  have hheight : Table.get? w.members "height" = some w.height := rfl
  have htitle : Table.get? w.members "title" = some w.title := rfl
  have hshown : Table.get? w.members "visible" = some w.visible := rfl
  rw [toData_eq]
  unfold ofData
  simp only [hparts, bind, Except.bind, hwidth, hheight, htitle, hshown, Option.getD_some, hb,
    Value.truth]

/-- On the way a window is data if its attributes are. -/
theorem datum_of_attributes (hwidth : Datum w.width) (hheight : Datum w.height)
    (htitle : Datum w.title) (hvisible : ∃ b, w.visible = .bool b)
    (hfields : PortableFields w.properties) : Datum w.toData := by
  rcases hvisible with ⟨b, hb⟩
  rw [toData_eq]
  refine .record (names_members w) ?_
  rw [members, List.forall_mem_append]
  refine ⟨?_, ?_⟩
  · rw [hb]
    simp only [List.forall_mem_cons]
    exact ⟨hwidth, hheight, htitle, .bool b, List.forall_mem_nil _⟩
  · split
    · exact List.forall_mem_nil _
    · exact List.forall_mem_singleton.mpr hfields.datum

/-- A window comes back. -/
theorem ofData_toData (h : PortableWindow w) (s : Settings) : ofData s w.toData = .ok w := by
  rcases h.title with ⟨t, ht⟩
  rw [ofData_toData_eq h.visible h.fields]
  simp only [make, h.widthKept, h.heightKept, ht, bind, Except.bind, Bool.false_eq_true, if_false,
    pure, Except.pure]
  rw [← ht]

/-- On the way a window is data. -/
theorem datum_toData (h : PortableWindow w) : Datum w.toData := by
  rcases h.title with ⟨t, ht⟩
  exact datum_of_attributes h.width h.height (ht ▸ .text t) h.visible h.fields

end Window

/-- A document that plain data bring back. -/
structure PortableDocument (d : Document) : Prop where
  window : PortableWindow d.window
  nodes : ∀ n ∈ Forest.walk d.nodes, PortableNode n

namespace Document

variable {d : Document}

/-- A document comes back if its window does. -/
theorem ofData_toData {s : Settings} (hwindow : Window.ofData s d.window.toData = .ok d.window)
    (hnodes : ∀ n ∈ Forest.walk d.nodes, PortableNode n) : ofData s d.toData = .ok d := by
  have hdata : windowData
      [("window", d.window.toData), ("nodes", .list (Node.allToData d.nodes))]
        = d.window.toData := rfl
  have hforest : Node.forestUnder "nodes"
      [("window", d.window.toData), ("nodes", .list (Node.allToData d.nodes))]
        = some (.ok d.nodes) := by
    rw [Node.forestUnder_eq, ← Node.forestOfData_allToData d.nodes hnodes]
    rfl
  rw [toData, ofData, hdata, hwindow, hforest]
  rfl

/-- On the way a document is data if its window is. -/
theorem datum_toData (hwindow : Datum d.window.toData)
    (hnodes : ∀ n ∈ Forest.walk d.nodes, PortableNode n) : Datum d.toData := by
  refine .record (show ["window", "nodes"].Nodup by decide) ?_
  simp only [List.forall_mem_cons]
  exact ⟨hwindow, .list (Node.datum_forest d.nodes hnodes), List.forall_mem_nil _⟩

/-- A document that is data on the way is written as JSON, and read as written wherever it
    comes back. -/
theorem readDocument_toData (h : Datum d.toData) :
    ∃ text, Json.writeDocument d = .ok text ∧
      ∀ s, ofData s d.toData = .ok d → Json.readDocument s text = (d, []) := by
  rcases Json.read?_write h with ⟨text, hwrite, hread⟩
  refine ⟨text ++ "\n", ?_, fun s hdata => ?_⟩
  · rw [Json.writeDocument, hwrite]
    rfl
  · have hdocument : Json.readDocument? s (text ++ "\n") = some d := by
      rw [Json.readDocument?, hread, Option.bind_some, hdata]
      rfl
    rw [Json.readDocument, hdocument]

end Document

namespace PortableDocument

variable {d : Document}

/-- A document comes back. -/
theorem restored (h : PortableDocument d) (s : Settings) : Document.ofData s d.toData = .ok d :=
  Document.ofData_toData (Window.ofData_toData h.window s) h.nodes

/-- On the way a document is data. -/
theorem datum (h : PortableDocument d) : Datum d.toData :=
  Document.datum_toData (Window.datum_toData h.window) h.nodes

/-- A document is written as JSON, and read as written. -/
theorem readDocument_written (h : PortableDocument d) :
    ∃ text, Json.writeDocument d = .ok text ∧ ∀ s, Json.readDocument s text = (d, []) := by
  rcases Document.readDocument_toData h.datum with ⟨text, hwrite, hread⟩
  exact ⟨text, hwrite, fun s => hread s (h.restored s)⟩

end PortableDocument

namespace Markup

open Value (Portable)

theorem GainedNumber.datum {v : Value} (h : GainedNumber v) : Datum v := by
  cases h with
  | int h => exact .int h
  | float x => exact .float x

/-- A value without structure is source text or data. -/
theorem Simple.portable {v : Value} (h : Simple v) : Portable v := by
  cases h with
  | raw s => exact .raw s
  | text s => exact .data (.text s) fun _ => Value.noConfusion
  | int h => exact .data (.int h) fun _ => Value.noConfusion
  | bool b => exact .data (.bool b) fun _ => Value.noConfusion
  | float x => exact .data (.float x) fun _ => Value.noConfusion

/-- A value that was read is portable. -/
theorem Gained.portable {group : Option String} {key : String} {v : Value}
    (h : Gained group key v) : Portable v := by
  induction h with
  | plain _ _ _ hv => exact hv.simple.portable
  | verbatim => exact .raw _
  | declaration => exact .raw _
  | @handler _ _ code block => exact .handler (.text code) block
  | block _ _ hnodup _ ih => exact .group hnodup ih
  | points _ _ _ hfields =>
      exact .group hfields.nodup fun f hf => (hfields.values f hf).2.2.simple.portable
  | @object _ _ type _ _ _ _ hnodup _ ih => exact .object (.text type) hnodup ih

theorem GainedFields.portable {group : Option String} {fields : Fields}
    (h : GainedFields group fields) : PortableFields fields :=
  ⟨h.nodup, fun f hf => (h.values f hf).portable⟩

/-- A widget that was read from a text is portable. -/
theorem GainedDocument.portableNode {s : Settings} {d : Document} (h : GainedDocument s d)
    {n : Node} (hn : n ∈ Forest.walk d.nodes) : PortableNode n := by
  have hnode := h.nodes n hn
  rcases h.ids with ⟨names, hnames, -, hsafe⟩
  have hin : n.id ∈ names.map Value.text := by
    rw [← hnames]
    exact List.mem_map_of_mem hn
  rcases List.mem_map.mp hin with ⟨name, hname, hid⟩
  rcases hnode.type with ⟨t, ht, -⟩
  exact ⟨⟨t, ht⟩, ⟨name, hid.symm, .inr (hsafe name hname)⟩, hnode.x.datum, hnode.y.datum,
    hnode.width.datum, hnode.height.datum, hnode.fields.portable⟩

/-- What was read from a text is portable, as long as no size of the window is below
    zero. -/
theorem GainedDocument.portable {s : Settings} {d : Document} (h : GainedDocument s d)
    (hsettings : (Value.int s.width).writable = true ∧ (Value.int s.height).writable = true)
    (hwidth : d.window.width.isNegative = .ok false)
    (hheight : d.window.height.isNegative = .ok false) : PortableDocument d := by
  have hsizes := h.window.sizes hsettings.1 hsettings.2
  exact ⟨⟨.of_size hsizes.1 (h.window.width.imp_right GainedNumber.datum),
    .of_size hsizes.2 (h.window.height.imp_right GainedNumber.datum), hwidth, hheight,
    h.window.title, h.window.visible, h.window.fields.portable⟩, fun n hn => h.portableNode hn⟩

end Markup

namespace Format

/-- JSON loses nothing that markup can say. Whatever text a document was read from, the
    document is written as JSON and read back as it was, without a notice, and then has
    the same markup as before.

    The sizes of the window must not be below zero; such a size counts as none. That the
    sizes in the settings can be written is needed for a text that names no size. -/
theorem json_keeps_markup (s : Settings) (source : String)
    (hsettings : (Value.int s.width).writable = true ∧ (Value.int s.height).writable = true)
    (hwidth : (markup.read s source).1.window.width.isNegative = .ok false)
    (hheight : (markup.read s source).1.window.height.isNegative = .ok false) :
    ∃ text canonical, json.write (markup.read s source).1 = .ok text ∧
      markup.write (markup.read s source).1 = .ok canonical ∧
      ∀ s' : Settings, json.read s' text = ((markup.read s source).1, []) ∧
        markup.write (json.read s' text).1 = .ok canonical := by
  have hgained := Markup.readDocument_gained s source
  rcases (hgained.portable hsettings hwidth hheight).readDocument_written with
    ⟨text, htext, hread⟩
  rcases hgained.writeDocument_ok hsettings.1 hsettings.2 with ⟨canonical, hcanonical⟩
  refine ⟨text, canonical, htext, hcanonical, fun s' => ⟨hread s', ?_⟩⟩
  change Markup.writeDocument (Json.readDocument s' text).1 = _
  rw [hread s', hcanonical]

/-- A window with a handler, and a widget with a group, an object, source text and a
    double. -/
def sampleSource : String :=
  "ApplicationWindow { width: 640; onClosing: { save(); quit() }
Column { font { bold: true } opacity: 0.5
delegate: Button { x: a.b } } }"

theorem sampleSource_kept :
    (Value.int ({} : Settings).width).writable = true ∧
    (Value.int ({} : Settings).height).writable = true ∧
    (markup.read {} sampleSource).1.window.width.isNegative = .ok false ∧
    (markup.read {} sampleSource).1.window.height.isNegative = .ok false ∧
    ∃ text canonical, json.write (markup.read {} sampleSource).1 = .ok text ∧
      markup.write (markup.read {} sampleSource).1 = .ok canonical ∧
      ∀ s' : Settings, json.read s' text = ((markup.read {} sampleSource).1, []) ∧
        markup.write (json.read s' text).1 = .ok canonical := by
  have hsettings : (Value.int ({} : Settings).width).writable = true ∧
      (Value.int ({} : Settings).height).writable = true := by decide +kernel
  have hsize : (markup.read {} sampleSource).1.window.width.isNegative = .ok false ∧
      (markup.read {} sampleSource).1.window.height.isNegative = .ok false := by decide +kernel
  exact ⟨hsettings.1, hsettings.2, hsize.1, hsize.2,
    json_keeps_markup {} sampleSource hsettings hsize.1 hsize.2⟩

end Format

end WidgetSync
