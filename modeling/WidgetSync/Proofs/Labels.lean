import WidgetSync.Proofs.Canonical
import WidgetSync.Proofs.Completion

/-!
# The Ids in a Text

Every block of a text that is written has a line for its id. Are the ids on these
lines different?

The window has a fixed id, and that of a widget is made safe once more when it is
written. Making a safe id safe changes nothing, so among the widgets ids that differ
still differ, but for one case: a widget without an id gets an underscore, and so may
a widget that is called that. Nothing keeps a widget from being called like the window.

Reading markup gives every widget an id of its own, which leaves the window. Reading
JSON takes ids as they come.

## Main definitions

* `Node.labels`, `Document.labels`: The depth and the id of each line with an id.
* `labelLine`: Such a line.
* `ToldApart`: Ids that still differ when they are written.

## Theorems

* `Document.labels_sublist`: Every label has its line in the text.
* `ToldApart.labels_nodup_iff`: When the ids in a text are different.
* `Format.written_ids`: The same for texts that were read and converted.
-/

namespace WidgetSync

mutual

/-- The lines with the ids of a widget and the widgets inside, by depth and id. -/
def Node.labels (depth : Nat) : Node → List (Nat × String)
  | ⟨_, id, _, _, _, _, _, children⟩ => (depth + 1, id.safeId) :: Forest.labels (depth + 1) children

/-- The lines with the ids of widgets side by side. -/
def Forest.labels (depth : Nat) : List Node → List (Nat × String)
  | [] => []
  | n :: ns => n.labels depth ++ Forest.labels depth ns

end

/-- The lines with the ids of a document. The window comes first. -/
def Document.labels (d : Document) : List (Nat × String) :=
  (1, "window") :: Forest.labels 1 d.nodes

mutual

theorem Node.names_labels (depth : Nat) : (n : Node) →
    (n.labels depth).map Prod.snd = n.depthFirst.map fun m => m.id.safeId
  | ⟨type, id, x, y, width, height, properties, children⟩ => by
    rw [Node.labels, Node.depthFirst, List.map_cons, List.map_cons,
      Forest.names_labels (depth + 1) children]

/-- The ids on the lines are those of the widgets in pre-order. -/
theorem Forest.names_labels (depth : Nat) : (ns : Forest) →
    (Forest.labels depth ns).map Prod.snd = (Forest.walk ns).map fun m => m.id.safeId
  | [] => by rw [Forest.labels, Forest.walk, List.map_nil, List.map_nil]
  | n :: ns => by
    rw [Forest.labels, Forest.walk_cons, List.map_append, List.map_append,
      Node.names_labels depth n, Forest.names_labels depth ns]

end

namespace Markup

/-- A line with an id. -/
def labelLine (label : Nat × String) : String :=
  s!"{indent label.1}id: {label.2}"

end Markup

open Markup (labelLine nodeLines forestLines documentLines)

mutual

theorem Node.labels_sublist : (n : Node) → {depth : Nat} → {lines : List String} →
    nodeLines depth n = .ok lines → List.Sublist ((n.labels depth).map labelLine) lines
  | ⟨type, id, x, y, width, height, properties, children⟩, depth, lines, h => by
    rw [nodeLines] at h
    rcases ok_of_bind h with ⟨place, -, h⟩
    rcases ok_of_bind h with ⟨others, -, h⟩
    rcases ok_of_bind h with ⟨inside, hinside, h⟩
    have hlines : lines = s!"{Markup.indent depth}{type.plain} \x7b" ::
        labelLine (depth + 1, id.safeId) ::
          (place ++ others ++ inside ++ [Markup.indent depth ++ "\x7d"]) :=
      (Except.ok.inj h).symm
    -- The widgets inside come between the line with the id and the end of the block.
    have hbelow := ((Forest.labels_sublist children hinside).trans
      (List.sublist_append_right (place ++ others) inside)).trans
      (List.sublist_append_left _ [Markup.indent depth ++ "\x7d"])
    rw [hlines, Node.labels, List.map_cons]
    exact .cons _ (.cons_cons _ hbelow)

/-- Every label of the widgets has its line. -/
theorem Forest.labels_sublist : (ns : Forest) → {depth : Nat} → {lines : List String} →
    forestLines depth ns = .ok lines →
    List.Sublist ((Forest.labels depth ns).map labelLine) lines
  | [], _, _, _ => by
    rw [Forest.labels]
    exact List.nil_sublist _
  | n :: ns, depth, lines, h => by
    rw [forestLines] at h
    rcases ok_of_bind h with ⟨first, hfirst, h⟩
    rcases ok_of_bind h with ⟨others, hothers, h⟩
    rw [← Except.ok.inj h, Forest.labels, List.map_append]
    exact .cons _ ((Node.labels_sublist n hfirst).append (Forest.labels_sublist ns hothers))

end

/-- Every label of a document has its line in the text. -/
theorem Document.labels_sublist {d : Document} {lines : List String}
    (h : documentLines d = .ok lines) : List.Sublist (d.labels.map labelLine) lines := by
  rcases ok_of_bind h with ⟨imports, -, h⟩
  rcases ok_of_bind h with ⟨attributes, -, h⟩
  rcases ok_of_bind h with ⟨widgets, hwidgets, h⟩
  have hlines : lines = (imports ++ ["", "ApplicationWindow \x7b"]) ++
      (labelLine (1, "window") :: (attributes ++ widgets ++ ["\x7d"])) := by
    rw [← Except.ok.inj h, show labelLine (1, "window") = s!"{Markup.indent 1}id: window" by decide]
    simp only [List.append_assoc, List.cons_append, List.nil_append]
  have hnodes := ((Forest.labels_sublist d.nodes hwidgets).trans
    (List.sublist_append_right attributes widgets)).trans (List.sublist_append_left _ ["\x7d"])
  rw [hlines, Document.labels, List.map_cons]
  exact (hnodes.cons_cons _).trans (List.sublist_append_right _ _)

/-- Ids that still differ when they are written: they differ now, none is the id of the
    window, and no widget is called like one without an id. -/
structure ToldApart (ids : List Value) : Prop where
  distinct : ids.Nodup
  window : .text "window" ∉ ids
  named : ¬ (.text "" ∈ ids ∧ .text "_" ∈ ids)

/-- What is written for an id that is safe or none. -/
theorem safeId_cases {name : String} (h : name = "" ∨ isSafeId name = true) :
    (name = "" ∧ safeId name = "_") ∨ safeId name = name := by
  rcases h with rfl | h
  · exact .inl ⟨rfl, by decide⟩
  · exact .inr (safeId_of_isSafeId h)

/-- Two ids are written alike only if they are the same, or one is none and one an
    underscore. -/
theorem safeId_inj_on {names : List String} (hsafe : ∀ s ∈ names, s = "" ∨ isSafeId s = true)
    (hnamed : ¬ ("" ∈ names ∧ "_" ∈ names)) {a b : String} (ha : a ∈ names) (hb : b ∈ names)
    (h : safeId a = safeId b) : a = b := by
  rcases safeId_cases (hsafe a ha) with ⟨rfl, ha'⟩ | ha'
  · rcases safeId_cases (hsafe b hb) with ⟨rfl, -⟩ | hb'
    · rfl
    · rw [ha', hb'] at h
      exact absurd ⟨ha, h ▸ hb⟩ hnamed
  · rcases safeId_cases (hsafe b hb) with ⟨rfl, hb'⟩ | hb'
    · rw [ha', hb'] at h
      exact absurd ⟨hb, h ▸ ha⟩ hnamed
    · rwa [ha', hb'] at h

/-- When the ids in a text are different. -/
theorem ToldApart.labels_nodup_iff {d : Document} {names : List String}
    (hids : (Forest.walk d.nodes).map (·.id) = names.map Value.text)
    (hsafe : ∀ s ∈ names, s = "" ∨ isSafeId s = true) :
    (d.labels.map Prod.snd).Nodup ↔ ToldApart ((Forest.walk d.nodes).map (·.id)) := by
  have hmem : ∀ s : String, Value.text s ∈ names.map Value.text ↔ s ∈ names := fun s =>
    List.mem_map_of_injective fun a b h => Value.text.inj h
  have hwritten : (Forest.walk d.nodes).map (fun m => m.id.safeId) = names.map safeId := by
    have hmap := congrArg (List.map Value.safeId) hids
    rwa [List.map_map, List.map_map] at hmap
  rw [Document.labels, List.map_cons, Forest.names_labels, hwritten, hids, List.nodup_cons]
  constructor
  · rintro ⟨hwindow, hnodup⟩
    refine ⟨(hnodup.of_map _).map fun a b h => Value.text.inj h, fun h => ?_, fun h => ?_⟩
    · exact hwindow (List.mem_map.mpr ⟨"window", (hmem _).mp h, by decide⟩)
    · have heq := List.inj_on_of_nodup_map hnodup ((hmem _).mp h.1) ((hmem _).mp h.2)
        (by decide)
      exact absurd heq (by decide)
  · intro h
    have hnamed : ¬ ("" ∈ names ∧ "_" ∈ names) := fun hboth =>
      h.named ⟨(hmem _).mpr hboth.1, (hmem _).mpr hboth.2⟩
    refine ⟨fun hwindow => ?_, (h.distinct.of_map _).map_on fun a ha b hb =>
      safeId_inj_on hsafe hnamed ha hb⟩
    rcases List.mem_map.mp hwindow with ⟨s, hs, heq⟩
    rcases safeId_cases (hsafe s hs) with ⟨-, hs'⟩ | hs'
    · rw [hs'] at heq
      exact absurd heq (by decide)
    · have hsame : s = "window" := hs'.symm.trans heq
      exact h.window ((hmem _).mpr (hsame ▸ hs))

/-- Ids that differ and are not empty are told apart unless one is that of the window. -/
theorem Forest.WellNamed.toldApart_iff {nodes : Forest} (h : Forest.WellNamed nodes) :
    ToldApart ((Forest.walk nodes).map (·.id))
      ↔ .text "window" ∉ (Forest.walk nodes).map (·.id) := by
  refine ⟨fun ht => ht.window, fun hwindow => ?_⟩
  rcases h with ⟨names, hids, hnodup, hsafe⟩
  rw [hids] at hwindow ⊢
  refine ⟨hnodup.map fun a b hab => Value.text.inj hab, hwindow, fun hnamed => ?_⟩
  rcases List.mem_map.mp hnamed.1 with ⟨s, hs, heq⟩
  have hempty := hsafe s hs
  rw [Value.text.inj heq] at hempty
  exact absurd hempty (by decide)

namespace ReadDocument

variable {s : Settings} {d : Document}

/-- The ids of what was read are texts, and each is safe or none. -/
theorem ids (h : ReadDocument s d) : ∃ names : List String,
    (Forest.walk d.nodes).map (·.id) = names.map Value.text ∧
      ∀ name ∈ names, name = "" ∨ isSafeId name = true := by
  have hall : ∀ ns : List Node, (∀ n ∈ ns, PortableNode n) → ∃ names : List String,
      ns.map (·.id) = names.map Value.text ∧
        ∀ name ∈ names, name = "" ∨ isSafeId name = true := by
    intro ns
    induction ns with
    | nil => exact fun _ => ⟨[], rfl, List.forall_mem_nil _⟩
    | cons n ns ih =>
        intro hns
        rw [List.forall_mem_cons] at hns
        rcases hns.1.id with ⟨name, hname, hsafe⟩
        rcases ih hns.2 with ⟨names, hnames, hall⟩
        refine ⟨name :: names, ?_, List.forall_mem_cons.mpr ⟨hsafe, hall⟩⟩
        rw [List.map_cons, List.map_cons, hname, hnames]
  exact hall _ h.nodes

end ReadDocument

namespace Format

/-- The ids in a text that was converted to markup. Each stands on the line for the id of
    its block. They are different if and only if those of the widgets are told apart from
    each other and from the window's. If the source was markup itself, all that can go
    wrong is that a widget is called like the window. -/
theorem written_ids (s : Settings) {source : Format} (hsource : source ∈ [markup, json])
    (content : String) {text : String}
    (h : markup.write (source.read s content).1 = .ok text) :
    (∃ lines, text = "\n".intercalate lines ++ "\n" ∧
      List.Sublist ((source.read s content).1.labels.map labelLine) lines) ∧
    (((source.read s content).1.labels.map Prod.snd).Nodup
      ↔ ToldApart ((Forest.walk (source.read s content).1.nodes).map (·.id))) ∧
    (source.name = markup.name →
      (ToldApart ((Forest.walk (source.read s content).1.nodes).map (·.id))
        ↔ .text "window" ∉ (Forest.walk (source.read s content).1.nodes).map (·.id))) := by
  rw [List.mem_cons, List.mem_singleton] at hsource
  refine ⟨?_, ?_, ?_⟩
  · have hwrite : Markup.writeDocument (source.read s content).1 = .ok text := h
    rw [Markup.writeDocument_lines] at hwrite
    rcases ok_of_map hwrite with ⟨lines, hlines, rfl⟩
    exact ⟨lines, rfl, Document.labels_sublist hlines⟩
  · rcases (read_read hsource s content).ids with ⟨names, hids, hsafe⟩
    exact ToldApart.labels_nodup_iff hids hsafe
  · intro hname
    rcases hsource with rfl | rfl
    · exact (Markup.readDocument_gained s content).ids.toldApart_iff
    · exact absurd hname (by decide)

theorem sampleSource_ids :
    markup ∈ [markup, json] ∧ ∃ text, markup.write (markup.read {} sampleSource).1 = .ok text ∧
      (∃ lines, text = "\n".intercalate lines ++ "\n" ∧
        List.Sublist ((markup.read {} sampleSource).1.labels.map labelLine) lines) ∧
      ((markup.read {} sampleSource).1.labels.map Prod.snd).Nodup := by
  rcases (Markup.readDocument_gained {} sampleSource).writeDocument_ok (by decide +kernel)
    (by decide +kernel) with ⟨text, htext⟩
  have hmem : markup ∈ [markup, json] := List.mem_cons_self
  have h := written_ids {} hmem sampleSource htext
  have hfree : (Forest.walk (markup.read {} sampleSource).1.nodes).all
      (fun n => !n.id.same (.text "window")) = true := by decide +kernel
  refine ⟨hmem, text, htext, h.1, h.2.1.mpr ((h.2.2 rfl).mpr fun hwindow => ?_)⟩
  rcases List.mem_map.mp hwindow with ⟨n, hn, hid⟩
  have hdiffers := List.all_eq_true.mp hfree n hn
  rw [hid] at hdiffers
  exact absurd hdiffers (by decide)

/-- A button that is called like the window. -/
def namedWindow : String :=
  "Button \x7b id: window \x7d"

/-- A button and a label with the same id. -/
def twins : String :=
  "[\x7b\"type\": \"Button\", \"id\": \"a\"\x7d, \x7b\"type\": \"Label\", \"id\": \"a\"\x7d]"

/-- An id may stand in a text twice, whichever format was read. -/
theorem written_twice :
    (∃ text, markup.write (markup.read {} namedWindow).1 = .ok text ∧
      ¬ ((markup.read {} namedWindow).1.labels.map Prod.snd).Nodup) ∧
    ∃ text, markup.write (json.read {} twins).1 = .ok text ∧
      ¬ ((json.read {} twins).1.labels.map Prod.snd).Nodup := by
  have hmarkup : (markup.write (markup.read {} namedWindow).1).isOk = true := by decide +kernel
  have hjson : (markup.write (json.read {} twins).1).isOk = true := by decide +kernel
  rcases ok_of_isOk hmarkup with ⟨first, hfirst⟩
  rcases ok_of_isOk hjson with ⟨second, hsecond⟩
  exact ⟨⟨first, hfirst, by decide +kernel⟩, second, hsecond, by decide +kernel⟩

end Format

end WidgetSync
