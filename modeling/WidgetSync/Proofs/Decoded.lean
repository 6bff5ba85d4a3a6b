import WidgetSync.Proofs.Tagged

/-!
# What JSON Text Can Say

Writing what was read of a JSON text reaches a text that stays as it is.

Any text may come in: it need not be JSON, and what it holds need not look like a
document. Reading coerces what it can and gives up on the rest, and a text that is
given up has the empty document. So there is nothing to assume about the text. What
has to be shown is that coercing once is enough, value by value.

The argument goes in two steps. A JSON text stands for plain data only, with numbers
that are short enough to be written and with no name twice in a record. And from
plain data come only values that plain data bring back: a tag is answered by the
value it stands for, and a record that no tag answers for has no tag. Both are
inductions along the reader, so a new kind of value is a new case in each.

A window is made anew from its attributes whenever it is read. The sizes below zero
and the title that is not there are replaced then, and what replaces them is not
replaced by anything else under the same settings.

## Main definitions

* `Value.Decoded`, `Node.Decoded`: What reading makes of plain data.
* `DataWindow`, `KeptWindow`: A window of plain data, and one that comes back.

## Theorems

* `Json.read?_datum`: A JSON text stands for plain data.
* `Value.decoded`: From plain data come values that plain data bring back.
* `Node.decoded`: From plain data come nodes that plain data bring back.
* `Window.make_made`: A window that was made is made as it is.
* `Json.readDocument_kept`: What is read of a text comes back.
* `Format.json_canonical`: Reading and writing once reaches the canonical text.
-/

namespace WidgetSync

open Json (Datum)

namespace Table

variable {α : Type}

-- Both facts on a table of entries hold of the table so far and of one entry more.
theorem ofEntries_induction {p : Table α → Prop} {entries : List (String × α)} (hnil : p [])
    (hset : ∀ t, ∀ e ∈ entries, p t → p (t.set e.1 e.2)) : p (ofEntries entries) := by
  have hfold : ∀ (es : List (String × α)) (t : Table α), (∀ e ∈ es, e ∈ entries) → p t →
      p (es.foldl (fun t e => set t e.1 e.2) t) := by
    intro es
    induction es with
    | nil => exact fun t _ ht => ht
    | cons e es ih =>
        intro t hes ht
        rw [List.forall_mem_cons] at hes
        exact ih _ hes.2 (hset t e hes.1 ht)
  exact hfold entries [] (fun _ he => he) hnil

/-- A table of entries has no name twice. -/
theorem nodup_ofEntries (entries : List (String × α)) : (names (ofEntries entries)).Nodup :=
  ofEntries_induction (p := fun t => (names t).Nodup) List.nodup_nil
    fun _ e _ ht => nodup_set ht e.1 e.2

/-- All entries of a table come from the entries given. -/
theorem mem_ofEntries {entries : List (String × α)} {e : String × α} (h : e ∈ ofEntries entries) :
    e ∈ entries := by
  refine ofEntries_induction (p := fun t => ∀ e ∈ t, e ∈ entries) (List.forall_mem_nil _)
    (fun t f hf ht e he => ?_) e h
  rcases mem_set he with rfl | he
  · exact hf
  · exact ht e he

end Table

namespace Json

-- Reading gives plain data

theorem readWord?_datum {cs rest : List Char} {v : Value} (h : readWord? cs = some (v, rest)) :
    Datum v := by
  rcases List.exists_of_findSome?_eq_some h with ⟨⟨word, w⟩, hmem, hword⟩
  rcases Option.map_eq_some_iff.mp hword with ⟨behind, -, heq⟩
  obtain ⟨rfl, -⟩ := Prod.mk.inj heq
  simp only [List.mem_cons, Prod.mk.injEq, List.not_mem_nil, or_false] at hmem
  rcases hmem with ⟨-, rfl⟩ | ⟨-, rfl⟩ | ⟨-, rfl⟩ | ⟨-, rfl⟩ | ⟨-, rfl⟩ | ⟨-, rfl⟩
  · exact .null
  · exact .bool true
  · exact .bool false
  · exact .float _
  · exact .float _
  · exact .float _

theorem readNumber?_datum {cs rest : List Char} {v : Value} (h : readNumber? cs = some (v, rest)) :
    Datum v := by
  rw [readNumber?_eq] at h
  split at h
  · exact absurd h (by simp only [reduceCtorEq, not_false_eq_true])
  · rename_i n _
    cases hn : n.value with
    | error e =>
        rw [hn] at h
        exact absurd h (by simp only [reduceCtorEq, not_false_eq_true])
    | ok w =>
        rw [hn] at h
        obtain ⟨rfl, -⟩ := Prod.mk.inj (Option.some.inj h)
        exact (Markup.NumberText.gained hn).datum

mutual

theorem readValue?_datum : ∀ (fuel : Nat) {cs rest : List Char} {v : Value},
    readValue? fuel cs = some (v, rest) → Datum v
  | 0, _, _, _, h => by
    rw [readValue?] at h
    exact absurd h (by simp only [reduceCtorEq, not_false_eq_true])
  | fuel + 1, cs, rest, v, h => by
    unfold readValue? at h
    split at h
    · rcases Option.map_eq_some_iff.mp h with ⟨⟨s, behind⟩, -, heq⟩
      obtain ⟨rfl, -⟩ := Prod.mk.inj heq
      exact .text s
    · split at h
      · obtain ⟨rfl, -⟩ := Prod.mk.inj (Option.some.inj h)
        exact .list (List.forall_mem_nil _)
      · rcases Option.map_eq_some_iff.mp h with ⟨⟨items, behind⟩, hitems, heq⟩
        obtain ⟨rfl, -⟩ := Prod.mk.inj heq
        exact .list (readItems?_datum fuel hitems)
    · split at h
      · obtain ⟨rfl, -⟩ := Prod.mk.inj (Option.some.inj h)
        exact .record List.nodup_nil (List.forall_mem_nil _)
      · rcases Option.map_eq_some_iff.mp h with ⟨⟨members, behind⟩, hmembers, heq⟩
        obtain ⟨rfl, -⟩ := Prod.mk.inj heq
        exact .record (Table.nodup_ofEntries members) fun e he =>
          readMembers?_datum fuel hmembers e (Table.mem_ofEntries he)
    · rcases Option.or_eq_some_iff.mp h with hword | ⟨-, hnumber⟩
      · exact readWord?_datum hword
      · exact readNumber?_datum hnumber

theorem readItems?_datum : ∀ (fuel : Nat) {cs rest : List Char} {items : List Value},
    readItems? fuel cs = some (items, rest) → ∀ v ∈ items, Datum v
  | 0, _, _, _, h => by
    rw [readItems?] at h
    exact absurd h (by simp only [reduceCtorEq, not_false_eq_true])
  | fuel + 1, cs, rest, items, h => by
    unfold readItems? at h
    split at h
    · exact absurd h (by simp only [reduceCtorEq, not_false_eq_true])
    · rename_i v behind hv
      split at h
      · obtain ⟨rfl, -⟩ := Prod.mk.inj (Option.some.inj h)
        exact List.forall_mem_singleton.mpr (readValue?_datum fuel hv)
      · rcases Option.map_eq_some_iff.mp h with ⟨⟨others, after⟩, hothers, heq⟩
        obtain ⟨rfl, -⟩ := Prod.mk.inj heq
        exact List.forall_mem_cons.mpr ⟨readValue?_datum fuel hv, readItems?_datum fuel hothers⟩
      · exact absurd h (by simp only [reduceCtorEq, not_false_eq_true])

theorem readMembers?_datum : ∀ (fuel : Nat) {cs rest : List Char}
    {members : List (String × Value)}, readMembers? fuel cs = some (members, rest) →
    ∀ m ∈ members, Datum m.2
  | 0, cs, _, _, h => by
    rw [readMembers?] at h
    exact absurd h (by simp only [reduceCtorEq, not_false_eq_true])
  | fuel + 1, cs, rest, members, h => by
    unfold readMembers? at h
    split at h
    · exact absurd h (by simp only [reduceCtorEq, not_false_eq_true])
    · rename_i inner _ hfuel
      obtain rfl := Nat.succ.inj hfuel
      split at h
      · exact absurd h (by simp only [reduceCtorEq, not_false_eq_true])
      · split at h
        · split at h
          · exact absurd h (by simp only [reduceCtorEq, not_false_eq_true])
          · rename_i v behind hv
            split at h
            · obtain ⟨rfl, -⟩ := Prod.mk.inj (Option.some.inj h)
              exact List.forall_mem_singleton.mpr (readValue?_datum fuel hv)
            · rcases Option.map_eq_some_iff.mp h with ⟨⟨others, after⟩, hothers, heq⟩
              obtain ⟨rfl, -⟩ := Prod.mk.inj heq
              exact List.forall_mem_cons.mpr
                ⟨readValue?_datum fuel hv, readMembers?_datum fuel hothers⟩
            · exact absurd h (by simp only [reduceCtorEq, not_false_eq_true])
        · exact absurd h (by simp only [reduceCtorEq, not_false_eq_true])
    · exact absurd h (by simp only [reduceCtorEq, not_false_eq_true])

end

/-- A JSON text stands for plain data, if it stands for anything. -/
theorem read?_datum {text : String} {v : Value} (h : read? text = some v) : Datum v := by
  unfold read? at h
  simp only at h
  split at h
  · rename_i w rest hread
    split at h
    · obtain rfl := Option.some.inj h
      exact readValue?_datum _ hread
    · exact absurd h (by simp only [reduceCtorEq, not_false_eq_true])
  · exact absurd h (by simp only [reduceCtorEq, not_false_eq_true])

/-- Plain data can be written, as far as that depends on the size of integers. -/
theorem Datum.writable {v : Value} (h : Datum v) : v.writable = true := by
  induction h with
  | int h => exact h
  | list _ ih =>
      rw [Value.writable]
      exact Markup.writableAll_of_forall ih
  | record _ _ ih =>
      rw [Value.writable]
      exact Markup.writableEntries_of_forall ih
  | _ => rfl

end Json

namespace Value

/-- What reading makes of plain data: as a value, and as the fields of a value. -/
structure Decoded (v : Value) : Prop where
  value : ∀ {w}, v.ofData = .ok w → Portable w
  fields : ∀ {fields}, v.fieldsIn = .ok fields → PortableFields fields

/-- Fields are read one by one, under their names. -/
theorem fieldsOfData_spec {entries : List (String × Value)} {fields : Fields}
    (h : fieldsOfData entries = .ok fields) :
    Table.names fields = Table.names entries ∧
      ∀ f ∈ fields, ∃ e ∈ entries, e.2.ofData = .ok f.2 := by
  induction entries generalizing fields with
  | nil =>
      rw [fieldsOfData] at h
      rw [← Except.ok.inj h]
      exact ⟨rfl, List.forall_mem_nil _⟩
  | cons e entries ih =>
      obtain ⟨k, v⟩ := e
      rw [fieldsOfData] at h
      rcases ok_of_bind h with ⟨first, hfirst, h⟩
      rcases ok_of_bind h with ⟨others, hothers, h⟩
      rcases ih hothers with ⟨hnames, hvalues⟩
      rw [← Except.ok.inj h]
      refine ⟨congrArg (k :: ·) hnames, List.forall_mem_cons.mpr ⟨?_, fun f hf => ?_⟩⟩
      · exact ⟨(k, v), List.mem_cons_self, hfirst⟩
      · rcases hvalues f hf with ⟨e, he, hvalue⟩
        exact ⟨e, List.mem_cons_of_mem _ he, hvalue⟩

/-- Which value a record stands for is decided by the first tag that it has. -/
theorem ofData_record_cases {entries : List (String × Value)} {v : Value}
    (h : ofData (.record entries) = .ok v) :
    (∃ s, v = .raw s) ∨
      (∃ e ∈ entries, ∃ fields, e.2.fieldsIn = .ok fields ∧ v = .group fields) ∨
      (∃ e ∈ entries, ∃ block, v = .handler e.2 (.bool block)) ∨
      (∃ e ∈ entries, ∃ properties, v = .object e.2 properties ∧
        (properties = [] ∨ ∃ f ∈ entries, f.2.fieldsIn = .ok properties)) ∨
      (v = .record entries ∧ ∀ tag ∈ tags, tag ∉ Table.names entries) := by
  rw [ofData, fieldsUnder_eq, fieldsUnder_eq] at h
  cases hraw : Table.get? entries "$raw" with
  | some source =>
      rw [hraw] at h
      exact .inl ⟨_, (Except.ok.inj h).symm⟩
  | none =>
  cases hgroup : Table.get? entries "$group" with
  | some data =>
      rw [hraw, hgroup] at h
      rcases ok_of_map h with ⟨fields, hfields, rfl⟩
      exact .inr (.inl ⟨_, Table.mem_of_get? hgroup, fields, hfields, rfl⟩)
  | none =>
  cases hhandler : Table.get? entries "$handler" with
  | some code =>
      rw [hraw, hgroup, hhandler] at h
      exact .inr (.inr (.inl ⟨_, Table.mem_of_get? hhandler, _, (Except.ok.inj h).symm⟩))
  | none =>
  cases hobject : Table.get? entries "$object" with
  | some type =>
      rw [hraw, hgroup, hhandler, hobject] at h
      rcases ok_of_map h with ⟨properties, hproperties, rfl⟩
      refine .inr (.inr (.inr (.inl ⟨_, Table.mem_of_get? hobject, properties, rfl, ?_⟩)))
      cases hdata : Table.get? entries "properties" with
      | none =>
          rw [hdata] at hproperties
          exact .inl (Except.ok.inj hproperties).symm
      | some data =>
          rw [hdata] at hproperties
          exact .inr ⟨_, Table.mem_of_get? hdata, hproperties⟩
  | none =>
      rw [hraw, hgroup, hhandler, hobject] at h
      refine .inr (.inr (.inr (.inr ⟨(Except.ok.inj h).symm, ?_⟩)))
      simp only [tags, List.forall_mem_cons]
      exact ⟨Table.not_mem_of_get?_eq_none hraw, Table.not_mem_of_get?_eq_none hgroup,
        Table.not_mem_of_get?_eq_none hhandler, Table.not_mem_of_get?_eq_none hobject,
        List.forall_mem_nil _⟩

/-- From plain data come values that plain data bring back. -/
theorem decoded {v : Value} (h : Datum v) : Decoded v := by
  -- A value that is no record stands for itself and has no fields.
  have hself : ∀ {v : Value}, Datum v → (∀ entries, v ≠ .record entries) → Decoded v := by
    intro v hv hrecord
    have htags : ∀ entries, v = .record entries → ∀ tag ∈ tags, tag ∉ Table.names entries :=
      fun entries heq => absurd heq (hrecord entries)
    refine ⟨fun {w} hw => ?_, fun {fields} hfields => ?_⟩
    · rw [ofData.eq_def] at hw
      cases v with
      | record entries => exact absurd rfl (hrecord entries)
      | _ => exact Except.ok.inj hw ▸ .data hv htags
    · rw [fieldsIn.eq_def] at hfields
      cases v with
      | record entries => exact absurd rfl (hrecord entries)
      | _ => exact absurd hfields (by simp only [reduceCtorEq, not_false_eq_true])
  induction h with
  | record hnodup hdata ih =>
      refine ⟨fun {w} hw => ?_, fun {fields} hfields => ?_⟩
      · rcases ofData_record_cases hw with ⟨s, rfl⟩ | ⟨e, he, fields, hfields, rfl⟩ |
          ⟨e, he, block, rfl⟩ | ⟨e, he, properties, rfl, hproperties⟩ | ⟨rfl, htags⟩
        · exact .raw s
        · have hportable := (ih e he).fields hfields
          exact .group hportable.nodup hportable.values
        · exact .handler (hdata e he) block
        · rcases hproperties with rfl | ⟨f, hf, hfields⟩
          · exact .object (hdata e he) List.nodup_nil (List.forall_mem_nil _)
          · have hportable := (ih f hf).fields hfields
            exact .object (hdata e he) hportable.nodup hportable.values
        · exact .data (.record hnodup hdata) fun _ heq => Value.record.inj heq ▸ htags
      · rw [fieldsIn] at hfields
        rcases fieldsOfData_spec hfields with ⟨hnames, hvalues⟩
        refine ⟨hnames ▸ hnodup, fun f hf => ?_⟩
        rcases hvalues f hf with ⟨e, he, hvalue⟩
        exact (ih e he).value hvalue
  | null => exact hself .null fun _ => Value.noConfusion
  | bool b => exact hself (.bool b) fun _ => Value.noConfusion
  | int h => exact hself (.int h) fun _ => Value.noConfusion
  | float x => exact hself (.float x) fun _ => Value.noConfusion
  | text s => exact hself (.text s) fun _ => Value.noConfusion
  | list h _ => exact hself (.list h) fun _ => Value.noConfusion

theorem datum_nil : Datum (.record []) :=
  .record List.nodup_nil (List.forall_mem_nil _)

/-- A member of a record is data, and so is what is usual for it. -/
theorem datum_member {entries : Fields} (h : ∀ e ∈ entries, Datum e.2) {usual : Value}
    (husual : Datum usual) (name : String) : Datum ((Table.get? entries name).getD usual) := by
  cases hget : Table.get? entries name with
  | none => exact husual
  | some v => exact h _ (Table.mem_of_get? hget)

end Value

open Value (PortableFields)

namespace Node

/-- What reading makes of plain data: as a node, and as nodes side by side. -/
structure Decoded (v : Value) : Prop where
  node : ∀ {n}, ofData v = .ok n → ∀ m ∈ n.depthFirst, PortableNode m
  forest : ∀ {ns}, forestIn v = .ok ns → ∀ m ∈ Forest.walk ns, PortableNode m

/-- The node that members describe is portable, whatever they are. -/
theorem ofEntries_portable {entries : Fields} (hdata : ∀ e ∈ entries, Datum e.2)
    {children : Except Fault Forest} {n : Node} (h : ofEntries entries children = .ok n) :
    PortableNode n ∧ children = .ok n.children := by
  unfold ofEntries at h
  rcases ok_of_bind h with ⟨properties, hproperties, h⟩
  rcases ok_of_bind h with ⟨inside, hinside, h⟩
  have hsize := Markup.gainedNumber_defaultSize
    ((Table.get? entries "type").getD (.text "Item")).plain
  have hzero : Datum (.int 0) := (Markup.gainedNumber_of_lt (by decide)).datum
  have hfields := (Value.decoded (Value.datum_member hdata Value.datum_nil
    "properties")).fields hproperties
  rw [← Except.ok.inj h, hinside]
  refine ⟨⟨⟨_, rfl⟩, ⟨_, rfl, ?_⟩, Value.datum_member hdata hzero _,
    Value.datum_member hdata hzero _, Value.datum_member hdata hsize.1.datum _,
    Value.datum_member hdata hsize.2.datum _, hfields⟩, rfl⟩
  -- An id that is there is made safe.
  split
  · exact .inr (isSafeId_safeId _)
  · exact .inl rfl

theorem forestOfData_portable {vs : List Value} {ns : Forest} (h : forestOfData vs = .ok ns)
    (hvs : ∀ v ∈ vs, Decoded v) : ∀ m ∈ Forest.walk ns, PortableNode m := by
  induction vs generalizing ns with
  | nil =>
      rw [forestOfData] at h
      rw [← Except.ok.inj h]
      exact List.forall_mem_nil _
  | cons v vs ih =>
      rw [forestOfData] at h
      rcases ok_of_bind h with ⟨first, hfirst, h⟩
      rcases ok_of_bind h with ⟨others, hothers, h⟩
      rw [List.forall_mem_cons] at hvs
      rw [← Except.ok.inj h]
      exact Forest.forall_walk_cons.mpr ⟨hvs.1.node hfirst, ih hothers hvs.2⟩

/-- From plain data come nodes that plain data bring back. -/
theorem decoded {v : Value} (h : Datum v) : Decoded v := by
  -- Without parts there is no node, and nodes side by side only if there are none.
  have hnone : ∀ {v : Value}, ofData v = .error .lacking →
      (∀ ns, forestIn v = .ok ns → ns = []) → Decoded v := by
    intro v hnode hforest
    refine ⟨fun {n} hn => ?_, fun {ns} hns => ?_⟩
    · rw [hnode] at hn
      exact absurd hn (by simp only [reduceCtorEq, not_false_eq_true])
    · rw [hforest ns hns]
      exact List.forall_mem_nil _
  induction h with
  | record hnodup hdata ih =>
      refine ⟨fun {n} hn => ?_, fun {ns} hns => ?_⟩
      · rw [ofData, forestUnder_eq] at hn
        rcases ofEntries_portable hdata hn with ⟨hportable, hchildren⟩
        refine Node.forall_depthFirst.mpr ⟨hportable, ?_⟩
        cases hget : Table.get? _ "children" with
        | none =>
            rw [hget] at hchildren
            rw [← Except.ok.inj hchildren]
            exact List.forall_mem_nil _
        | some data =>
            rw [hget] at hchildren
            exact (ih _ (Table.mem_of_get? hget)).forest hchildren
      · rw [forestIn] at hns
        split at hns
        · rw [← Except.ok.inj hns]
          exact List.forall_mem_nil _
        · exact absurd hns (by simp only [reduceCtorEq, not_false_eq_true])
  | list h ih =>
      refine ⟨fun {n} hn => ?_, fun {ns} hns => ?_⟩
      · rw [ofData] at hn
        · exact absurd hn (by simp only [reduceCtorEq, not_false_eq_true])
        · exact fun _ => Value.noConfusion
      · rw [forestIn] at hns
        exact forestOfData_portable hns ih
  | text s =>
      refine hnone (by rw [ofData]; exact fun _ => Value.noConfusion) fun ns hns => ?_
      rw [forestIn] at hns
      split at hns
      · exact (Except.ok.inj hns).symm
      · exact absurd hns (by simp only [reduceCtorEq, not_false_eq_true])
  | _ =>
      refine hnone (by rw [ofData]; exact fun _ => Value.noConfusion) fun ns hns => ?_
      rw [forestIn] at hns
      · exact absurd hns (by simp only [reduceCtorEq, not_false_eq_true])
      all_goals exact fun _ => Value.noConfusion

end Node

/-- A window of plain data. Only its size may have come from the settings instead. -/
structure DataWindow (s : Settings) (w : Window) : Prop where
  width : w.width = .int s.width ∨ Datum w.width
  height : w.height = .int s.height ∨ Datum w.height
  title : Datum w.title
  visible : ∃ b, w.visible = .bool b
  fields : PortableFields w.properties

namespace DataWindow

variable {s : Settings} {w : Window}

/-- A size can be written if the settings can. -/
theorem sizes (h : DataWindow s w) (hwidth : (Value.int s.width).writable = true)
    (hheight : (Value.int s.height).writable = true) :
    w.width.writable = true ∧ w.height.writable = true :=
  ⟨Markup.writable_of_size hwidth (h.width.imp_right Datum.writable),
    Markup.writable_of_size hheight (h.height.imp_right Datum.writable)⟩

/-- On the way the window is data if its size can be written. -/
theorem datum (h : DataWindow s w) (hwidth : w.width.writable = true)
    (hheight : w.height.writable = true) : Datum w.toData :=
  Window.datum_of_attributes (.of_size hwidth h.width) (.of_size hheight h.height) h.title
    h.visible h.fields

end DataWindow

/-- A window that comes back under some settings: nothing in it is replaced any more. -/
structure KeptWindow (s : Settings) (w : Window) : Prop extends DataWindow s w where
  made : Window.make s w.width w.height w.title w.visible w.properties = .ok w

namespace Window

/-- Making a window leaves the size and title it is given, or puts the settings in
    their place. -/
theorem make_spec {s : Settings} {width height title visible : Value} {properties : Fields}
    {w : Window} (h : make s width height title visible properties = .ok w) :
    (w.width = width ∨ w.width = .int s.width) ∧ (w.height = height ∨ w.height = .int s.height) ∧
      (w.title = title ∨ w.title = .text s.title) ∧ w.visible = visible ∧
      w.properties = properties := by
  unfold make at h
  rcases ok_of_bind h with ⟨noWidth, -, h⟩
  rcases ok_of_bind h with ⟨noHeight, -, h⟩
  rw [← Except.ok.inj h]
  refine ⟨?_, ?_, ?_, rfl, rfl⟩
  · cases noWidth
    · exact .inl rfl
    · exact .inr rfl
  · cases noHeight
    · exact .inl rfl
    · exact .inr rfl
  · cases title
    · exact .inr rfl
    all_goals exact .inl rfl

/-- A size that was chosen is chosen again: one from the settings for another from there. -/
theorem chosen_size {given : Value} (usual : Int) {negative : Bool}
    (h : given.isNegative = .ok negative) :
    ∃ again, (if negative = true then Value.int usual else given).isNegative = .ok again ∧
      (if again = true then Value.int usual else if negative = true then .int usual else given)
        = if negative = true then .int usual else given := by
  cases negative with
  | false => exact ⟨false, h, rfl⟩
  | true => exact ⟨decide (usual < 0), rfl, ite_self _⟩

/-- A window that was made is made as it is. -/
theorem make_made {s : Settings} {width height title visible : Value} {properties : Fields}
    {w : Window} (h : make s width height title visible properties = .ok w) :
    make s w.width w.height w.title w.visible w.properties = .ok w := by
  unfold make at h
  rcases ok_of_bind h with ⟨noWidth, hwidth, h⟩
  rcases ok_of_bind h with ⟨noHeight, hheight, h⟩
  rcases chosen_size s.width hwidth with ⟨noWidth', hwidth', hkeptWidth⟩
  rcases chosen_size s.height hheight with ⟨noHeight', hheight', hkeptHeight⟩
  rw [← Except.ok.inj h]
  simp only [make, hwidth', hheight', bind, Except.bind, hkeptWidth, hkeptHeight, pure, Except.pure]
  cases title
  all_goals rfl

/-- A window of data comes back under the settings it was made with. -/
theorem make_kept {width height title : Value} {b : Bool} {properties : Fields} {w : Window}
    (h : make s width height title (.bool b) properties = .ok w) (hw : Datum width)
    (hh : Datum height) (ht : Datum title) (hfields : PortableFields properties) :
    KeptWindow s w := by
  rcases make_spec h with ⟨hwidths, hheights, htitles, hvisible, hproperties⟩
  refine ⟨⟨?_, ?_, ?_, ⟨b, hvisible⟩, hproperties ▸ hfields⟩, make_made h⟩
  · rcases hwidths with heq | heq
    · exact .inr (heq ▸ hw)
    · exact .inl heq
  · rcases hheights with heq | heq
    · exact .inr (heq ▸ hh)
    · exact .inl heq
  · rcases htitles with heq | heq
    · exact heq ▸ ht
    · exact heq ▸ .text s.title

/-- A window that data describe comes back. -/
theorem ofData_kept {s : Settings} {data : Value} {w : Window} (hdata : Datum data)
    (h : ofData s data = .ok w) : KeptWindow s w := by
  unfold ofData at h
  rcases ok_of_bind h with ⟨⟨entries, properties⟩, hparts, h⟩
  unfold parts at hparts
  rcases ok_of_bind hparts with ⟨found, hentries, hparts⟩
  rcases ok_of_bind hparts with ⟨fields, hfields, hparts⟩
  obtain ⟨rfl, rfl⟩ := Prod.mk.inj (Except.ok.inj hparts)
  cases hdata with
  | record hnodup hmembers =>
      obtain rfl := Except.ok.inj hentries
      have hminus : Datum (.int (-1)) := (Markup.gainedNumber_of_lt (by decide)).datum
      exact make_kept h (Value.datum_member hmembers hminus _)
        (Value.datum_member hmembers hminus _) (Value.datum_member hmembers .null _)
        ((Value.decoded (Value.datum_member hmembers Value.datum_nil _)).fields hfields)
  | _ => exact absurd hentries (by simp only [Value.entries, reduceCtorEq, not_false_eq_true])

/-- The window that the settings describe comes back. -/
theorem usual_kept (s : Settings) : KeptWindow s (usual s) := by
  have hmake : make s (.int s.width) (.int s.height) (.text s.title) (.bool true) []
      = .ok (usual s) := by
    simp only [make, Value.isNegative, bind, Except.bind, pure, Except.pure, ite_self]
    rfl
  exact ⟨⟨.inl rfl, .inl rfl, .text s.title, ⟨true, rfl⟩, List.nodup_nil,
    List.forall_mem_nil _⟩, hmake⟩

end Window

/-- What data describe is a window that comes back, and nodes that do. -/
theorem Document.ofData_kept {s : Settings} {data : Value} {d : Document} (hdata : Datum data)
    (h : ofData s data = .ok d) :
    KeptWindow s d.window ∧ ∀ n ∈ Forest.walk d.nodes, PortableNode n := by
  cases hdata with
  | list hitems =>
      rcases ok_of_bind h with ⟨nodes, hnodes, h⟩
      rw [← Except.ok.inj h]
      exact ⟨Window.usual_kept s,
        Node.forestOfData_portable hnodes fun v hv => Node.decoded (hitems v hv)⟩
  | @record entries hnodup hmembers =>
      rcases ok_of_bind h with ⟨window, hwindow, h⟩
      rcases ok_of_bind h with ⟨nodes, hnodes, h⟩
      rw [← Except.ok.inj h]
      have hdatum : Datum (windowData entries) := by
        unfold windowData
        simp only
        split
        · exact Value.datum_member hmembers .null _
        · exact Value.datum_nil
      refine ⟨Window.ofData_kept hdatum hwindow, ?_⟩
      rw [Node.forestUnder_eq] at hnodes
      cases hget : Table.get? entries "nodes" with
      | none =>
          rw [hget] at hnodes
          rw [← Except.ok.inj hnodes]
          exact List.forall_mem_nil _
      | some forest =>
          rw [hget] at hnodes
          exact (Node.decoded (hmembers _ (Table.mem_of_get? hget))).forest hnodes
  | _ => exact absurd h (by simp only [ofData, reduceCtorEq, not_false_eq_true])

/-- Whatever a text is, what is read of it is a window that comes back, and nodes that do. -/
theorem Json.readDocument_kept (s : Settings) (content : String) :
    KeptWindow s (readDocument s content).1.window ∧
      ∀ n ∈ Forest.walk (readDocument s content).1.nodes, PortableNode n := by
  unfold readDocument readDocument?
  cases hread : read? content with
  | none => exact ⟨Window.usual_kept s, List.forall_mem_nil _⟩
  | some data =>
      cases hdata : Document.ofData s data with
      | error e =>
          simp only [Option.bind_some, hdata, Except.toOption]
          exact ⟨Window.usual_kept s, List.forall_mem_nil _⟩
      | ok d =>
          simp only [Option.bind_some, hdata, Except.toOption]
          exact Document.ofData_kept (read?_datum hread) hdata

namespace Format

/-- Reading and writing once reaches the canonical text. Whatever a text is, JSON or
    not, a document is read of it and written; reading what is written gives that
    document without a notice, and writing it again the same text.

    That the sizes in the settings can be written is needed where the text names none. -/
theorem json_canonical (s : Settings) (content : String)
    (hsettings : (Value.int s.width).writable = true ∧ (Value.int s.height).writable = true) :
    ∃ text, json.write (json.read s content).1 = .ok text ∧
      json.read s text = ((json.read s content).1, []) ∧
      json.write (json.read s text).1 = .ok text := by
  rcases Json.readDocument_kept s content with ⟨hwindow, hnodes⟩
  have hsizes := hwindow.sizes hsettings.1 hsettings.2
  have hdatum := Document.datum_toData (hwindow.datum hsizes.1 hsizes.2) hnodes
  -- What was decoded is decoded again from its own data.
  have hback : Document.ofData s (Json.readDocument s content).1.toData
      = .ok (Json.readDocument s content).1 := by
    refine Document.ofData_toData ?_ hnodes
    rw [Window.ofData_toData_eq hwindow.visible hwindow.fields, hwindow.made]
  rcases Document.readDocument_toData hdatum with ⟨text, hwrite, hread⟩
  have hsame : json.read s text = ((json.read s content).1, []) := hread s hback
  refine ⟨text, hwrite, hsame, ?_⟩
  rw [hsame]
  exact hwrite

/-- Data of unlikely kinds: a size below zero, a title that is a number, an id that is
    a number, a coordinate that is nothing, a tag with a list, a record without a tag. -/
def sampleData : String :=
  "\x7b\"window\": \x7b\"width\": -5, \"height\": 1.5, \"title\": 7\x7d,
\"nodes\": [\x7b\"type\": 3, \"id\": 12, \"x\": null,
\"properties\": \x7b\"a\": \x7b\"$raw\": [1, null]\x7d, \"b\": \x7b\"c\": []\x7d\x7d\x7d]\x7d"

theorem sampleData_canonical :
    (Value.int ({} : Settings).width).writable = true ∧
    (Value.int ({} : Settings).height).writable = true ∧
    (json.read {} sampleData).2 = [] ∧
    ∃ text, json.write (json.read {} sampleData).1 = .ok text ∧
      json.read {} text = ((json.read {} sampleData).1, []) ∧
      json.write (json.read {} text).1 = .ok text := by
  have hsettings : (Value.int ({} : Settings).width).writable = true ∧
      (Value.int ({} : Settings).height).writable = true := by decide +kernel
  exact ⟨hsettings.1, hsettings.2, by decide +kernel, json_canonical {} sampleData hsettings⟩

end Format

end WidgetSync
