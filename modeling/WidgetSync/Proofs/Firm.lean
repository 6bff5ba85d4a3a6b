import WidgetSync.Proofs.Gathering

/-!
# What Can Be Written and Found Again

The condition under which what was read of a text is legible.

Not every text has a canonical form that says the same. Source text that is taken
over may have a bracket or a comment open that the end of the text closed, and
written in the middle of a document it would run on. A handler without code, or
with the lines of a bracket in it, has no line of its own. And where two things in
a document share a name, a widget and a group, or a coordinate and its binding, one
of them is lost when it is written.

`Firm` asks for each value by itself that this is not so. It is a condition on the
document, and it is all that is needed: everything else about the document follows
from its having been read, by `readDocument_gained`.

## Main definitions

* `Firm`: A value that is found again.
* `FirmNode`, `FirmWindow`: Widgets and windows in which nothing shares a name.
* `FirmDocument`: A document of such things.
* `ClosedDocument`: A document of values that are found again, with names shared or not.

## Theorems

* `Gained.legible`: What was read and is firm is legible.
* `GainedDocument.legible`: So is a document.
-/

namespace WidgetSync

namespace Markup

/-- A plain value that is found again. Source text has to end where it ends, and a
    double to be the value of its own literal. -/
def FirmScalar : Value → Prop
  | .raw s => SelfDelimiting s.toList
  | .float x => LegibleNumber (.float x)
  | _ => True

/-- A value that is found again under a name. -/
inductive Firm : String → Value → Prop where
  /-- A plain value. -/
  | plain {key : String} {v : Value} (hkey : ' ' ∉ key.toList) (hplain : isPlain v = true)
      (h : FirmScalar v) : Firm key v
  /-- A block, or an object with a widget in it. -/
  | verbatim {key text : String} (hkey : ' ' ∉ key.toList) (h : Verbatim key text) :
      Firm key (.raw text)
  /-- The value of a declared property, whose name has spaces. -/
  | declaration {key text : String} (hkey : ' ' ∈ key.toList) (h : Delimited text.toList) :
      Firm key (.raw text)
  /-- Code in lines of its own. -/
  | code {key code : String} (h : Balanced code.toList) :
      Firm key (.handler (.text code) (.bool true))
  /-- Code on one line. -/
  | line {key code : String} (hline : '\n' ∉ code.toList)
      (hseveral : ';' ∈ code.toList → Enclosed (' ' :: (code.toList ++ [' '])))
      (hsingle : ';' ∉ code.toList → SelfDelimiting code.toList) :
      Firm key (.handler (.text code) (.bool false))
  /-- A group in a block. -/
  | block {key : String} {fields : Fields} (hcapital : isCapitalized key.toList = false)
      (hfields : ∀ f ∈ fields, Firm f.1 f.2) : Firm key (.group fields)
  /-- A group whose fields are written with points; there has to be one. -/
  | points {key : String} {fields : Fields} (hcapital : isCapitalized key.toList = true)
      (hne : fields ≠ []) (hfields : ∀ f ∈ fields, FirmScalar f.2) : Firm key (.group fields)
  /-- An object. -/
  | object {key : String} {type : Value} {properties : Fields}
      (hproperties : ∀ f ∈ properties, Firm f.1 f.2) : Firm key (.object type properties)

/-- A coordinate or size is a number, or it is bound and has the usual value. -/
def FirmPlace (properties : Fields) (key : String) (usual number : Value) : Prop :=
  match properties.get? key with
  | none => FirmScalar number
  | some v => v.isRaw = true ∧ number = usual

/-- A widget in which nothing shares a name. -/
structure FirmNode (n : Node) : Prop where
  /-- It does not read as a group. -/
  type : isCapitalized n.type.plain.toList = true
  /-- Nothing besides the id is under the name of the id. -/
  id : n.properties.get? "id" = none
  x : FirmPlace n.properties "x" (Node.ofType n.type.plain).x n.x
  y : FirmPlace n.properties "y" (Node.ofType n.type.plain).y n.y
  width : FirmPlace n.properties "width" (Node.ofType n.type.plain).width n.width
  height : FirmPlace n.properties "height" (Node.ofType n.type.plain).height n.height
  /-- Its values are found again. -/
  properties : ∀ f ∈ n.properties, Firm f.1 f.2

/-- A window in which nothing shares a name. -/
structure FirmWindow (s : Settings) (w : Window) : Prop where
  /-- Nothing is under the name of the id. -/
  id : w.properties.get? "id" = none
  /-- Its width and height can be written. -/
  width : w.width.writable = true ∧ FirmScalar w.width
  height : w.height.writable = true ∧ FirmScalar w.height
  /-- An attribute that a property stands in place of is as the settings have it. -/
  places : (settledWindow s w).width = w.width ∧ (settledWindow s w).height = w.height ∧
    (settledWindow s w).title = w.title ∧ (settledWindow s w).visible = w.visible
  /-- Its values are found again. -/
  properties : ∀ f ∈ w.properties, Firm f.1 f.2

/-- A document that can be written and found again. -/
structure FirmDocument (s : Settings) (d : Document) : Prop where
  window : FirmWindow s d.window
  nodes : ∀ n ∈ Forest.walk d.nodes, FirmNode n

/-- A coordinate or size is bound to source text, or a number that is found again. -/
def ClosedPlace (properties : Fields) (key : String) (number : Value) : Prop :=
  bound? properties key = none → FirmScalar number

/-- A widget in which everything ends where it should. -/
structure ClosedNode (n : Node) : Prop where
  /-- It does not read as a group. -/
  type : isCapitalized n.type.plain.toList = true
  x : ClosedPlace n.properties "x" n.x
  y : ClosedPlace n.properties "y" n.y
  width : ClosedPlace n.properties "width" n.width
  height : ClosedPlace n.properties "height" n.height
  /-- Its values are found again. -/
  properties : ∀ f ∈ n.properties, Firm f.1 f.2

/-- A window in which everything ends where it should. -/
structure ClosedWindow (w : Window) : Prop where
  /-- Its width and height can be written, and are found again where they are. -/
  width : w.width.writable = true ∧ (w.properties.get? "width" = none → FirmScalar w.width)
  height : w.height.writable = true ∧ (w.properties.get? "height" = none → FirmScalar w.height)
  /-- Its values are found again. -/
  properties : ∀ f ∈ w.properties, Firm f.1 f.2

/-- A document in which everything ends where it should. Things in it may share a name, and
    then one of them is lost, but the others are found. -/
structure ClosedDocument (d : Document) : Prop where
  window : ClosedWindow d.window
  nodes : ∀ n ∈ Forest.walk d.nodes, ClosedNode n

theorem FirmPlace.closed {properties : Fields} {key : String} {usual number : Value}
    (h : FirmPlace properties key usual number) : ClosedPlace properties key number := by
  unfold FirmPlace at h
  intro hbound
  unfold bound? at hbound
  split at h
  · exact h
  · rename_i v hget
    rw [hget] at hbound
    cases v with
    | raw s => exact absurd hbound (by simp only [reduceCtorEq, not_false_eq_true])
    | _ => exact absurd h.1 (by simp only [Value.isRaw, Bool.false_eq_true, not_false_eq_true])

/-- Where nothing shares a name everything ends where it should. -/
theorem FirmDocument.closed {s : Settings} {d : Document} (h : FirmDocument s d) :
    ClosedDocument d := by
  refine ⟨⟨⟨h.window.width.1, fun _ => h.window.width.2⟩,
    ⟨h.window.height.1, fun _ => h.window.height.2⟩, h.window.properties⟩, fun n hn => ?_⟩
  have hnode := h.nodes n hn
  exact ⟨hnode.type, hnode.x.closed, hnode.y.closed, hnode.width.closed, hnode.height.closed,
    hnode.properties⟩

theorem withoutFinalLineFeed_of_trim {cs ds : List Char} (h : Text.trim (cs ++ ds) = cs ++ ds) :
    Catalog.withoutFinalLineFeed ds = ds := by
  unfold Catalog.withoutFinalLineFeed
  split
  · rename_i front hrev
    have hds : ds = front.reverse ++ ['\n'] := by
      rw [← List.reverse_inj, hrev, List.reverse_append]
      simp only [List.reverse_cons, List.reverse_nil, List.nil_append, List.reverse_reverse,
        List.singleton_append]
    have hlast : (cs ++ ds).getLast? = some '\n' := by
      rw [hds, ← List.append_assoc, List.getLast?_concat]
    have hend : Text.trimEnd (cs ++ ds) = cs ++ ds := by
      rw [← h, Text.trim, Text.trimEnd_trimEnd]
    have hblank := Text.trimEnd_eq_self_iff.mp hend '\n' hlast
    exact absurd hblank (by decide)
  · rfl

/-- What a trimmed literal stands for is admitted and can be written, unless it is a fraction. -/
theorem LiteralOf.admits {raw : String} {spelling : Catalog.Spelling} {v : Value}
    (h : LiteralOf raw spelling v) (htrimmed : Text.trim raw.toList = raw.toList) :
    (spelling.admits v = true ∧ v.writable = true) ∨
      spelling.kind = .number ∧ ∃ x, v = .float x := by
  cases h with
  | bool => exact .inl ⟨rfl, rfl⟩
  | number hnumber =>
      cases gainedNumber_of_numberLiteral? hnumber with
      | int hwritable => exact .inl ⟨rfl, hwritable⟩
      | float x => exact .inr ⟨rfl, x, rfl⟩
  | @name scope t hname =>
      refine .inl ⟨?_, rfl⟩
      unfold scopedName? at hname
      split at hname
      · exact absurd hname (by simp only [reduceCtorEq, not_false_eq_true])
      · rename_i scope
        simp only at hname
        split at hname
        · exact absurd hname (by simp only [reduceCtorEq, not_false_eq_true])
        · split at hname
          · rename_i hsimple
            -- Trimmed text has no line feed at its end that the name would be without.
            have hparts := List.take_append_drop (scope.toList ++ ['.']).length raw.toList
            rw [withoutFinalLineFeed_of_trim (by rw [hparts, htrimmed])] at hsimple
            rw [← Option.some.inj hname]
            simp only [Catalog.Spelling.admits, String.toList_ofList, hsimple]
          · exact absurd hname (by simp only [reduceCtorEq, not_false_eq_true])
  | text hkind =>
      rcases hkind with rfl | rfl | rfl
      all_goals exact .inl ⟨rfl, rfl⟩

/-- A plain value that was read and is firm has a literal that stands for it. -/
theorem Given.spelled {group : Option String} {key : String} {v : Value} (h : Given group key v)
    (hfirm : FirmScalar v) : Spelled group key v := by
  rcases h with ⟨raw, htrimmed, hvalue⟩
  rcases valueOf_cases hvalue with rfl | ⟨spelling, hspelling, hliteral⟩
  · exact ⟨raw, rfl, hfirm, hvalue⟩
  · unfold Spelled
    rw [hspelling]
    rcases hliteral.admits htrimmed with ⟨hadmits, hwritable⟩ | ⟨hkind, x, rfl⟩
    · exact scalar_spec (Catalog.spelling?_scopeFits hspelling) hadmits hwritable
    · rcases hfirm with ⟨t, ht, hself, hnumber⟩
      obtain ⟨kind, scope⟩ := spelling
      subst hkind
      exact ⟨t, ht, hself, (LiteralOf.number hnumber).valueOf⟩

theorem not_mem_of_isName {cs : List Char} (h : isName cs = true) : ' ' ∉ cs := by
  intro hmem
  exact absurd (not_isBlank_of_isName h hmem) (by decide)

/-- Code that was read and is firm is legible. -/
theorem GainedCode.legible {code : String} {block : Bool} (h : GainedCode code block)
    (hblock : block = true → Balanced code.toList)
    (hline : block = false → '\n' ∉ code.toList ∧
      (';' ∈ code.toList → Enclosed (' ' :: (code.toList ++ [' ']))) ∧
      (';' ∉ code.toList → SelfDelimiting code.toList)) : LegibleCode code block := by
  have hsingle : block = false → (';' ∈ code.toList → Text.Normal [code.toList]) →
      LegibleCode code block := by
    rintro rfl hnormal
    rcases hline rfl with ⟨hfree, hseveral, hplain⟩
    by_cases hsemicolon : ';' ∈ code.toList
    · exact .braces (hnormal hsemicolon) hsemicolon (hseveral hsemicolon)
    · exact .plain hfree hsemicolon (hplain hsemicolon)
  cases h with
  | plain htrimmed hne =>
      exact hsingle rfl fun _ => normal_of_trim htrimmed hne (hline rfl).1
  | braces inner =>
      rcases handlerCode_normal inner with ⟨ls, hls, hnormal⟩
      cases hlines : inner.contains '\n' with
      | true =>
          have hbalanced := hblock hlines
          rw [hls] at hbalanced ⊢
          rw [String.toList_ofList] at hbalanced
          exact .block hnormal hbalanced
      | false =>
          -- Without line ends there is one line, unless there is no code at all.
          rw [hlines] at hsingle hline
          refine hsingle rfl fun hsemicolon => ?_
          have hfree := (hline rfl).1
          rw [hls, String.toList_ofList] at hfree hsemicolon ⊢
          have hne : ls ≠ [] := by
            rintro rfl
            exact absurd hsemicolon List.not_mem_nil
          have hone := Text.lines_unlines hne hnormal.single
          rw [Text.lines_line hfree] at hone
          rwa [hone]

/-- What was read and is firm is legible. -/
theorem Gained.legible {group : Option String} {key : String} {v : Value} (h : Gained group key v)
    (hfirm : Firm key v) : Legible group key v := by
  -- How it was read says in which way it can be firm. The other ways have another kind of
  -- value, or they need spaces in the name, or a capital, where there is none.
  induction h with
  | plain hname hhandler hpoints hv =>
      cases hfirm with
      | plain _ _ hscalar => exact .plain hname hhandler hpoints (hv.spelled hscalar)
      | verbatim _ htext => exact .verbatim hname htext
      | declaration hkey => exact absurd hkey (not_mem_of_isName hname)
      | _ =>
          exact absurd hv.isPlain (by simp only [isPlain, Bool.false_eq_true, not_false_eq_true])
  | verbatim hname hplain =>
      cases hfirm with
      | plain _ _ hself =>
          rw [SelfDelimiting.plain hself] at hplain
          exact absurd hplain (by decide)
      | verbatim _ htext => exact .verbatim hname htext
      | declaration hkey => exact absurd hkey (not_mem_of_isName hname)
  | declaration hdeclared =>
      cases hfirm with
      | plain hkey => exact absurd hdeclared.space hkey
      | verbatim hkey => exact absurd hdeclared.space hkey
      | declaration _ htext => exact .declaration hdeclared htext
  | handler hname hhandler hcode =>
      cases hfirm with
      | plain _ hplain => exact absurd hplain (by simp only [isPlain, Bool.false_eq_true,
          not_false_eq_true])
      | code hbalanced =>
          exact .handler hname hhandler (hcode.legible (fun _ => hbalanced)
            fun hfalse => absurd hfalse (by decide))
      | line hline hseveral hsingle =>
          exact .handler hname hhandler (hcode.legible (fun htrue => absurd htrue (by decide))
            fun _ => ⟨hline, hseveral, hsingle⟩)
  | block hname hcapital hnodup _ ih =>
      cases hfirm with
      | plain _ hplain => exact absurd hplain (by simp only [isPlain, Bool.false_eq_true,
          not_false_eq_true])
      | block _ hfields =>
          exact .block hname hcapital hnodup fun f hf => ih f hf (hfields f hf)
      | points hupper =>
          rw [hcapital] at hupper
          exact absurd hupper (by decide)
  | points hname hcapital hpoint hall =>
      cases hfirm with
      | plain _ hplain => exact absurd hplain (by simp only [isPlain, Bool.false_eq_true,
          not_false_eq_true])
      | block hlower =>
          rw [hcapital] at hlower
          exact absurd hlower (by decide)
      | points _ hne hfields =>
          refine .points hname hcapital hpoint hne hall.nodup fun f hf => ?_
          rcases hall.values f hf with ⟨hfield, hhandler, hgiven⟩
          exact ⟨hfield, hhandler, hgiven.spelled (hfields f hf)⟩
  | object hname htype hcapital hnodup _ ih =>
      cases hfirm with
      | plain _ hplain => exact absurd hplain (by simp only [isPlain, Bool.false_eq_true,
          not_false_eq_true])
      | object hproperties =>
          exact .object hname htype hcapital hnodup fun f hf => ih f hf (hproperties f hf)

theorem GainedNumber.legible {v : Value} (h : GainedNumber v) (hfirm : FirmScalar v) :
    LegibleNumber v := by
  cases h with
  | int hwritable => exact legibleNumber_integer hwritable
  | float x => exact hfirm

-- A coordinate or size, be it bound or not.
theorem GainedNode.place {n : Node} (hn : GainedNode n)
    (hproperties : ∀ f ∈ n.properties, Firm f.1 f.2) {key : String} {number : Value}
    (hkey : key ∈ Catalog.geometry) (hnumber : GainedNumber number)
    (hclosed : ClosedPlace n.properties key number) :
    LegiblePlace n.properties key number := by
  unfold ClosedPlace at hclosed
  unfold LegiblePlace
  cases hbound : bound? n.properties key with
  | none => exact hnumber.legible (hclosed hbound)
  | some s =>
      have hget : n.properties.get? key = some (.raw s) := by
        unfold bound? at hbound
        split at hbound
        · rename_i hget
          rw [hget, Option.some.inj hbound]
        · exact absurd hbound (by simp only [reduceCtorEq, not_false_eq_true])
      have hmem := Table.mem_of_get? hget
      have hspace := not_mem_of_isName (geometry_name hkey).1
      cases hproperties _ hmem with
      | plain _ _ hself => exact .inr ⟨hself, hn.bound _ hmem hkey s rfl hself⟩
      | verbatim _ htext => exact .inl htext
      | declaration hdeclared => exact absurd hdeclared hspace

theorem Gained.object_type {group : Option String} {key : String} {type : Value}
    {properties : Fields}
    (h : Gained group key (.object type properties)) : ∃ t, type = .text t := by
  cases h with
  | plain _ _ _ hv =>
      exact absurd hv.isPlain (by simp only [isPlain, Bool.false_eq_true, not_false_eq_true])
  | object => exact ⟨_, rfl⟩

theorem names_without {names : List String} {fields : Fields} (h : (Table.names fields).Nodup) :
    (Table.names (without names fields)).Nodup :=
  h.sublist (List.filter_sublist.map _)

/-- A widget that was read and is closed is legible, once it has a safe id. -/
theorem GainedNode.legible {n : Node} (h : GainedNode n) (hclosed : ClosedNode n)
    (hid : ∃ s, n.id = .text s ∧ isSafeId s = true) : LegibleNode n := by
  have hplace := fun {key number} => @GainedNode.place n h hclosed.properties key number
  refine ⟨?_, hid, hplace (by decide) h.x hclosed.x, hplace (by decide) h.y hclosed.y,
    hplace (by decide) h.width hclosed.width, hplace (by decide) h.height hclosed.height,
    names_without h.fields.nodup, fun f hf => ?_, fun f hf type ps hobject => ?_⟩
  · rcases h.type with ⟨t, ht, hname⟩
    have hcapital := hclosed.type
    rw [ht] at hcapital
    exact ⟨t, ht, hname, hcapital⟩
  · have hmem := (List.mem_filter.mp hf).1
    exact (h.fields.values f hmem).legible (hclosed.properties f hmem)
  · have hgained := h.fields.values f hf
    rw [hobject] at hgained
    exact hgained.object_type

/-- A window that was read and is closed is legible. -/
theorem GainedWindow.legible {s : Settings} {w : Window} (h : GainedWindow s w)
    (hclosed : ClosedWindow w) : LegibleWindow w := by
  have hnumber : ∀ {v : Value} {n : Int} {p : Prop}, v = .int n ∨ GainedNumber v →
      v.writable = true ∧ (p → FirmScalar v) →
      (∃ t, literal v = .ok t) ∧ (p → LegibleNumber v) := by
    intro v n p hv hwritten
    rcases hv with rfl | hv
    · have hlegible := legibleNumber_integer hwritten.1
      rcases hlegible with ⟨t, ht, -⟩
      exact ⟨⟨t, ht⟩, fun _ => legibleNumber_integer hwritten.1⟩
    · refine ⟨?_, fun hp => hv.legible (hwritten.2 hp)⟩
      cases hv with
      | int hn =>
          rcases legibleNumber_integer hn with ⟨t, ht, -⟩
          exact ⟨t, ht⟩
      | float x => exact ⟨_, rfl⟩
  refine ⟨hnumber h.width hclosed.width, hnumber h.height hclosed.height, fun _ => h.title,
    fun _ => h.visible, fun key hkey v hv => ?_, names_without h.fields.nodup, fun f hf => ?_⟩
  · have hmem := Table.mem_of_get? hv
    refine ⟨(h.fields.values _ hmem).legible (hclosed.properties _ hmem),
      fun hplain t ht hself => ?_⟩
    rcases h.places _ hmem hkey hplain with ⟨text, rfl, hkept⟩
    have htext : text = t := Except.ok.inj ht
    subst htext
    exact hkept hself
  · have hmem := (List.mem_filter.mp hf).1
    exact (h.fields.values f hmem).legible (hclosed.properties f hmem)

/-- A document that was read and is closed is legible. -/
theorem GainedDocument.legible_of_closed {s : Settings} {d : Document} (h : GainedDocument s d)
    (hclosed : ClosedDocument d) : LegibleDocument d := by
  refine ⟨h.window.legible hclosed.window, fun n hn => ?_, h.ids⟩
  refine (h.nodes n hn).legible (hclosed.nodes n hn) ?_
  rcases h.ids with ⟨names, hnames, -, hsafe⟩
  have hid : n.id ∈ names.map Value.text := by
    rw [← hnames]
    exact List.mem_map_of_mem hn
  rcases List.mem_map.mp hid with ⟨name, hmem, hname⟩
  exact ⟨name, hname.symm, hsafe name hmem⟩

/-- A document that was read and is firm is legible. -/
theorem GainedDocument.legible {s : Settings} {d : Document} (h : GainedDocument s d)
    (hfirm : FirmDocument s d) : LegibleDocument d :=
  h.legible_of_closed hfirm.closed

end Markup

end WidgetSync
