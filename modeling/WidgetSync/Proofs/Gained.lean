import WidgetSync.Proofs.Documents
import WidgetSync.Proofs.Scanned

/-!
# What the Reader Gains from a Text

The values that properties have after reading, whatever the text was.

A text need not be well formed, but what is read of it is. Every name is a name,
no name comes twice, and each value has one of a few forms: it stands for some
source text under the spelling of its name, or it is source text that was taken
over, or code in normal form, or it is made of such values. `Gained` lists these
forms.

The list says nothing about whether a value can be written. Source text that was
taken over may have a bracket open, if the text ended there, and then it would not
be found again. But where it can be found, it is found as it is, and that is what
the forms are for: source text that starts like a block or an object was never
compared with a spelling, and all other source text was.

## Main definitions

* `Given`: The value stands for some source text.
* `Gained`: The values that a name can have after reading.
* `GainedNode`, `GainedWindow`: Widgets and windows after reading.

## Theorems

* `splitName?_spec`: The two parts of a name with a point are names.
* `NumberText.gained`: A number that is read can be written.
-/

namespace WidgetSync

namespace Markup

/-- The value stands for some source text under the spelling of the name. -/
def Given (group : Option String) (key : String) (v : Value) : Prop :=
  ∃ raw : String, Text.trim raw.toList = raw.toList ∧
    valueOf raw (Catalog.spelling? key group) = .ok v

/-- The code of a handler: the normal form of what stands between braces, or one
    value. -/
inductive GainedCode : String → Bool → Prop where
  /-- The text between braces, in normal form. It counts as a block if it has several
      lines. -/
  | braces (inner : List Char) :
      GainedCode (String.ofList (handlerCode inner)) (inner.contains '\n')
  /-- A value. -/
  | plain {code : String} (htrimmed : Text.trim code.toList = code.toList)
      (hne : code.toList ≠ []) : GainedCode code false

/-- Fields behind points, after reading. -/
structure GainedPoints (key : String) (fields : Fields) : Prop where
  /-- They have different names. -/
  nodup : (Table.names fields).Nodup
  /-- Each has a name behind the point, which is no handler, and a plain value. -/
  values : ∀ f ∈ fields, isName (key ++ "." ++ f.1).toList = true ∧
    Catalog.isHandlerName (key ++ "." ++ f.1) = false ∧ Given (some key) f.1 f.2

/-- The values that a name can have after reading, in a group if one is named. -/
inductive Gained : Option String → String → Value → Prop where
  /-- A value without structure. -/
  | plain {group : Option String} {key : String} {v : Value}
      (hname : isName key.toList = true) (hhandler : Catalog.isHandlerName key = false)
      (hpoints : group = none → Reading.splitName? key = none) (hv : Given group key v) :
      Gained group key v
  /-- The source text of a block or an object. -/
  | verbatim {group : Option String} {key text : String} (hname : isName key.toList = true)
      (h : startsPlain (scan text.toList).tokens = false) : Gained group key (.raw text)
  /-- The source text of a declared property. -/
  | declaration {group : Option String} {key text : String} {words : List String}
      (hkey : Declared key words) : Gained group key (.raw text)
  /-- A handler. -/
  | handler {group : Option String} {key code : String} {block : Bool}
      (hname : isName key.toList = true) (hhandler : Catalog.isHandlerName key = true)
      (h : GainedCode code block) : Gained group key (.handler (.text code) (.bool block))
  /-- A group that can stand in a block. -/
  | block {group : Option String} {key : String} {fields : Fields}
      (hname : isName key.toList = true) (hcapital : isCapitalized key.toList = false)
      (hnodup : (Table.names fields).Nodup)
      (hfields : ∀ f ∈ fields, Gained (some key) f.1 f.2) : Gained group key (.group fields)
  /-- A group whose fields stand behind points. -/
  | points {key : String} {fields : Fields}
      (hname : isName key.toList = true) (hcapital : isCapitalized key.toList = true)
      (hpoint : '.' ∉ key.toList) (hfields : GainedPoints key fields) :
      Gained none key (.group fields)
  /-- An object. -/
  | object {group : Option String} {key type : String} {properties : Fields}
      (hname : isName key.toList = true) (htype : isName type.toList = true)
      (hcapital : isCapitalized type.toList = true) (hnodup : (Table.names properties).Nodup)
      (hproperties : ∀ f ∈ properties, Gained none f.1 f.2) :
      Gained group key (.object (.text type) properties)

/-- Properties after reading. -/
structure GainedFields (group : Option String) (fields : Fields) : Prop where
  /-- They have different names. -/
  nodup : (Table.names fields).Nodup
  /-- Their values are gained. -/
  values : ∀ f ∈ fields, Gained group f.1 f.2

theorem GainedFields.nil (group : Option String) : GainedFields group [] :=
  ⟨List.nodup_nil, fun _ h => absurd h List.not_mem_nil⟩

theorem GainedFields.set {group : Option String} {fields : Fields} (h : GainedFields group fields)
    {key : String} {v : Value} (hv : Gained group key v) :
    GainedFields group (fields.set key v) := by
  refine ⟨Table.nodup_set h.nodup key v, fun f hf => ?_⟩
  rcases Table.mem_set hf with rfl | hf
  · exact hv
  · exact h.values f hf

theorem GainedFields.sublist {group : Option String} {fields others : Fields}
    (h : GainedFields group fields) (hsub : List.Sublist others fields) :
    GainedFields group others :=
  ⟨h.nodup.sublist (hsub.map _), fun f hf => h.values f (hsub.subset hf)⟩

theorem Given.isPlain {group : Option String} {key : String} {v : Value} (h : Given group key v) :
    isPlain v = true := by
  rcases h with ⟨raw, -, hraw⟩
  exact isPlain_valueOf hraw

theorem Gained.fields_block {group : Option String} {key : String} {fields : Fields}
    (h : Gained group key (.group fields)) (hcapital : isCapitalized key.toList = false) :
    GainedFields (some key) fields := by
  cases h with
  | plain _ _ _ hv =>
      exact absurd hv.isPlain (by simp only [Markup.isPlain, Bool.false_eq_true, not_false_eq_true])
  | block _ _ hnodup hfields => exact ⟨hnodup, hfields⟩
  | points _ hupper =>
      rw [hcapital] at hupper
      exact absurd hupper (by decide)

theorem Gained.fields_points {group : Option String} {key : String} {fields : Fields}
    (h : Gained group key (.group fields)) (hcapital : isCapitalized key.toList = true) :
    GainedPoints key fields := by
  cases h with
  | plain _ _ _ hv =>
      exact absurd hv.isPlain (by simp only [Markup.isPlain, Bool.false_eq_true, not_false_eq_true])
  | block _ hlower =>
      rw [hcapital] at hlower
      exact absurd hlower (by decide)
  | points _ _ _ hfields => exact hfields

/-- The value is a number that can be written, as far as that depends on its size. -/
inductive GainedNumber : Value → Prop where
  /-- An integer. -/
  | int {n : Int} (h : (Value.int n).writable = true) : GainedNumber (.int n)
  /-- A double. -/
  | float (x : Float) : GainedNumber (.float x)

/-- Source text under a coordinate or size is no number. -/
def KeptPlace (key : String) (v : Value) : Prop :=
  key ∈ Catalog.geometry → ∀ s, v = .raw s → SelfDelimiting s.toList → numberLiteral? s = .ok none

/-- A plain value under an attribute of the window is source text that is not for the
    attribute. -/
def KeptAttribute (key : String) (v : Value) : Prop :=
  key ∈ attributeNames → isPlain v = true →
    ∃ s, v = .raw s ∧ (SelfDelimiting s.toList → Reading.windowTakes key s = false)

/-- A widget after reading, its children apart. -/
structure GainedNode (n : Node) : Prop where
  type : ∃ t, n.type = .text t ∧ isName t.toList = true
  id : ∃ s, n.id = .text s
  x : GainedNumber n.x
  y : GainedNumber n.y
  width : GainedNumber n.width
  height : GainedNumber n.height
  fields : GainedFields none n.properties
  bound : ∀ f ∈ n.properties, KeptPlace f.1 f.2

/-- A window after reading. -/
structure GainedWindow (s : Settings) (w : Window) : Prop where
  width : w.width = .int s.width ∨ GainedNumber w.width
  height : w.height = .int s.height ∨ GainedNumber w.height
  title : ∃ t, w.title = .text t
  visible : ∃ b, w.visible = .bool b
  fields : GainedFields none w.properties
  places : ∀ f ∈ w.properties, KeptAttribute f.1 f.2

-- Before its first point a name is a name, and behind it too.
theorem nameLength_pointed {as bs : List Char} (hpoint : '.' ∉ as)
    (h : nameLength (as ++ '.' :: bs) = (as ++ '.' :: bs).length) :
    nameLength as = as.length ∧ isName bs = true := by
  induction as with
  | nil =>
      rw [List.nil_append, nameLength.eq_def] at h
      simp only [show continuesName '.' = false by decide, Bool.false_eq_true, if_false,
        if_true] at h
      cases bs with
      | nil => exact absurd h (by decide)
      | cons d ds =>
          -- The point belongs to the name only if the start of a name is behind it.
          by_cases hd : startsName d = true
          · simp only [hd, if_true, List.length_cons, Nat.add_right_cancel_iff] at h
            refine ⟨rfl, ?_⟩
            rw [isName, hd, h, beq_self_eq_true]
            rfl
          · simp only [hd, if_false, Bool.false_eq_true, List.length_cons] at h
            omega
  | cons a as ih =>
      rw [List.mem_cons, not_or] at hpoint
      rw [List.cons_append, nameLength.eq_def] at h
      by_cases ha : continuesName a = true
      · simp only [ha, if_true, List.length_cons, Nat.add_right_cancel_iff] at h
        rcases ih hpoint.2 h with ⟨has, hbs⟩
        refine ⟨?_, hbs⟩
        rw [nameLength.eq_def]
        simp only [ha, if_true, has, List.length_cons]
      · simp only [ha, if_false, Bool.false_eq_true, Ne.symm hpoint.1, List.length_cons] at h
        omega

/-- The two parts of a name with a point are names. -/
theorem splitName?_spec {key head field : String} (h : isName key.toList = true)
    (hsplit : Reading.splitName? key = some (head, field)) :
    key = head ++ "." ++ field ∧ '.' ∉ head.toList ∧ isName head.toList = true ∧
      isName field.toList = true := by
  unfold Reading.splitName? at hsplit
  simp only at hsplit
  have hparts : key.toList
      = key.toList.takeWhile (· != '.') ++ key.toList.dropWhile (· != '.') :=
    List.takeWhile_append_dropWhile.symm
  have hfree : '.' ∉ key.toList.takeWhile (· != '.') := fun hmem =>
    absurd (List.all_eq_true.mp List.all_takeWhile '.' hmem) (by decide)
  have hstart := List.head?_dropWhile_not (· != '.') key.toList
  rw [drop_takeWhile] at hsplit
  generalize key.toList.takeWhile (· != '.') = as at hparts hfree hsplit
  cases hdrop : key.toList.dropWhile (· != '.') with
  | nil =>
      rw [hdrop] at hsplit
      exact absurd hsplit (by simp only [reduceCtorEq, not_false_eq_true])
  | cons c bs =>
      rw [hdrop] at hparts hsplit hstart
      rw [List.head?_cons] at hstart
      have hc : c = '.' := by
        simpa only [Bool.not_eq_true', bne_eq_false_iff_eq] using hstart
      subst hc
      simp only [Option.some.injEq, Prod.mk.injEq] at hsplit
      obtain ⟨rfl, rfl⟩ := hsplit
      rw [String.toList_ofList, String.toList_ofList]
      -- The two parts with the point between them are the whole name.
      have hjoined : String.ofList as ++ "." ++ String.ofList bs = key := by
        rw [← String.toList_inj]
        simp only [String.toList_append, String.toList_ofList, hparts, List.append_assoc]
        rfl
      refine ⟨hjoined.symm, hfree, ?_⟩
      rw [hparts] at h
      cases as with
      | nil =>
          rw [List.nil_append, isName, show startsName '.' = false by decide, Bool.false_and] at h
          exact absurd h (by decide)
      | cons a as =>
          rw [List.cons_append, isName, Bool.and_eq_true, beq_iff_eq] at h
          rw [List.mem_cons, not_or] at hfree
          rcases nameLength_pointed hfree.2 h.2 with ⟨has, hbs⟩
          refine ⟨?_, hbs⟩
          rw [isName, h.1, has, beq_self_eq_true]
          rfl

-- Only what stands behind the last point makes the name of a handler.
theorem isHandlerName_pointed (head field : String) :
    Catalog.isHandlerName (head ++ "." ++ field) = Catalog.isHandlerName field := by
  have htext : (head ++ "." ++ field).toList = head.toList ++ '.' :: field.toList := by
    rw [String.toList_append, String.toList_append, List.append_assoc]
    rfl
  have hsegment : Catalog.lastSegment (head ++ "." ++ field).toList
      = Catalog.lastSegment field.toList := by
    -- Seen from the end, the search stops at the point at the latest.
    have hstop : (['.'] ++ head.toList.reverse).takeWhile (· != '.') = [] := rfl
    rw [htext, Catalog.lastSegment, Catalog.lastSegment, List.reverse_append, List.reverse_cons,
      List.append_assoc, List.takeWhile_append, hstop, List.append_nil]
    split
    · rename_i hall
      have hwhole :=
        (List.takeWhile_prefix (l := field.toList.reverse) (· != '.')).eq_of_length hall
      rw [hwhole]
    · rfl
  rw [Catalog.isHandlerName, Catalog.isHandlerName, hsegment]

theorem digitsValue_lt (ds : List Char) : Text.digitsValue ds < Nat.pow 10 ds.length := by
  -- The value so far and the digits to come bound each other: a digit more is a power more.
  have hfold : ∀ (ds : List Char) (n : Nat),
      ds.foldl (fun n c => n * 10 + (Text.digitValue? c).getD 0) n
        < (n + 1) * Nat.pow 10 ds.length := by
    intro ds
    induction ds with
    | nil =>
        intro n
        rw [List.foldl_nil, List.length_nil]
        exact Nat.lt_of_lt_of_eq (Nat.lt_succ_self n) (Nat.mul_one _).symm
    | cons d ds ih =>
        intro n
        have hd : (Text.digitValue? d).getD 0 < 10 := by
          cases hvalue : Text.digitValue? d with
          | none => decide
          | some k => exact Text.digitValue?_lt hvalue
        have hstep : (n * 10 + (Text.digitValue? d).getD 0 + 1) * Nat.pow 10 ds.length
            ≤ (n + 1) * 10 * Nat.pow 10 ds.length :=
          Nat.mul_le_mul_right _ (by omega)
        rw [List.foldl_cons, List.length_cons,
          show Nat.pow 10 (ds.length + 1) = Nat.pow 10 ds.length * 10 from rfl]
        refine Nat.lt_of_lt_of_le (ih _) (Nat.le_trans hstep (Nat.le_of_eq ?_))
        rw [Nat.mul_assoc, Nat.mul_comm 10]
  have h := hfold ds 0
  rwa [Nat.zero_add, Nat.one_mul] at h

-- There are no more digits than the limit, so the integer can be written with as many.
theorem writable_of_digits {n : Int} {ds : List Char} (hn : n.natAbs = Text.digitsValue ds)
    (hlimit : ds.length ≤ Decimal.digitLimit) : (Value.int n).writable = true := by
  have hlt : ∀ limit, ds.length ≤ limit → Text.digitsValue ds < Nat.pow 10 limit :=
    fun limit hle =>
      Nat.lt_of_lt_of_le (digitsValue_lt ds) (Nat.pow_le_pow_right (by decide : 0 < 10) hle)
  rw [Value.writable, decide_eq_true_eq, hn]
  exact hlt _ hlimit

/-- A number that its text stands for can be written. -/
theorem NumberText.gained {n : NumberText} {v : Value} (h : n.value = .ok v) : GainedNumber v := by
  unfold NumberText.value at h
  split at h
  · rw [← Except.ok.inj h]
    exact .float _
  · split at h
    · exact absurd h (by simp only [reduceCtorEq, not_false_eq_true])
    · rename_i hlimit
      have hsize : ∀ size : Nat,
          (if n.negative = true then -(size : Int) else size).natAbs = size := by
        intro size
        split
        all_goals omega
      rw [← Except.ok.inj h]
      exact .int (writable_of_digits (hsize _) (Nat.le_of_not_lt hlimit))

/-- A number that is read can be written. -/
theorem gainedNumber_of_numberLiteral? {raw : String} {v : Value}
    (h : numberLiteral? raw = .ok (some v)) : GainedNumber v := by
  unfold numberLiteral? at h
  simp only at h
  split at h
  · rename_i n _
    split at h
    · cases hn : n.value with
      | error e =>
          rw [hn] at h
          exact absurd h (by simp only [Except.map, reduceCtorEq, not_false_eq_true])
      | ok w =>
          rw [hn] at h
          rw [← Option.some.inj (Except.ok.inj h)]
          exact NumberText.gained hn
    · exact absurd (Except.ok.inj h) (by simp only [reduceCtorEq, not_false_eq_true])
  · exact absurd (Except.ok.inj h) (by simp only [reduceCtorEq, not_false_eq_true])

end Markup

end WidgetSync
