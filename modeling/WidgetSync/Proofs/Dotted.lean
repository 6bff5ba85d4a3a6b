import WidgetSync.Proofs.Reached

/-!
# Fields of Groups, With a Point or in a Block

A line that gives a field of a group can be written as a block.

The field of a group has two spellings. A name with a point in front of a value names the group and
the field, and a block with the name of the group holds a line with the name of the field. The
reader has two ways for them: with a point it puts the field into the group that is there, and for
a block it opens a copy of the group and stores it again when the block is closed. They lead to the
same reading if the value is one by itself (`WholeValue`), or stop with the same if the value cannot
be converted.

The rest of the argument is about the text around the line. What stands in front is cut into the
same tokens and read in the same way, since a new statement starts at the line in both texts
(`Reading.Reaches.alike`). What stands behind is the same text, but objects that are open at the
line have kept different tokens. That matters if a widget is declared in one of them, for then the
object is kept as its source text, and there the two spellings are different indeed.

## Main definitions

* `dottedLine`, `groupLines`: The two spellings.
* `GroupField`: The names of a group and of a field in it.
* `WholeValue`: A text that is one value.
* `Reading.grouped`: What the two spellings do.
* `DottedField`: A line of a text that gives a field of a group with a point.

## Theorems

* `scanFrom_dotted`, `scanFrom_group`: The tokens of the spellings.
* `Reading.outcome_dotted`, `Reading.outcome_group`: They do the same.
* `scan_group`: The text in front is cut into the same tokens.
* `Reading.grouped_sourced`: What objects keep that are open does not matter.
* `dotted_eq_group`: The document is the same.
-/

namespace WidgetSync

namespace Markup

/-- Some spaces. -/
def spaces (n : Nat) : String :=
  String.ofList (List.replicate n ' ')

/-- A line that gives a field of a group with a point. -/
def dottedLine (group field value : String) : String :=
  group ++ "." ++ field ++ ": " ++ value

/-- The lines that give it in a block. The lines inside and at the end of the block may be
    indented. -/
def groupLines (inner outer : Nat) (group field value : String) : String :=
  group ++ " \x7b\n" ++ (spaces inner ++ field ++ ": " ++ value ++ "\n") ++ (spaces outer ++ "\x7d")

/-- The names of a group and of a field in it. -/
structure GroupField (group field : String) : Prop where
  groupName : isName group.toList = true
  unpointed : '.' ∉ group.toList
  /-- A name with a capital in front would open a widget. -/
  lower : isCapitalized group.toList = false
  fieldName : isName field.toList = true
  /-- The field is given a value and no code. -/
  unhandled : Catalog.isHandlerName field = false

/-- A value ends in front of the end of a line. -/
theorem valueEnds_scan {rest : List Char} (hrest : ∀ c ∈ rest.head?, c = '\n') :
    valueEnds (scan rest).tokens = true := by
  cases rest with
  | nil =>
      rw [scan, scanFrom]
      rfl
  | cons c cs =>
      obtain rfl : c = '\n' := hrest c rfl
      have hline : scan ('\n' :: cs) = (scan cs).after [lineEnd] := lexes_lineEnd cs
      rw [hline]
      rfl

/-- A text that is one value. It starts and ends with tokens, and nothing in it is left open. -/
structure WholeValue (v : List Char) : Prop where
  /-- It leaves no string and no comment open. -/
  closed : closed v = true
  /-- It starts and ends with a token. -/
  covers : covered (scan v).tokens = v
  /-- These are not only blanks of the rarer kinds, which are tokens but no value. -/
  nonblank : Text.trim v ≠ []
  /-- Nothing outside of brackets ends the value, and brackets are closed. -/
  balanced : depthAfter 0 (scan v).tokens = some 0
  /-- It starts neither a block nor an object. -/
  plain : startsPlain (scan v).tokens = true

section Covered

variable {cs : List Char}

/-- Nothing is skipped around tokens that cover a text. -/
theorem tail_of_covered (h : covered (scan cs).tokens = cs) (hne : cs ≠ []) :
    (scan cs).tail = [] := by
  have hall := withGaps_scan cs
  cases htokens : (scan cs).tokens with
  | nil =>
      rw [htokens, covered] at h
      exact absurd h.symm hne
  | cons t ts =>
      rw [htokens, withGaps_cons] at hall
      rw [htokens, covered] at h
      have hlength := congrArg List.length (hall.trans h.symm)
      simp only [List.length_append] at hlength
      exact List.eq_nil_of_length_eq_zero (by omega)

end Covered

namespace WholeValue

variable {v rest : List Char}

theorem ne_nil (h : WholeValue v) : v ≠ [] := by
  rintro rfl
  exact h.nonblank rfl

theorem tokens_ne_nil (h : WholeValue v) : (scan v).tokens ≠ [] := by
  intro hnil
  have hplain := h.plain
  rw [hnil] at hplain
  exact absurd hplain (by decide)

/-- The tokens of a value behind a colon do not depend on what follows in the next lines. -/
theorem scan_value (h : WholeValue v) (hrest : ∀ c ∈ rest.head?, c = '\n') :
    scan (':' :: ' ' :: (v ++ rest))
      = (scan rest).after (⟨.colon, [], [':']⟩ :: delayed [' '] (scan v).tokens) := by
  have hscan : scan (v ++ rest) = (scan rest).after (scan v).tokens :=
    scanFrom_closed rest h.closed (.inr hrest) (tail_of_covered h.covers h.ne_nil)
  have hvalue := scan_spaces 1 (v ++ rest)
  rw [hscan, Scan.behind_after _ h.tokens_ne_nil] at hvalue
  have hcolon := lexes_mark (c := ':') rfl (' ' :: (v ++ rest))
  have hvalue : scan (' ' :: (v ++ rest)) = (scan rest).after (delayed [' '] (scan v).tokens) :=
    hvalue
  rwa [List.singleton_append, hvalue, Scan.after_after] at hcolon

theorem lexes_value (h : WholeValue v) : Lexes (':' :: ' ' :: (v ++ ['\n']))
    (⟨.colon, [], [':']⟩ :: (delayed [' '] (scan v).tokens ++ [lineEnd])) := by
  intro rest
  have hscan := @scan_value v ('\n' :: rest) h (by simp)
  have hline : scan ('\n' :: rest) = (scan rest).after [lineEnd] := lexes_lineEnd rest
  rw [hline, Scan.after_after] at hscan
  simpa using hscan

/-- The value is read up to where a value ends. -/
theorem property (h : WholeValue v) {ts : List Token} (hends : valueEnds ts = true) (r : Reading)
    (tail : List Char) (key : String) :
    r.property tail key (delayed [' '] (scan v).tokens ++ ts)
      = r.valued key (String.ofList (Text.trim v)) ((scan v).tokens.length + 1) := by
  have hdepth : depthAfter 0 (delayed [' '] (scan v).tokens) = some 0 := by
    rw [depthAfter_delayed, h.balanced]
  have hlength : valueLength 0 (delayed [' '] (scan v).tokens ++ ts) = (scan v).tokens.length := by
    rw [valueLength_behind hdepth, valueLength_of_valueEnds hends, delayed_length, Nat.add_zero]
  have htext : valueText (delayed [' '] (scan v).tokens ++ ts) = String.ofList (Text.trim v) := by
    rw [valueText, hlength, ← delayed_length [' '], List.take_left, covered_delayed, h.covers]
  have hplain := h.plain
  cases htokens : (scan v).tokens with
  | nil => exact absurd htokens h.tokens_ne_nil
  | cons t us =>
      rw [htokens, delayed, List.cons_append] at hlength htext
      rw [htokens, startsPlain, Bool.and_eq_true, bne_iff_ne, Bool.not_eq_true'] at hplain
      -- What follows the value ends it, so no block can open there.
      have hobject : (t.isCapital && starts .opening (us ++ ts)) = false := by
        cases us with
        | nil => rw [List.nil_append, starts_of_valueEnds hends rfl, Bool.and_false]
        | cons u us => exact hplain.2
      have hvalue := @Reading.property_value { t with gap := [' '] ++ t.gap } (us ++ ts) r tail key
        hplain.1 hobject
      rwa [htext, hlength] at hvalue

end WholeValue

/-- The tokens of a value behind a colon, and those behind it. -/
def valueTokens (v : List Char) (ts : List Token) : List Token :=
  ⟨.colon, [], [':']⟩ :: (delayed [' '] (scan v).tokens ++ ts)

theorem drop_valueTokens (v : List Char) (ts : List Token) :
    (valueTokens v ts).drop ((scan v).tokens.length + 1) = ts := by
  rw [valueTokens, List.drop_succ_cons, ← delayed_length [' '], List.drop_left]

/-- The tokens of a line that gives a field of a group with a point, and those behind it. -/
def dottedTokens (gap : List Char) (group field : String) (v : List Char) (ts : List Token) :
    List Token :=
  ⟨.name, gap, (group ++ "." ++ field).toList⟩ :: valueTokens v ts

/-- The tokens of a group in a block with one field, and those behind it. -/
def groupTokens (gap inner outer : List Char) (group field : String) (v : List Char)
    (ts : List Token) : List Token :=
  ⟨.name, gap, group.toList⟩ :: ⟨.opening, [' '], ['\x7b']⟩ :: lineEnd ::
    ⟨.name, inner, field.toList⟩ :: valueTokens v (lineEnd :: ⟨.closing, outer, ['\x7d']⟩ :: ts)

section Tokens

variable {group field : String} {v rest : List Char}

/-- The characters of a line that gives a field of a group with a point. -/
def dottedChars (group field : String) (v : List Char) : List Char :=
  (group ++ "." ++ field).toList ++ ':' :: ' ' :: v

/-- The characters of the lines that give it in a block. -/
def groupChars (inner outer : Nat) (group field : String) (v : List Char) : List Char :=
  group.toList ++ ' ' :: '\x7b' :: '\n' :: (List.replicate inner ' ' ++ (field.toList ++
    ':' :: ' ' :: (v ++ '\n' :: (List.replicate outer ' ' ++ ['\x7d']))))

theorem dottedLine_toList (group field value : String) :
    (dottedLine group field value).toList = dottedChars group field value.toList := by
  simp [dottedLine, dottedChars]

theorem groupLines_toList (inner outer : Nat) (group field value : String) :
    (groupLines inner outer group field value).toList
      = groupChars inner outer group field value.toList := by
  simp [groupLines, groupChars, spaces]

theorem scanFrom_dotted (gap : List Char) (hnames : GroupField group field) (hv : WholeValue v)
    (hrest : ∀ c ∈ rest.head?, c = '\n') :
    scanFrom gap (dottedChars group field v ++ rest)
      = ⟨dottedTokens gap group field v (scan rest).tokens, (scan rest).tail⟩ := by
  have hname : isName (group ++ "." ++ field).toList = true := by
    have htext : (group ++ "." ++ field).toList = group.toList ++ '.' :: field.toList := by simp
    rw [htext]
    exact isName_pointed hnames.groupName hnames.unpointed hnames.fieldName
  have hends : endsName (':' :: ' ' :: (v ++ rest)) := by
    intro c hc
    obtain rfl : ':' = c := by simpa using hc
    decide
  have htext : dottedChars group field v ++ rest
      = (group ++ "." ++ field).toList ++ ':' :: ' ' :: (v ++ rest) := by
    rw [dottedChars, List.append_assoc, List.cons_append, List.cons_append]
  rw [htext, scanFrom_eq_behind, scan_name hname hends, hv.scan_value hrest, Scan.after_after,
    List.singleton_append, Scan.behind_after _ (List.cons_ne_nil _ _), delayed, List.append_nil]
  rfl

theorem scanFrom_group (gap : List Char) (inner outer : Nat) (hnames : GroupField group field)
    (hv : WholeValue v) (rest : List Char) :
    scanFrom gap (groupChars inner outer group field v ++ rest)
      = ⟨groupTokens gap (List.replicate inner ' ') (List.replicate outer ' ') group field v
          (scan rest).tokens, (scan rest).tail⟩ := by
  have hline := Lexes.indented inner (List.cons_ne_nil _ _)
    (Lexes.name hnames.fieldName ⟨':', _, rfl, by decide⟩ hv.lexes_value)
  have hcloses := Lexes.indented outer (List.cons_ne_nil _ _) (lexes_mark (c := '\x7d') rfl)
  have hblock : Lexes (group.toList ++ ([' ', '\x7b', '\n'] ++ _)) _ :=
    Lexes.name hnames.groupName ⟨' ', _, rfl, by decide⟩ (lexes_brace.append (hline.append hcloses))
  have hscan := hblock rest
  simp only [List.append_assoc, List.cons_append, List.nil_append] at hscan
  rw [scanFrom_eq_behind]
  simp only [groupChars, List.append_assoc, List.cons_append, List.nil_append]
  rw [hscan, Scan.behind_after _ (List.cons_ne_nil _ _)]
  simp [delayed, Scan.after, groupTokens, valueTokens]

end Tokens

namespace Reading

section Grouped

variable {r : Reading} {tail : List Char} {group field : String} {v : List Char} {ts : List Token}

theorem isEmpty_ofList {cs : List Char} (h : cs ≠ []) : (String.ofList cs).isEmpty = false := by
  rw [Bool.eq_false_iff, ne_eq, String.isEmpty_iff, ← String.toList_eq_nil_iff,
    String.toList_ofList]
  exact h

/-- The text goes on with a value, or the reader stops if there is none. -/
def continued (value : Except Fault Value) (stopped : Reading) (keep : Value → Reading)
    (tail : List Char) (ts : List Token) : Reading × Bool :=
  match value with
  | .ok w => (keep w).outcome tail ts
  | .error _ => (stopped.closeAll true, true)

theorem outcome_given {t : Token} {value : Except Fault Value} {stopped : Reading} {used : Nat}
    {keep : Value → Reading} (h : r.step tail t ts = Step.given value stopped used keep) :
    r.outcome tail (t :: ts) = continued value stopped keep tail (ts.drop used) := by
  cases value with
  | error fault => exact outcome_stop h
  | ok w => exact outcome_next h

/-- A line with a value assigns it. -/
theorem step_value (gap : List Char) {key : String} (hframes : r.frames ≠ [])
    (hhandler : Catalog.isHandlerName key = false) (hv : WholeValue v)
    (hends : valueEnds ts = true) :
    r.step tail ⟨.name, gap, key.toList⟩ (valueTokens v ts)
      = r.assign key (String.ofList (Text.trim v)) ((scan v).tokens.length + 1) := by
  rw [valueTokens, step_property _ hframes rfl rfl, text_name, hv.property hends, valued,
    isEmpty_ofList hv.nonblank, hhandler, if_neg Bool.false_ne_true, if_neg Bool.false_ne_true]

/-- A field of a group in the innermost block is given a value, and then the text goes on. If the
    source text of the value cannot be converted, the reader stops with the group as it is. -/
def grouped (r : Reading) (tail : List Char) (group field raw : String) (ts : List Token) :
    Reading × Bool :=
  continued (valueOf raw (Catalog.spelling? field (some group)))
    (r.store group (.group (r.groupFields group)))
    (fun w => r.store group (.group ((r.groupFields group).set field w))) tail ts

/-- A name with a point gives the field a value. -/
theorem step_dotted (gap : List Char) (hframes : r.frames ≠ []) (hungrouped : r.group? = none)
    (hnames : GroupField group field) (hv : WholeValue v) (hends : valueEnds ts = true) :
    r.step tail ⟨.name, gap, (group ++ "." ++ field).toList⟩ (valueTokens v ts)
      = Step.given (valueOf (String.ofList (Text.trim v)) (Catalog.spelling? field (some group)))
          (r.store group (.group (r.groupFields group))) ((scan v).tokens.length + 1)
          fun w => r.store group (.group ((r.groupFields group).set field w)) := by
  rw [step_value gap hframes ((isHandlerName_pointed group field).trans hnames.unhandled) hv hends]
  exact assign_pointed hungrouped (splitName?_pointed field hnames.unpointed) _ _

theorem outcome_dotted (gap : List Char) (hframes : r.frames ≠ []) (hungrouped : r.group? = none)
    (hnames : GroupField group field) (hv : WholeValue v) (hends : valueEnds ts = true) :
    r.outcome tail (dottedTokens gap group field v ts)
      = r.grouped tail group field (String.ofList (Text.trim v)) ts := by
  rw [dottedTokens, outcome_given (step_dotted gap hframes hungrouped hnames hv hends),
    drop_valueTokens, grouped]

/-- The statements behind the line are met after it. -/
theorem mem_statements_dotted (gap : List Char) (hframes : r.frames ≠ [])
    (hungrouped : r.group? = none) (hnames : GroupField group field) (hv : WholeValue v)
    (hends : valueEnds ts = true) {w : Value} {st : Statement}
    (hvalue : valueOf (String.ofList (Text.trim v)) (Catalog.spelling? field (some group)) = .ok w)
    (hst : st ∈ (r.store group (.group ((r.groupFields group).set field w))).statements tail ts) :
    st ∈ r.statements tail (dottedTokens gap group field v ts) := by
  rw [dottedTokens, statements, step_dotted gap hframes hungrouped hnames hv hends, hvalue,
    Step.given]
  rw [← drop_valueTokens v ts] at hst
  exact List.mem_cons_of_mem _ hst

theorem outcome_opens (gap brace : List Char) (hframes : r.frames ≠ [])
    (hlower : isCapitalized group.toList = false) :
    r.outcome tail (⟨.name, gap, group.toList⟩ :: ⟨.opening, brace, ['\x7b']⟩ :: ts)
      = (r.push (.group group (r.groupFields group))).outcome tail ts := by
  have hform : HasForm ⟨.name, gap, group.toList⟩ (⟨.opening, brace, ['\x7b']⟩ :: ts) .group :=
    .group rfl rfl ((isCapital_name gap _).trans hlower)
  have hstep := hform.step hframes tail
  rw [Form.act, text_name] at hstep
  exact outcome_next hstep

theorem outcome_closes (gap : List Char) (hframes : r.frames ≠ []) :
    r.outcome tail (⟨.closing, gap, ['\x7d']⟩ :: ts) = (r.close false ts).outcome tail ts :=
  outcome_next ((HasForm.closing rfl).step hframes tail)

/-- The name of the field does so in a block of the group. -/
theorem outcome_group (gap inner outer : List Char) (hframes : r.frames ≠ [])
    (hnames : GroupField group field) (hv : WholeValue v) :
    r.outcome tail (groupTokens gap inner outer group field v ts)
      = r.grouped tail group field (String.ofList (Text.trim v)) ts := by
  have hlineEnd : ∀ (s : Reading) (us : List Token),
      s.outcome tail (lineEnd :: us) = s.outcome tail us := fun s us => reads_lineEnd s tail us
  rw [groupTokens, outcome_opens gap [' '] hframes hnames.lower, hlineEnd]
  generalize hopened : r.push (.group group (r.groupFields group)) = opened
  have hgroup : opened.group? = some group := by rw [← hopened]; rfl
  have hstep : opened.step tail ⟨.name, inner, field.toList⟩
        (valueTokens v (lineEnd :: ⟨.closing, outer, ['\x7d']⟩ :: ts))
      = Step.given (valueOf (String.ofList (Text.trim v)) (Catalog.spelling? field (some group)))
          opened ((scan v).tokens.length + 1) (opened.store field) := by
    rw [step_value inner (by simp [← hopened, push]) hnames.unhandled hv rfl,
      assign_unpointed (by simp [hgroup]), hgroup, ← hopened]
    rfl
  rw [outcome_given hstep, drop_valueTokens, grouped]
  cases valueOf (String.ofList (Text.trim v)) (Catalog.spelling? field (some group)) with
  | error fault =>
      -- The reader stops in the block, which is closed before the others.
      have hlength : (r.store group (.group (r.groupFields group))).frames.length
          = r.frames.length := r.store_length group _
      rw [continued, continued, closeAll, closeAll, hlength, ← hopened]
      rfl
  | ok w =>
      have hstored : opened.store field w
          = r.push (.group group ((r.groupFields group).set field w)) := by
        rw [← hopened]
        rfl
      rw [continued, hstored, hlineEnd, outcome_closes outer (List.cons_ne_nil _ _)]
      rfl

end Grouped

end Reading

-- What objects keep that are open at the line

namespace Reading

/-- An object that is open keeps these tokens. -/
def isKept (r : Reading) (source : List Token) : Bool :=
  r.frames.any fun
    | .object _ _ _ _ kept => kept == source
    | _ => false

/-- The tokens with others at their end, if an object keeps them. -/
def exchanged (r : Reading) (us vs source : List Token) : List Token :=
  if r.isKept source then source.take (source.length - us.length) ++ vs else source

section Kept

variable {r q : Reading} {tail : List Char} {us vs ts : List Token}

/-- What an object keeps goes on to the end of the text. -/
theorem length_le_of_isKept {source : List Token} (h : (r.extended us).isKept source = true) :
    us.length ≤ source.length := by
  rw [isKept, List.any_eq_true] at h
  obtain ⟨frame, hframe, hsource⟩ := h
  obtain ⟨below, -, rfl⟩ := List.mem_map.mp hframe
  cases below with
  | object key type properties holds kept =>
      have hsource : kept ++ us = source := by simpa [Frame.extended] using hsource
      rw [← hsource, List.length_append]
      omega
  | _ => exact absurd hsource Bool.false_ne_true

/-- The objects keep other tokens in a text that goes on in another way. -/
theorem extended_exchanged (r : Reading) (us vs : List Token) :
    r.extended vs = (r.extended us).sourced ((r.extended us).exchanged us vs) := by
  have hframes : ∀ frame ∈ r.frames, frame.extended vs
      = (frame.extended us).sourced ((r.extended us).exchanged us vs) := by
    intro frame hframe
    cases frame with
    | object key type properties holds source =>
        have hkept : (r.extended us).isKept (source ++ us) = true := by
          rw [isKept, List.any_eq_true]
          exact ⟨_, List.mem_map.mpr ⟨_, hframe, rfl⟩, by simp [Frame.extended]⟩
        have hlength : (source ++ us).length - us.length = source.length := by simp
        rw [Frame.extended, Frame.extended, Frame.sourced, exchanged, if_pos hkept, hlength,
          List.take_left]
    | _ => rfl
  rw [extended, List.map_congr_left hframes, extended, sourced, List.map_map]
  rfl

/-- On the way to a statement no object comes to be kept. -/
theorem Reaches.keeps {p : List Token → Bool} (h : Reaches tail r ts q us)
    (hkeeps : r.keeps p = false) (hadds : ∀ st ∈ r.statements tail ts, st.addsTo p = false) :
    q.keeps p = false := by
  induction h with
  | here => exact hkeeps
  | step hstep _ ih =>
      rw [statements, hstep] at hadds
      exact ih (keeps_step hkeeps (hadds _ List.mem_cons_self) hstep)
        fun st hst => hadds st (List.mem_cons_of_mem _ hst)

/-- A field of a group is given the same value with other tokens in objects that are not kept. -/
theorem grouped_sourced {p : List Token → Bool} {f : List Token → List Token}
    (hf : ∀ source, p source = false → f source = source) (h : r.keeps p = false)
    (hnew : ∀ n, p (ts.drop n) = false) {group field raw : String}
    (hadds : ∀ w, valueOf raw (Catalog.spelling? field (some group)) = .ok w →
      ∀ st ∈ (r.store group (.group ((r.groupFields group).set field w))).statements tail ts,
        st.addsTo p = false) :
    (r.sourced f).grouped tail group field raw ts = r.grouped tail group field raw ts := by
  unfold grouped
  simp only [groupFields_sourced, store_sourced]
  cases hvalue : valueOf raw (Catalog.spelling? field (some group)) with
  | error fault => rw [continued, continued, closeAll_stopped]
  | ok w =>
      rw [continued, continued]
      exact outcome_sourced hf ((keeps_store p r group _).trans h) hnew (hadds w hvalue)

end Kept

end Reading

section Replacing

variable {group field : String} {v rest : List Char}

theorem isHarmless_of_continuesName {c : Char} (h : continuesName c = true) :
    isHarmless c = true := by
  simp only [isHarmless, Bool.and_eq_true, bne_iff_ne]
  refine ⟨⟨⟨⟨?_, ?_⟩, ?_⟩, ?_⟩, ?_⟩
  all_goals
    rintro rfl
    exact absurd h (by decide)

theorem isHarmless_of_isName {cs : List Char} (h : isName cs = true) :
    ∀ c ∈ cs, isHarmless c = true := by
  intro c hc
  rcases mem_of_isName h hc with hname | rfl
  · exact isHarmless_of_continuesName hname
  · decide

/-- What the lines of the block have in front of the value. -/
def groupOpens (inner : Nat) (group field : String) : List Char :=
  group.toList ++ ' ' :: '\x7b' :: '\n' :: (List.replicate inner ' ' ++
    (field.toList ++ [':', ' ']))

/-- What they have behind it. -/
def groupCloses (outer : Nat) : List Char :=
  '\n' :: (List.replicate outer ' ' ++ ['\x7d'])

theorem groupChars_split (inner outer : Nat) (group field : String) (v : List Char) :
    groupChars inner outer group field v
      = groupOpens inner group field ++ (v ++ groupCloses outer) := by
  simp [groupChars, groupOpens, groupCloses]

theorem groupOpens_harmless (inner : Nat) (hnames : GroupField group field) :
    ∀ c ∈ groupOpens inner group field, isHarmless c = true := by
  intro c hc
  simp only [groupOpens, List.mem_append, List.mem_cons, List.mem_replicate, List.not_mem_nil,
    or_false] at hc
  rcases hc with hgroup | rfl | rfl | rfl | ⟨-, rfl⟩ | hfield | rfl | rfl
  · exact isHarmless_of_isName hnames.groupName c hgroup
  case inr.inr.inr.inr.inr.inl => exact isHarmless_of_isName hnames.fieldName c hfield
  all_goals decide

theorem groupCloses_harmless (outer : Nat) : ∀ c ∈ groupCloses outer, isHarmless c = true := by
  intro c hc
  simp only [groupCloses, List.mem_append, List.mem_cons, List.mem_replicate, List.not_mem_nil,
    or_false] at hc
  rcases hc with rfl | ⟨-, rfl⟩ | rfl
  all_goals decide

/-- No quote is closed in front of the value: it would have to be closed on its line. -/
theorem quotedLength?_groupOpens {quote : Char} (hquote : quote = '"' ∨ quote = '\'') (inner : Nat)
    (hnames : GroupField group field) (cs : List Char) :
    quotedLength? quote 0 (groupOpens inner group field ++ cs) = none := by
  have hfirst : groupOpens inner group field = (group.toList ++ [' ', '\x7b']) ++
      '\n' :: (List.replicate inner ' ' ++ (field.toList ++ [':', ' '])) := by
    simp [groupOpens]
  rw [hfirst, List.append_assoc]
  refine quotedLength?_harmless hquote
    (fun c hc => groupOpens_harmless inner hnames c (hfirst ▸ List.mem_append_left _ hc)) ?_
  rw [List.cons_append, quotedLength?_cons _ _ (by decide), if_pos rfl]
  rw [if_neg (by rcases hquote with rfl | rfl; all_goals decide)]

/-- A comment that is closed in the lines of the block, or behind them, is closed where the line
    with the point stands, or behind it. -/
theorem commentLength?_groupChars (inner outer : Nat) (hnames : GroupField group field)
    (hnone : commentLength? 0 (dottedChars group field v ++ rest) = none) :
    commentLength? 0 (groupChars inner outer group field v ++ rest) = none := by
  have hbehind : commentLength? 0 (v ++ rest) = none := by
    rw [dottedChars, List.append_assoc] at hnone
    exact @commentLength?_behind [':', ' '] _ (commentLength?_behind hnone)
  have hvalue : commentLength? 0 v = none := by
    rw [Option.eq_none_iff_forall_ne_some]
    intro m hm
    have hclosed := commentLength?_closed rest hm
    rw [hbehind] at hclosed
    exact absurd hclosed (by simp)
  rw [groupChars_split, List.append_assoc, List.append_assoc]
  refine commentLength?_harmless (groupOpens_harmless inner hnames)
    (commentLength?_open hvalue ?_ ?_)
  · exact commentLength?_harmless (groupCloses_harmless outer) (commentLength?_behind hbehind)
  · rw [groupCloses]
    simp

/-- The lines of the block close nothing that the line with the point leaves open. -/
theorem follows_group (inner outer : Nat) (hnames : GroupField group field) :
    Follows (dottedChars group field v ++ rest) (groupChars inner outer group field v ++ rest) := by
  refine ⟨fun q hq _ => ?_, commentLength?_groupChars inner outer hnames, fun c hc => ?_⟩
  · rw [groupChars_split, List.append_assoc]
    exact quotedLength?_groupOpens hq inner hnames _
  · -- The block starts with the name of the group.
    have hharmless : isHarmless c = true := by
      obtain ⟨d, ds, hd, -⟩ := isName_cons hnames.groupName
      rw [groupChars, hd] at hc
      obtain rfl : d = c := by simpa using hc
      exact isHarmless_of_isName hnames.groupName d (by rw [hd]; exact List.mem_cons_self)
    simp only [isHarmless, Bool.and_eq_true, bne_iff_ne] at hharmless
    exact ⟨hharmless.2, hharmless.1.2⟩

/-- In front of the place, a text is cut into the same tokens with the lines of the block. -/
theorem scan_group {source : List Char} {ts us : List Token} {t : Token} {front : List Char}
    (inner outer : Nat) (hsource : source = front ++ (dottedChars group field v ++ rest))
    (htokens : (scan source).tokens = ts ++ t :: us) (hseparated : isSeparated ts (t :: us) = true)
    (hplace : (withGaps ts).length + t.gap.length = front.length)
    (hnames : GroupField group field) (hv : WholeValue v) (hrest : ∀ c ∈ rest.head?, c = '\n') :
    t :: us = dottedTokens t.gap group field v (scan rest).tokens ∧
      (scan source).tail = (scan rest).tail ∧
      ∃ gap, scan (front ++ (groupChars inner outer group field v ++ rest))
        = ⟨ts ++ groupTokens gap (List.replicate inner ' ') (List.replicate outer ' ') group field v
            (scan rest).tokens, (scan rest).tail⟩ := by
  obtain ⟨as, bs, hsplit, hlength, hscan, -, hreplace⟩ := scan_replace htokens hseparated
  -- The text is parted where the line starts.
  rw [hplace] at hlength
  obtain ⟨rfl, rfl⟩ := List.append_inj (hsource.symm.trans hsplit) hlength.symm
  rw [scanFrom_dotted t.gap hnames hv hrest, Scan.after] at hscan
  have hus := htokens
  rw [hscan] at hus
  have hus := (List.append_cancel_left hus).symm
  have hname : t.endsValue = false := by
    rw [(List.cons.inj hus).1]
    rfl
  obtain ⟨m, gap, hm, hnew⟩ := hreplace _ (follows_group inner outer hnames)
    fun hends => absurd (hname.symm.trans hends) Bool.false_ne_true
  -- The name of the group is not taken by what was skipped before it.
  have hgroup := hnames.groupName
  obtain ⟨c, cs, hc, hspace⟩ := isName_cons hgroup
  have hzero : m = 0 := by
    rcases hm with hzero | habsorbs
    · exact hzero
    · cases habsorbs with
      | blanks => simp [groupChars, hc, hspace]
      | comment hline =>
          obtain rfl : c = '\n' := hline c (by simp [dottedChars, hc])
          rw [hc, isName, show startsName '\n' = false by decide, Bool.false_and] at hgroup
          exact absurd hgroup Bool.false_ne_true
  rw [hzero, List.drop_zero, scanFrom_group gap inner outer hnames hv, Scan.after] at hnew
  exact ⟨hus, by rw [hscan], gap, hnew⟩

end Replacing

/-- The statement is a line of a text that gives a field of a group with a point, in the block of
    the window, a widget or an object. The value is all that the line has behind the colon. -/
structure DottedField (s : Settings) (st : Statement) (front group field value rest : String) :
    Prop where
  /-- The reader meets the statement. -/
  met : st ∈ statements s (front ++ dottedLine group field value ++ rest)
  /-- The line is there. -/
  place : positionOf (scan (front ++ dottedLine group field value ++ rest).toList).tokens
    (st.rest.length + 1) = front.toList.length
  inside : st.before.frames ≠ []
  ungrouped : st.before.group? = none
  names : GroupField group field
  whole : WholeValue value.toList
  /-- The line ends behind the value. -/
  line : ∀ c ∈ rest.toList.head?, c = '\n'
  /-- No widget is declared in an object that is open at the line. -/
  free : ∀ other ∈ statements s (front ++ dottedLine group field value ++ rest),
    other.addsTo st.before.isKept = false

/-- Where the reader gets to such a line, it gets to the block in the other text, and goes on with
    the same behind them. -/
theorem Reading.Reaches.outcome_exchanged {r q : Reading} {tail : List Char}
    {ts us rest : List Token} {group field : String} {v gap : List Char}
    (h : Reaches tail r (ts ++ us) q us) (hus : us = dottedTokens gap group field v rest)
    (hnone : r.frames = []) (hframes : q.frames ≠ []) (hungrouped : q.group? = none)
    (hnames : GroupField group field) (hv : WholeValue v) (hends : valueEnds rest = true)
    (hfree : ∀ st ∈ r.statements tail (ts ++ us), st.addsTo q.isKept = false)
    (behind inner outer : List Char) :
    r.outcome tail (ts ++ groupTokens behind inner outer group field v rest)
      = r.outcome tail (ts ++ us) := by
  generalize hvs : groupTokens behind inner outer group field v rest = vs
  -- The line starts with a name, and nothing ends there.
  have hseam : Seam us vs 0 := by
    rw [hus]
    exact ⟨fun hvalue => absurd hvalue Bool.false_ne_true,
      fun hline => absurd hline Bool.false_ne_true⟩
  have hlength : rest.length + 2 ≤ us.length := by
    rw [hus, dottedTokens, valueTokens, List.length_cons, List.length_cons, List.length_append]
    omega
  have hextended : ∀ ws, r.extended ws = r := by
    intro ws
    obtain ⟨window, roots, declared, frames⟩ := r
    obtain rfl : frames = [] := hnone
    rfl
  have hreaches := h
  rw [← hextended us] at hreaches
  obtain ⟨p, j, hj, hq, hother⟩ := hreaches.alike hseam (by simp [hus, dottedTokens]) tail
  obtain rfl := Nat.le_zero.mp hj
  rw [hextended, List.drop_zero, p.extended_exchanged us vs, ← hq] at hother
  -- In the other text the objects that are open have kept other tokens.
  generalize hexchanged : q.exchanged us vs = f at hother
  have hframes' : (q.sourced f).frames ≠ [] := fun hnil => hframes (List.map_eq_nil_iff.mp hnil)
  rw [hother.outcome, h.outcome, ← hvs, outcome_group behind inner outer hframes' hnames hv, hus,
    outcome_dotted gap hframes hungrouped hnames hv hends]
  refine grouped_sourced (fun source hsource => ?_) (h.keeps ?_ hfree) (fun n => ?_)
    (fun w hvalue st hst => hfree st ?_)
  · rw [← hexchanged, exchanged, hsource, if_neg Bool.false_ne_true]
  · rw [Reading.keeps, hnone, keepsAny]
  · -- What is left behind the line is less than any object has kept.
    rw [Bool.eq_false_iff]
    intro hkept
    rw [hq] at hkept
    have hle := length_le_of_isKept hkept
    rw [List.length_drop] at hle
    omega
  · have hmet := mem_statements_dotted gap hframes hungrouped hnames hv hends hvalue hst
    rw [← hus] at hmet
    exact mem_statements_iff.mpr (h.trans (mem_statements_iff.mp hmet))

/-- A line that gives a field of a group with a point can be written as a block, whatever the
    group is and has been given before. The document is the same. -/
theorem dotted_eq_group (s : Settings) {st : Statement} {front group field value rest : String}
    (h : DottedField s st front group field value rest) (inner outer : Nat) :
    (readDocument s (front ++ groupLines inner outer group field value ++ rest)).1
      = (readDocument s (front ++ dottedLine group field value ++ rest)).1 := by
  obtain ⟨ts, htokens, hreaches, hseparated⟩ := exists_place h.met
  have hplace := h.place
  rw [htokens, positionOf_append] at hplace
  have hsource : (front ++ dottedLine group field value ++ rest).toList
      = front.toList ++ (dottedChars group field value.toList ++ rest.toList) := by
    rw [String.toList_append, String.toList_append, dottedLine_toList, List.append_assoc]
  have hother : (front ++ groupLines inner outer group field value ++ rest).toList
      = front.toList ++ (groupChars inner outer group field value.toList ++ rest.toList) := by
    rw [String.toList_append, String.toList_append, groupLines_toList, List.append_assoc]
  obtain ⟨hus, htail, gap, hscan⟩ :=
    scan_group inner outer hsource htokens hseparated hplace h.names h.whole h.line
  -- The tokens differ in the line alone, and reading goes on behind it in the same way.
  refine readDocument_congr ?_
  rw [hother, hscan, htokens, htail]
  have hfree := h.free
  rw [statements, htokens] at hfree
  rw [htail] at hreaches hfree
  exact hreaches.outcome_exchanged hus rfl h.inside h.ungrouped h.names h.whole
    (valueEnds_scan h.line) hfree _ _ _

/-- A widget with an object in which a group is given one of its fields. -/
def shadowFront : String :=
  "Item \x7b a: Shadow \x7b border.color: \"red\"\n"

/-- What stands behind another field. There is an object that will be kept as its source text. -/
def shadowRest : String :=
  "\n\x7d b: Model \x7b Item \x7b \x7d \x7d \x7d"

theorem shadowWidth_grouped :
    ∃ st, DottedField {} st shadowFront "border" "width" "max(1,\n2)" shadowRest ∧
      (readDocument {}
          (shadowFront ++ groupLines 4 2 "border" "width" "max(1,\n2)" ++ shadowRest)).1
        = (readDocument {}
          (shadowFront ++ dottedLine "border" "width" "max(1,\n2)" ++ shadowRest)).1 := by
  have hmet : (statements {} (shadowFront ++ dottedLine "border" "width" "max(1,\n2)" ++
      shadowRest)).any (fun st =>
        positionOf (scan (shadowFront ++ dottedLine "border" "width" "max(1,\n2)" ++
            shadowRest).toList).tokens (st.rest.length + 1) == shadowFront.toList.length &&
          !st.before.frames.isEmpty && st.before.group?.isNone &&
          (statements {} (shadowFront ++ dottedLine "border" "width" "max(1,\n2)" ++
            shadowRest)).all fun other => !other.addsTo st.before.isKept) = true := by
    decide +kernel
  obtain ⟨st, hst, hline⟩ := List.any_eq_true.mp hmet
  simp only [Bool.and_eq_true, beq_iff_eq, Bool.not_eq_true', List.isEmpty_eq_false_iff,
    Option.isNone_iff_eq_none, List.all_eq_true] at hline
  obtain ⟨⟨⟨hplace, hinside⟩, hungrouped⟩, hfree⟩ := hline
  have hline : shadowRest.toList.head? = some '\n' := by decide +kernel
  have hfield : DottedField {} st shadowFront "border" "width" "max(1,\n2)" shadowRest :=
    { met := hst, place := hplace, inside := hinside, ungrouped := hungrouped, free := hfree
      names := by constructor; all_goals decide +kernel
      whole := by constructor; all_goals decide +kernel
      line := fun c hc => (Option.some.inj (hline.symm.trans hc)).symm }
  exact ⟨st, hfield, dotted_eq_group {} hfield 4 2⟩

end Markup

end WidgetSync
