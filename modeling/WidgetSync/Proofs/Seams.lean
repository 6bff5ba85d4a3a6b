import WidgetSync.Proofs.Sources

/-!
# Statements in Front of Other Tokens

A statement does the same if other tokens come behind the next one.

The reader takes a statement from the tokens that are left, and looks no further than to where the
next statement starts, if there is one. So what stands there and behind may be replaced, and the
statements in front do what they did, up to the place where the tokens differ. A value has to end
there in any case (`Seam`). The line of an import ends with the line, and may take along some of the
new tokens if it does not end there any more. At the end of a text it is different: brackets that
are open go on over whatever is put there.

The readings are not quite the same, since objects keep the tokens that follow them. So they are
compared as one reading with different tokens put behind those that its objects keep.

## Main definitions

* `Reading.extended`: A reading with more tokens behind those that its objects keep.
* `EndsBefore`: A value ends before some tokens.
* `Statement.unclosed`: A statement that gives a value which is not closed.
* `Seam`: Tokens in front of which a statement that ends there ends as well.
* `Step.Alike`: Steps in front of different tokens.

## Theorems

* `EndsBefore.valueText`: A value that ends before the tokens does not depend on them.
* `valueEnds_of_name`: Nor does a statement of one name.
* `property_alike`, `declaration_alike`: Nor does a property or a declaration.
* `step_alike`: No statement does that ends there.
-/

namespace WidgetSync

namespace Markup

namespace Reading

/-- The reading with more tokens behind those that its objects keep. -/
def extended (r : Reading) (rest : List Token) : Reading :=
  { r with frames := r.frames.map (Frame.extended rest) }

theorem extended_eq (r : Reading) (rest : List Token) :
    r.extended rest = r.sourced fun source => source ++ rest := by
  have hframe : Frame.extended rest = Frame.sourced fun source => source ++ rest := by
    funext frame
    cases frame with
    | _ => rfl
  rw [extended, sourced, hframe]

section Extended

variable (r : Reading) (rest : List Token)

theorem extended_nil : r.extended [] = r := by
  have hsame : ∀ frame : Frame, frame.extended [] = frame := by
    intro frame
    cases frame with
    | object key type properties holds source => rw [Frame.extended, List.append_nil]
    | _ => rfl
  rw [extended, List.map_congr_left fun frame _ => hsame frame, List.map_id']

theorem store_extended (key : String) (v : Value) :
    (r.extended rest).store key v = (r.store key v).extended rest := by
  rw [extended_eq, extended_eq, store_sourced]

theorem groupFields_extended (name : String) :
    (r.extended rest).groupFields name = r.groupFields name := by
  rw [extended_eq, groupFields_sourced]

/-- A block closes in the same way, as the source text of an object ends where it did. -/
theorem close_extended (stopped : Bool) (ts : List Token) :
    (r.extended rest).close stopped (ts ++ rest) = (r.close stopped ts).extended rest := by
  obtain ⟨window, roots, declared, frames⟩ := r
  rcases frames with _ | ⟨frame, frames⟩
  · rfl
  · have hbelow := extended_eq ⟨window, roots, declared, frames⟩ rest
    cases frame with
    | window => rfl
    | node n =>
        refine Eq.trans ?_ (extended_eq _ rest).symm
        exact (congrArg (·.adopt n) hbelow).trans (adopt_sourced _ _ n)
    | group name fields => exact store_extended ⟨window, roots, declared, frames⟩ rest name _
    | object key type properties holds source =>
        have hclose : (Reading.extended ⟨window, roots, declared,
              .object key type properties holds source :: frames⟩ rest).close stopped (ts ++ rest)
            = (Reading.extended ⟨window, roots, declared, frames⟩ rest).store key
              (if holds && !stopped then .raw (objectText (source ++ rest) (ts ++ rest))
               else .object (.text type) properties) := rfl
        rw [hclose, objectText_append]
        exact store_extended ⟨window, roots, declared, frames⟩ rest key _

end Extended

end Reading

-- Where a value ends

/-- A value that comes up to these tokens ends there. -/
def valueEnds : List Token → Bool
  | [] => true
  | t :: _ => t.endsValue

/-- So does the line of an import. -/
def lineEnds : List Token → Bool
  | [] => true
  | t :: _ => t.kind == .newline

/-- A value that starts with the first tokens ends before the others. -/
def EndsBefore (us ts : List Token) : Prop :=
  depthAfter 0 ts = none ∨ depthAfter 0 ts = some 0 ∧ valueEnds us = true

/-- Brackets of a value are open where the tokens end. -/
def bracketsOpen (ts : List Token) : Bool :=
  match depthAfter 0 ts with
  | some (_ + 1) => true
  | _ => false

section Values

variable {us vs ts : List Token}

theorem starts_of_valueEnds (h : valueEnds us = true) {kind : Kind}
    (hkind : Token.endsValue ⟨kind, [], []⟩ = false) : starts kind us = false := by
  cases us with
  | nil => rfl
  | cons u us =>
      rw [starts, beq_eq_false_iff_ne]
      rintro rfl
      have hends : u.endsValue = false := hkind
      rw [valueEnds, hends] at h
      exact absurd h Bool.false_ne_true

/-- The line of an import that takes none of the tokens ends in front of them. -/
theorem lineEnds_of_takeWhile (h : (us.takeWhile fun t => t.kind != .newline).length ≤ 0) :
    lineEnds us = true := by
  cases us with
  | nil => rfl
  | cons u us =>
      rw [List.takeWhile_cons] at h
      split at h
      · exact absurd h (Nat.not_succ_le_zero _)
      · rename_i hline
        simpa [lineEnds] using hline

/-- Where a line ends, so does a value. -/
theorem valueEnds_of_lineEnds (h : lineEnds us = true) : valueEnds us = true := by
  cases us with
  | nil => rfl
  | cons u us =>
      have hline : u.kind = .newline := beq_iff_eq.mp h
      rw [valueEnds, Token.endsValue, hline]
      rfl

theorem valueLength_of_valueEnds (h : valueEnds us = true) : valueLength 0 us = 0 := by
  cases us with
  | nil => rfl
  | cons u us => rw [valueLength, if_pos ⟨rfl, h⟩]

/-- A value that ends before the tokens do is shorter than they are. -/
theorem valueLength_lt_of_depthAfter {depth : Nat} (h : depthAfter depth ts = none) :
    valueLength depth ts < ts.length := by
  induction ts generalizing depth with
  | nil => exact absurd h (Option.some_ne_none depth)
  | cons t ts ih =>
      rw [List.length_cons]
      by_cases hends : depth = 0 ∧ t.endsValue = true
      · rw [valueLength_stop hends]
        exact Nat.succ_pos _
      · rw [depthAfter_go hends] at h
        rw [valueLength_go hends]
        exact Nat.succ_lt_succ (ih h)

/-- A value that takes none of the others ends before them. -/
theorem endsBefore_of_length (hne : us ≠ [])
    (h : valueLength 0 (ts ++ us) ≤ ts.length) : EndsBefore us ts := by
  cases hdepth : depthAfter 0 ts with
  | none => exact .inl hdepth
  | some left =>
      rw [valueLength_behind hdepth] at h
      cases us with
      | nil => exact absurd rfl hne
      | cons u us =>
          by_cases hends : left = 0 ∧ u.endsValue = true
          · obtain ⟨rfl, hends⟩ := hends
            exact .inr ⟨hdepth, hends⟩
          · rw [valueLength_go hends] at h
            omega

/-- At the end of a text, a value ends if its brackets are closed. -/
theorem endsBefore_nil (h : bracketsOpen ts = false) : EndsBefore [] ts := by
  unfold bracketsOpen at h
  cases hdepth : depthAfter 0 ts with
  | none => exact .inl hdepth
  | some left =>
      cases left with
      | zero => exact .inr ⟨hdepth, rfl⟩
      | succ left =>
          rw [hdepth] at h
          exact absurd h Bool.noConfusion

theorem EndsBefore.valueLength (h : EndsBefore us ts) :
    Markup.valueLength 0 (ts ++ us) = Markup.valueLength 0 ts := by
  rcases h with hdepth | ⟨hdepth, hends⟩
  · exact valueLength_inside (valueLength_lt_of_depthAfter hdepth) us
  · have halone := valueLength_behind hdepth []
    rw [List.append_nil] at halone
    rw [valueLength_behind hdepth, halone, valueLength_of_valueEnds hends, Markup.valueLength]

theorem EndsBefore.valueText (h : EndsBefore us ts) :
    Markup.valueText (ts ++ us) = Markup.valueText ts := by
  rw [Markup.valueText, Markup.valueText, h.valueLength,
    List.take_append_of_le_length (valueLength_le 0 ts)]

/-- A value with brackets open goes on behind the tokens. -/
theorem valueLength_over (h : bracketsOpen ts = true) (us : List Token) :
    ∃ j, valueLength 0 (ts ++ us) = ts.length + j := by
  unfold bracketsOpen at h
  split at h
  · rename_i left hdepth
    exact ⟨_, valueLength_behind hdepth us⟩
  · exact absurd h Bool.noConfusion

end Values

namespace Statement

/-- A value between braces, or one with brackets in it, goes on to the end of the text. -/
def valueUnclosed : List Token → Bool
  | [] => false
  | v :: us =>
    if v.kind = .opening then (blockLength? 0 us).isNone
    else !opensObject (v :: us) && bracketsOpen (v :: us)

/-- So does the value behind some words and a colon. -/
def declarationUnclosed (ts : List Token) : Bool :=
  match ts.dropWhile fun t => t.kind == .name with
  | [] => false
  | c :: cs => c.kind == .colon && bracketsOpen cs

/-- The statement gives a value that is not closed before the text ends. -/
def unclosed (st : Statement) : Bool :=
  !st.before.frames.isEmpty && st.first.kind == .name && !starts .opening st.rest &&
    if starts .colon st.rest then valueUnclosed (st.rest.drop 1)
    else declarationWords.contains st.first.text && declarationUnclosed (st.first :: st.rest)

end Statement

/-- Tokens in front of which a statement that ends there ends as well. An import may take some of
    them along. -/
structure Seam (us vs : List Token) (k : Nat) : Prop where
  value : valueEnds us = true → valueEnds vs = true
  line : lineEnds us = true → (vs.takeWhile fun t => t.kind != .newline).length ≤ k

/-- A step goes on no further than so many tokens. -/
def Step.Within (n : Nat) : Step → Prop
  | .next _ used _ => used ≤ n
  | .stop _ => False

/-- Two steps in front of different tokens. Both read the same and stand at the same place, or the
    first is in front of those tokens and the second has taken some of them along. -/
inductive Step.Alike (us vs : List Token) (k : Nat) (ts : List Token) : Step → Step → Prop where
  /-- Both go on at the same place. -/
  | next (s : Reading) {used : Nat} (remarks others : List Remark) (h : used ≤ ts.length) :
      Alike us vs k ts (.next (s.extended us) used remarks) (.next (s.extended vs) used others)
  /-- The second goes on over some tokens. At the end of a text it may be over any number, as
      what is skipped there may have brackets open. -/
  | passed (s : Reading) {used further j : Nat} (remarks others : List Remark)
      (h : ts.length ≤ used) (hfurther : further = ts.length + j) (hj : us = [] ∨ j ≤ k) :
      Alike us vs k ts (.next (s.extended us) used remarks) (.next (s.extended vs) further others)
  /-- Both stop. -/
  | stop (s : Reading) : Alike us vs k ts (.stop (s.extended us)) (.stop (s.extended vs))

section Alike

variable {r : Reading} {us vs ts : List Token} {k : Nat}

/-- A value in front of the tokens is the same in front of the others. -/
theorem Seam.endsBefore (h : Seam us vs k) (hends : EndsBefore us ts) : EndsBefore vs ts := by
  rcases hends with hdepth | ⟨hdepth, hends⟩
  · exact .inl hdepth
  · exact .inr ⟨hdepth, h.value hends⟩

theorem Step.Alike.valued (r : Reading) (key raw : String) {used : Nat} (hused : used ≤ ts.length) :
    Step.Alike us vs k ts ((r.extended us).valued key raw used)
      ((r.extended vs).valued key raw used) := by
  have hsettles := valued_settles r key raw used
  rw [r.extended_eq us, r.extended_eq vs, r.valued_sourced, r.valued_sourced]
  cases hstep : r.valued key raw used with
  | next s m remarks =>
      rw [hstep] at hsettles
      rw [Step.sourced, Step.sourced, ← s.extended_eq us, ← s.extended_eq vs]
      exact .next s remarks remarks (hsettles.2 ▸ hused)
  | stop s =>
      rw [Step.sourced, Step.sourced, ← s.extended_eq us, ← s.extended_eq vs]
      exact .stop s

/-- Skipping some words and what follows them up to the end of a value. -/
theorem Step.Alike.skipped (hseam : Seam us vs k) {t : Token} {words others : List Token}
    (hsplit : t :: ts = words ++ others)
    (hwithin : us ≠ [] → words.length + valueLength 0 (others ++ us) - 1 ≤ ts.length)
    (remarks remarks' : List Remark) :
    Step.Alike us vs k ts
      (.next (r.extended us) (words.length + valueLength 0 (others ++ us) - 1) remarks)
      (.next (r.extended vs) (words.length + valueLength 0 (others ++ vs) - 1) remarks') := by
  have hlength := congrArg List.length hsplit
  rw [List.length_cons, List.length_append] at hlength
  have hle := valueLength_le 0 others
  by_cases hends : EndsBefore us others
  · rw [hends.valueLength, (hseam.endsBefore hends).valueLength]
    exact .next r remarks remarks' (by omega)
  · -- At the end of the text the brackets may be open. The places differ then.
    by_cases hne : us = []
    · subst hne
      have hopen : bracketsOpen others = true := by
        by_contra hclosed
        exact hends (endsBefore_nil (Bool.eq_false_iff.mpr hclosed))
      obtain ⟨i, hi⟩ := valueLength_over hopen []
      obtain ⟨j, hj⟩ := valueLength_over hopen vs
      rw [hi, hj]
      exact .passed r remarks remarks' (j := j) (by omega) (by omega) (.inl rfl)
    · exact absurd (endsBefore_of_length hne (by have := hwithin hne; omega)) hends

theorem Step.Within.of_valued {key raw : String} {used n : Nat}
    (h : (r.valued key raw used).Within n) : used ≤ n := by
  have hsettles := valued_settles r key raw used
  generalize r.valued key raw used = step at *
  cases step with
  | next s m remarks =>
      rw [← hsettles.2]
      exact h
  | stop s => exact h.elim

/-- The value of a property has a colon in front. -/
theorem Step.Within.of_property {tail : List Char} {key : String} {n : Nat}
    (h : (r.property tail key ts).Within n) : 1 ≤ n := by
  cases ts using Reading.value_cases with
  | missing => exact h
  | unclosed v vs hopens hblock =>
      rw [Reading.property_open r tail key hopens hblock] at h
      exact Nat.le_trans (Nat.le_add_left 1 _) h
  | block v vs m hopens hblock =>
      rw [Reading.property_block r tail key hopens hblock] at h
      exact Nat.le_trans (Nat.le_add_left 1 _) h
  | object v vs hopens hobject =>
      rw [Reading.property_object r tail key hopens hobject] at h
      exact Nat.le_trans (by decide) h
  | plain v vs hopens hobject =>
      rw [Reading.property_value r tail key hopens hobject] at h
      exact Nat.le_trans (Nat.le_add_left 1 _) h.of_valued

/-- The value of a declaration ends where it is taken. -/
theorem Step.Within.of_declaredValue {words : List Token} {raw : String} {used n : Nat}
    (h : (r.declaredValue words raw used).Within n) : used ≤ n := by
  unfold Reading.declaredValue at h
  split at h
  all_goals exact h

/-- The words of a declaration end in front of the tokens, or a value does. -/
theorem valueEnds_of_declaration {words : List Token} (hwords : ∀ t ∈ words, t.kind = .name)
    (hne : words ≠ []) (hcolon : 2 ≤ words.length ∨ starts .colon us = false)
    (hwithin : us ≠ [] → (r.declaration (words ++ us)).Within (words.length - 1)) :
    valueEnds us = true := by
  have hone : 1 ≤ words.length := List.length_pos_iff.mpr hne
  cases us with
  | nil => rfl
  | cons u us =>
      have hwithin := hwithin (List.cons_ne_nil u us)
      by_cases hname : u.kind = .name
      · -- A further word would be taken.
        rcases names_split us with hall | ⟨more, c, cs, rfl, hmore, hc⟩
        · rw [Reading.declaration_names r
              (by simpa [hname, or_imp, forall_and] using ⟨hwords, hall⟩),
            Step.Within, List.length_append, List.length_cons] at hwithin
          omega
        · rw [← List.cons_append, ← List.append_assoc, Reading.declaration_split r cs
            (by simpa [hname, or_imp, forall_and] using ⟨hwords, hmore⟩) hc] at hwithin
          split at hwithin
          · have hused := hwithin.of_declaredValue
            rw [List.length_append, List.length_cons] at hused
            omega
          · rw [Step.Within, List.length_append, List.length_cons] at hwithin
            omega
      · rw [Reading.declaration_split r us hwords hname] at hwithin
        split at hwithin
        · have hused := hwithin.of_declaredValue
          omega
        · rw [Step.Within] at hwithin
          rcases @endsBefore_of_length (u :: us) [] (List.cons_ne_nil u us)
            (by rw [List.nil_append, List.length_nil]; omega) with hdepth | ⟨-, hends⟩
          · exact absurd hdepth (by simp [depthAfter])
          · exact hends

/-- A name that is a statement by itself stands in front of the end of a value. -/
theorem valueEnds_of_name {t : Token} {tail : List Char} (ht : t.kind = .name)
    (hwithin : us ≠ [] → (r.step tail t us).Within 0) : valueEnds us = true := by
  by_cases hne : us = []
  · rw [hne]
    rfl
  have hwithin := hwithin hne
  have hends : t.endsValue = false := by
    rw [Token.endsValue, ht]
    rfl
  -- What is skipped has the name in front, and nothing else.
  have hskip : (r.skip t us).Within 0 → valueEnds us = true := by
    intro hle
    have hone : valueLength 0 ([t] ++ us) ≤ [t].length := by
      rw [Reading.skip, Step.Within] at hle
      rw [List.singleton_append, List.length_singleton]
      omega
    rcases endsBefore_of_length hne hone with hdepth | ⟨-, hafter⟩
    · rw [depthAfter_go fun hstop => Bool.false_ne_true (hends.symm.trans hstop.2)] at hdepth
      exact absurd hdepth (Option.some_ne_none _)
    · exact hafter
  have hopened : ∀ {frame : Reading}, (Step.next frame 1 []).Within 0 → valueEnds us = true :=
    fun h => absurd h (Nat.not_succ_le_zero 0)
  by_cases hframes : r.frames = []
  · rw [Reading.step_topLevel hframes, Reading.topLevel, if_neg (by simp [ht])] at hwithin
    split at hwithin
    · exact valueEnds_of_lineEnds (lineEnds_of_takeWhile hwithin)
    · split at hwithin
      · exact hopened hwithin
      · rw [if_neg (by simp [ht])] at hwithin
        exact hskip hwithin
  · rcases hasForm t us with ⟨form, hform⟩
    rw [hform.step hframes] at hwithin
    cases hform with
    | closing h => exact absurd (h.symm.trans ht) Kind.noConfusion
    | ending h => exact absurd h (by simp [ht])
    | nameless _ _ hname => exact absurd ht hname
    | widget => exact hopened hwithin
    | group => exact hopened hwithin
    | value => exact absurd (Step.Within.of_property hwithin) (by decide)
    | declaration _ _ hcolon =>
        exact valueEnds_of_declaration (by simpa using ht) (List.cons_ne_nil t [])
          (.inr hcolon) fun _ => hwithin
    | unused => exact hskip hwithin

/-- A value that is neither a block nor an object ends before the tokens. -/
theorem endsBefore_of_property {tail : List Char} {key : String} {v : Token} {ws : List Token}
    (hsplit : ts ++ us = v :: ws) (hopens : v.kind ≠ .opening)
    (hobject : (v.isCapital && starts .opening ws) = false)
    (hwithin : us ≠ [] → (r.property tail key (ts ++ us)).Within (ts.length + 1))
    (hbrackets : us = [] → bracketsOpen ts = false) : EndsBefore us ts := by
  by_cases hne : us = []
  · rw [hne]
    exact endsBefore_nil (hbrackets hne)
  · have hwithin := hwithin hne
    rw [hsplit, Reading.property_value _ tail key hopens hobject] at hwithin
    have hused := hwithin.of_valued
    refine endsBefore_of_length hne ?_
    rw [hsplit]
    omega

/-- A property that takes nothing has no value, and a value ends there. -/
theorem valueEnds_of_property {tail : List Char} {key : String}
    (hwithin : us ≠ [] → (r.property tail key us).Within 1) : valueEnds us = true := by
  have htaken : ∀ n, ¬n + 2 ≤ 1 := by
    intro n
    omega
  cases us using Reading.value_cases with
  | missing => rfl
  | unclosed u us hopens hblock =>
      have hwithin := hwithin (List.cons_ne_nil u us)
      rw [Reading.property_open _ tail key hopens hblock] at hwithin
      exact absurd hwithin (htaken _)
  | block u us m hopens hblock =>
      have hwithin := hwithin (List.cons_ne_nil u us)
      rw [Reading.property_block _ tail key hopens hblock] at hwithin
      exact absurd hwithin (htaken _)
  | object u us hopens hobject =>
      have hwithin := hwithin (List.cons_ne_nil u us)
      rw [Reading.property_object _ tail key hopens hobject] at hwithin
      exact absurd hwithin (htaken _)
  | plain u us hopens hobject =>
      rcases @endsBefore_of_property r (u :: us) [] tail key u us rfl hopens hobject hwithin
        (fun _ => rfl) with hdepth | ⟨-, hends⟩
      · exact absurd hdepth (by simp [depthAfter])
      · exact hends

/-- Where a value ends there is none. -/
theorem Reading.property_missing {ts : List Token} (hends : valueEnds ts = true) (r : Reading)
    (tail : List Char) (key : String) :
    ∃ remarks, r.property tail key ts = .next r 1 remarks := by
  cases ts with
  | nil => exact ⟨_, rfl⟩
  | cons t ts =>
      have hopens : t.kind ≠ .opening := by
        intro hopens
        rw [valueEnds, Token.endsValue, hopens] at hends
        exact absurd hends (by decide)
      have hcapital : t.isCapital = false := by
        rw [Token.isCapital, Bool.and_eq_false_iff, beq_eq_false_iff_ne]
        refine .inl fun hname => ?_
        rw [valueEnds, Token.endsValue, hname] at hends
        exact absurd hends (by decide)
      have hnone : valueText (t :: ts) = "" := by
        rw [valueText, valueLength_of_valueEnds hends]
        rfl
      rw [Reading.property_value _ tail key hopens (by rw [hcapital, Bool.false_and]), hnone,
        valueLength_of_valueEnds hends]
      exact ⟨_, rfl⟩

section Property

variable {tail : List Char} {key : String} {v : Token}

/-- The brace that closes a block is there. -/
theorem blockLength?_of_property (hopens : v.kind = .opening)
    (hwithin : us ≠ [] → (r.property tail key (v :: (ts ++ us))).Within (ts.length + 2))
    (hclosed : us = [] → (blockLength? 0 ts).isSome = true) : ∃ n, blockLength? 0 ts = some n := by
  by_cases hne : us = []
  · exact Option.isSome_iff_exists.mp (hclosed hne)
  · have hwithin := hwithin hne
    cases hblock : blockLength? 0 (ts ++ us) with
    | none =>
        rw [Reading.property_open _ tail key hopens hblock, Step.Within,
          List.length_append] at hwithin
        have hpos := List.length_pos_iff.mpr hne
        omega
    | some n =>
        rw [Reading.property_block _ tail key hopens hblock, Step.Within] at hwithin
        exact ⟨n, blockLength?_front hblock (by omega)⟩

/-- So is the brace that opens an object. -/
theorem ne_nil_of_object (hopens : v.kind ≠ .opening)
    (hobject : (v.isCapital && starts .opening (ts ++ us)) = true)
    (hwithin : us ≠ [] → (r.property tail key (v :: (ts ++ us))).Within (ts.length + 2)) :
    ts ≠ [] := by
  rintro rfl
  by_cases hne : us = []
  · rw [hne] at hobject
    simp [starts] at hobject
  · have hwithin := hwithin hne
    rw [Reading.property_object _ tail key hopens hobject] at hwithin
    exact absurd hwithin (by decide : ¬3 ≤ 2)

/-- A value in front of the tokens is no object in front of the others. -/
theorem Seam.plain (hseam : Seam us vs k) (hends : EndsBefore us (v :: ts))
    (hobject : (v.isCapital && starts .opening (ts ++ us)) = false) :
    (v.isCapital && starts .opening (ts ++ vs)) = false := by
  by_cases hne : ts = []
  · rcases hseam.endsBefore hends with hdepth | ⟨-, hafter⟩
    · -- The value is empty, and its end is no name.
      rw [hne] at hdepth
      rw [Reading.isCapital_eq_false (valueLength_lt_of_depthAfter hdepth), Bool.false_and]
    · rw [hne, List.nil_append, starts_of_valueEnds hafter rfl, Bool.and_false]
  · rwa [starts_append hne, ← starts_append hne us]

end Property

/-- A property whose value is closed. The others may come in front of the value. -/
theorem property_alike (hseam : Seam us vs k) (r : Reading) (tail others : List Char) (key : String)
    (c : Token)
    (hwithin : us ≠ [] →
      ((r.extended us).property tail key (ts ++ us)).Within (ts.length + 1))
    (hclosed : us = [] → Statement.valueUnclosed ts = false) :
    Step.Alike us vs k (c :: ts) ((r.extended us).property tail key (ts ++ us))
      ((r.extended vs).property others key (ts ++ vs)) := by
  cases ts with
  | nil =>
      rw [List.nil_append] at hwithin ⊢
      have hends := valueEnds_of_property hwithin
      obtain ⟨remarks, hus⟩ := (r.extended us).property_missing hends tail key
      obtain ⟨remarks', hvs⟩ := (r.extended vs).property_missing (hseam.value hends) others key
      rw [List.nil_append, hus, hvs]
      exact .next r remarks remarks' (Nat.le_refl 1)
  | cons v ts =>
      have hcount : (c :: v :: ts).length = ts.length + 2 := rfl
      rw [List.cons_append] at hwithin ⊢
      rw [List.cons_append]
      -- The value is a block, an object that opens, or goes on to where a value ends.
      by_cases hopens : v.kind = .opening
      · obtain ⟨n, hblock⟩ := blockLength?_of_property hopens hwithin fun hus => by
          simpa [Statement.valueUnclosed, hopens] using hclosed hus
        have hlt := blockLength?_lt hblock
        rw [Reading.property_block _ tail key hopens (blockLength?_append hblock _),
          Reading.property_block _ others key hopens (blockLength?_append hblock _),
          Reading.insideText_append hlt, Reading.insideText_append hlt, Reading.store_extended,
          Reading.store_extended]
        exact .next _ [] [] (by omega)
      · by_cases hobject : (v.isCapital && starts .opening (ts ++ us)) = true
        · have hne := ne_nil_of_object hopens hobject hwithin
          rw [Reading.property_object _ tail key hopens hobject]
          rw [starts_append hne] at hobject
          rw [Reading.property_object _ others key hopens
            (by rw [starts_append hne]; exact hobject)]
          have hpos := List.length_pos_iff.mpr hne
          exact .next (r.push (.object key v.text [] false (v :: ts))) [] [] (by omega)
        · rw [Bool.not_eq_true] at hobject
          have hends : EndsBefore us (v :: ts) :=
            endsBefore_of_property rfl hopens hobject hwithin fun hus => by
              have hclosed := hclosed hus
              rw [hus, List.append_nil] at hobject
              simpa [Statement.valueUnclosed, hopens, opensObject, hobject] using hclosed
          have hends' := hseam.endsBefore hends
          rw [Reading.property_value _ tail key hopens hobject,
            Reading.property_value _ others key hopens (hseam.plain hends hobject),
            ← List.cons_append, ← List.cons_append, hends.valueText, hends.valueLength,
            hends'.valueText, hends'.valueLength]
          have hle := valueLength_le 0 (v :: ts)
          rw [List.length_cons] at hle
          exact .valued r key _ (by omega)

/-- Words without a colon behind them, where a value ends, are all that is taken. -/
theorem Reading.declaration_words {words ts : List Token} (hwords : ∀ t ∈ words, t.kind = .name)
    (hends : valueEnds ts = true) (r : Reading) :
    ∃ remarks, r.declaration (words ++ ts) = .next r (words.length - 1) remarks := by
  cases ts with
  | nil =>
      rw [List.append_nil, Reading.declaration_names r hwords]
      exact ⟨_, rfl⟩
  | cons t ts =>
      have hname : t.kind ≠ .name := by
        intro hname
        rw [valueEnds, Token.endsValue, hname] at hends
        exact absurd hends (by decide)
      have hcolon : t.kind ≠ .colon := by
        intro hcolon
        rw [valueEnds, Token.endsValue, hcolon] at hends
        exact absurd hends (by decide)
      rw [Reading.declaration_split r ts hwords hname, if_neg fun h => hcolon h.1,
        valueLength_of_valueEnds hends]
      exact ⟨_, rfl⟩

/-- The value of a declaration ends before the tokens. -/
theorem endsBefore_of_declaration {words cs : List Token} {raw : String} {n : Nat}
    (hwithin : us ≠ [] →
      (r.declaredValue words raw (words.length + valueLength 0 (cs ++ us))).Within n)
    (hlength : n ≤ words.length + cs.length) (hclosed : us = [] → bracketsOpen cs = false) :
    EndsBefore us cs := by
  by_cases hne : us = []
  · rw [hne]
    exact endsBefore_nil (hclosed hne)
  · have hused := (hwithin hne).of_declaredValue
    exact endsBefore_of_length hne (by omega)

theorem Step.Alike.declared (r : Reading) (words : List Token) (raw : String) {used : Nat}
    (hused : used ≤ ts.length) :
    Step.Alike us vs k ts ((r.extended us).declaredValue words raw used)
      ((r.extended vs).declaredValue words raw used) := by
  unfold Reading.declaredValue
  split
  · exact .next r [] [] hused
  · rw [Reading.store_extended, Reading.store_extended]
    exact .next _ [] [] hused

/-- A declaration whose value is closed. The others may come between its words. -/
theorem declaration_alike (hseam : Seam us vs k) (r : Reading) {t : Token} (ht : t.kind = .name)
    (hcolon : ts = [] → starts .colon us = false)
    (hwithin : us ≠ [] → ((r.extended us).declaration (t :: ts ++ us)).Within ts.length)
    (hclosed : us = [] → Statement.declarationUnclosed (t :: ts) = false) :
    Step.Alike us vs k ts ((r.extended us).declaration (t :: ts ++ us))
      ((r.extended vs).declaration (t :: ts ++ vs)) := by
  rcases names_split (t :: ts) with hall | ⟨words, c, cs, hsplit, hwords, hc⟩
  · -- There are only words, and no colon behind them.
    have hbehind : 2 ≤ (t :: ts).length ∨ starts .colon us = false := by
      cases ts with
      | nil => exact .inr (hcolon rfl)
      | cons u ts => exact .inl (Nat.le_add_left 2 _)
    have hends := valueEnds_of_declaration hall (List.cons_ne_nil t ts) hbehind hwithin
    obtain ⟨remarks, hus⟩ := Reading.declaration_words hall hends (r.extended us)
    obtain ⟨remarks', hvs⟩ := Reading.declaration_words hall (hseam.value hends) (r.extended vs)
    rw [hus, hvs]
    exact .next r remarks remarks' (Nat.le_refl _)
  · -- Behind the words comes a colon with a value, or something that is skipped.
    have hlength := congrArg List.length hsplit
    rw [List.length_cons, List.length_append, List.length_cons] at hlength
    have hone : 0 < words.length := by
      cases words with
      | nil => exact absurd ((List.cons.inj hsplit).1 ▸ ht) hc
      | cons w ws => exact Nat.succ_pos _
    have hdrop : (t :: ts).dropWhile (fun t => t.kind == .name) = c :: cs := by
      rw [hsplit, List.dropWhile_append_of_pos fun w hw => by rw [hwords w hw]; rfl,
        List.dropWhile_cons_of_neg (by rwa [beq_iff_eq])]
    rw [Statement.declarationUnclosed, hdrop] at hclosed
    have hclosed : us = [] → (c.kind == .colon && bracketsOpen cs) = false := hclosed
    rw [hsplit, List.append_assoc, List.append_assoc, List.cons_append, List.cons_append,
      Reading.declaration_split _ _ hwords hc, Reading.declaration_split _ _ hwords hc]
    rw [hsplit, List.append_assoc, List.cons_append,
      Reading.declaration_split _ _ hwords hc] at hwithin
    by_cases hvalue : c.kind = .colon ∧ 2 ≤ words.length
    · rw [if_pos hvalue] at hwithin
      have hends := endsBefore_of_declaration hwithin (by omega) fun hus => by
        simpa [hvalue.1] using hclosed hus
      have hends' := hseam.endsBefore hends
      have hle := valueLength_le 0 cs
      rw [if_pos hvalue, if_pos hvalue, hends.valueText, hends.valueLength, hends'.valueText,
        hends'.valueLength]
      exact .declared r words _ (by omega)
    · rw [if_neg hvalue] at hwithin
      rw [if_neg hvalue, if_neg hvalue, ← List.cons_append, ← List.cons_append,
        ← Nat.sub_add_comm hone, ← Nat.sub_add_comm hone]
      refine .skipped hseam hsplit (fun hne => ?_) _ _
      have hwithin := hwithin hne
      rw [Step.Within] at hwithin
      rw [List.cons_append, Nat.sub_add_comm hone]
      exact hwithin

theorem skip_alike (hseam : Seam us vs k) (r : Reading) (t : Token)
    (hwithin : us ≠ [] → ((r.extended us).skip t (ts ++ us)).Within ts.length) :
    Step.Alike us vs k ts ((r.extended us).skip t (ts ++ us))
      ((r.extended vs).skip t (ts ++ vs)) := by
  have hskipped := Step.Alike.skipped (r := r) hseam (List.nil_append (t :: ts)).symm
    (fun hne => by simpa [Reading.skip, Step.Within] using hwithin hne)
    [.skipped ((ts ++ us).length + 1)] [.skipped ((ts ++ vs).length + 1)]
  simpa [Reading.skip] using hskipped

/-- A block opens that keeps no tokens. -/
theorem push_alike (r : Reading) {frame : Frame} (hframe : ∀ rest, frame.extended rest = frame)
    (hne : ts ≠ []) :
    Step.Alike us vs k ts (.next ((r.extended us).push frame) 1 [])
      (.next ((r.extended vs).push frame) 1 []) := by
  have hpush : ∀ rest, (r.extended rest).push frame = (r.push frame).extended rest := by
    intro rest
    rw [Reading.push, Reading.extended, Reading.extended, Reading.push, List.map_cons, hframe]
  rw [hpush, hpush]
  exact .next _ [] [] (List.length_pos_iff.mpr hne)

/-- The line of an import ends in front of the others, or where they start, or goes on over some
    of them. -/
theorem importLine_alike (hseam : Seam us vs k) (r : Reading)
    (hwithin : us ≠ [] →
      ((ts ++ us).takeWhile fun t => t.kind != .newline).length ≤ ts.length) :
    Step.Alike us vs k ts
      (.next (r.extended us) ((ts ++ us).takeWhile fun t => t.kind != .newline).length [])
      (.next (r.extended vs) ((ts ++ vs).takeWhile fun t => t.kind != .newline).length []) := by
  by_cases hline : (ts.takeWhile fun t => t.kind != .newline).length = ts.length
  · rw [List.takeWhile_append, if_pos hline, List.length_append] at hwithin ⊢
    rw [List.takeWhile_append, if_pos hline, List.length_append]
    refine .passed r [] [] (Nat.le_add_right _ _) rfl ?_
    by_cases hne : us = []
    · exact .inl hne
    · have hwithin := hwithin hne
      exact .inr (hseam.line (lineEnds_of_takeWhile (by omega)))
  · rw [List.takeWhile_append, if_neg hline, List.takeWhile_append, if_neg hline]
    exact .next r [] [] (List.takeWhile_prefix fun t : Token => t.kind != .newline).length_le

/-- A statement outside of all blocks. -/
theorem topLevel_alike (hseam : Seam us vs k) (r : Reading) (t : Token)
    (hopens : t.kind = .name → starts .opening (ts ++ vs) = starts .opening (ts ++ us))
    (hblock : t.kind = .name → starts .opening (ts ++ us) = true → ts ≠ [])
    (hwithin : us ≠ [] → ((r.extended us).topLevel t (ts ++ us)).Within ts.length) :
    Step.Alike us vs k ts ((r.extended us).topLevel t (ts ++ us))
      ((r.extended vs).topLevel t (ts ++ vs)) := by
  unfold Reading.topLevel at hwithin ⊢
  by_cases hends : t.kind = .newline ∨ t.kind = .semicolon
  · rw [if_pos hends, if_pos hends]
    exact .next r [] [] (Nat.zero_le _)
  rw [if_neg hends, if_neg hends]
  rw [if_neg hends] at hwithin
  by_cases himport : t.kind = .name ∧ (t.text = "import" ∨ t.text = "pragma")
  · rw [if_pos himport, if_pos himport]
    rw [if_pos himport] at hwithin
    exact importLine_alike hseam r hwithin
  rw [if_neg himport, if_neg himport]
  rw [if_neg himport] at hwithin
  by_cases hopened : t.kind = .name ∧ starts .opening (ts ++ us) = true
  · have hopened' : t.kind = .name ∧ starts .opening (ts ++ vs) = true :=
      ⟨hopened.1, (hopens hopened.1).trans hopened.2⟩
    rw [if_pos hopened, if_pos hopened']
    refine push_alike { r with declared := true } (fun rest => ?_) (hblock hopened.1 hopened.2)
    split
    all_goals rfl
  have hopened' : ¬(t.kind = .name ∧ starts .opening (ts ++ vs) = true) :=
    fun h => hopened ⟨h.1, (hopens h.1).symm.trans h.2⟩
  rw [if_neg hopened, if_neg hopened']
  rw [if_neg hopened] at hwithin
  by_cases hcloses : t.kind = .closing
  · rw [if_pos hcloses, if_pos hcloses]
    exact .next r _ _ (Nat.zero_le _)
  rw [if_neg hcloses, if_neg hcloses]
  rw [if_neg hcloses] at hwithin
  exact skip_alike hseam r t hwithin

/-- What comes behind a name is the same in front of the others. -/
theorem starts_alike (hseam : Seam us vs k) (hafter : ts = [] → valueEnds us = true) {kind : Kind}
    (hkind : Token.endsValue ⟨kind, [], []⟩ = false) :
    starts kind (ts ++ vs) = starts kind (ts ++ us) := by
  by_cases hne : ts = []
  · have hends := hafter hne
    rw [hne, List.nil_append, List.nil_append, starts_of_valueEnds hends hkind,
      starts_of_valueEnds (hseam.value hends) hkind]
  · rw [starts_append hne, starts_append hne]

/-- No block opens behind a name where a value ends. -/
theorem ne_nil_of_opening (hafter : ts = [] → valueEnds us = true)
    (hopens : starts .opening (ts ++ us) = true) : ts ≠ [] := by
  rintro rfl
  rw [List.nil_append, starts_of_valueEnds (hafter rfl) rfl] at hopens
  exact Bool.false_ne_true hopens

/-- A statement inside of a block, one case for each form that it may have. -/
theorem form_alike (hseam : Seam us vs k) (tail others : List Char) (t : Token)
    (hframes : r.frames ≠ []) (hafter : t.kind = .name → ts = [] → valueEnds us = true)
    (hwithin : us ≠ [] → ((r.extended us).step tail t (ts ++ us)).Within ts.length)
    (hclosed : us = [] → Statement.unclosed ⟨r, t, ts⟩ = false) :
    Step.Alike us vs k ts ((r.extended us).step tail t (ts ++ us))
      ((r.extended vs).step others t (ts ++ vs)) := by
  have hextended : ∀ rest, (r.extended rest).frames ≠ [] := fun rest hnil =>
    hframes (List.map_eq_nil_iff.mp hnil)
  have hopen : r.frames.isEmpty = false := List.isEmpty_eq_false_iff.mpr hframes
  rcases hasForm t (ts ++ us) with ⟨form, hform⟩
  -- In front of the others, what starts with a name has the same form.
  have hother : t.kind = .name → HasForm t (ts ++ vs) form := fun hname =>
    hform.congr (starts_alike hseam (hafter hname) rfl) (starts_alike hseam (hafter hname) rfl)
  rw [hform.step (hextended us)] at hwithin ⊢
  cases hform with
  | closing h =>
      rw [(HasForm.closing h).step (hextended vs), Form.act, Form.act, Reading.close_extended,
        Reading.close_extended]
      exact .next _ [] [] (Nat.zero_le _)
  | ending h =>
      rw [(HasForm.ending h).step (hextended vs)]
      exact .next r [] [] (Nat.zero_le _)
  | nameless hcloses hends hname =>
      rw [(HasForm.nameless hcloses hends hname).step (hextended vs)]
      exact skip_alike hseam r t hwithin
  | widget hname hopens =>
      rw [(hother hname).step (hextended vs)]
      exact push_alike r (fun _ => rfl) (ne_nil_of_opening (hafter hname) hopens)
  | group hname hopens =>
      rw [(hother hname).step (hextended vs), Form.act, Form.act, Reading.groupFields_extended,
        Reading.groupFields_extended]
      exact push_alike r (fun _ => rfl) (ne_nil_of_opening (hafter hname) hopens)
  | value hname hcolon =>
      rw [(hother hname).step (hextended vs), Form.act, Form.act]
      rw [Form.act] at hwithin
      cases ts with
      | nil =>
          rw [List.nil_append, starts_of_valueEnds (hafter hname rfl) rfl] at hcolon
          exact absurd hcolon Bool.false_ne_true
      | cons c cs =>
          rw [starts_append (List.cons_ne_nil c cs)] at hcolon
          refine property_alike hseam r tail others t.text c hwithin fun hus => ?_
          have hopens : starts .opening (c :: cs) = false := starts_of_ne hcolon (by decide)
          have hclosed := hclosed hus
          simpa [Statement.unclosed, hname, hopen, hopens, hcolon] using hclosed
  | declaration hname hopens hcolon hdeclares =>
      rw [(hother hname).step (hextended vs), Form.act, Form.act]
      refine declaration_alike hseam r hname (fun hts => by rwa [hts] at hcolon) hwithin
        fun hus => ?_
      rw [hus, List.append_nil] at hopens hcolon
      have hclosed := hclosed hus
      rw [Statement.unclosed, hname, hopen, hopens, hcolon, hdeclares] at hclosed
      simpa using hclosed
  | unused hname =>
      rw [(hother hname).step (hextended vs)]
      exact skip_alike hseam r t hwithin

/-- A statement that ends where the tokens differ, or before, does the same. At the end of a text,
    it must not be a value left open. -/
theorem step_alike (hseam : Seam us vs k) (tail others : List Char) (t : Token)
    (hwithin : us ≠ [] → ((r.extended us).step tail t (ts ++ us)).Within ts.length)
    (hclosed : us = [] → Statement.unclosed ⟨r, t, ts⟩ = false) :
    Step.Alike us vs k ts ((r.extended us).step tail t (ts ++ us))
      ((r.extended vs).step others t (ts ++ vs)) := by
  have hafter : t.kind = .name → ts = [] → valueEnds us = true := by
    rintro hname rfl
    exact valueEnds_of_name hname hwithin
  by_cases hframes : r.frames = []
  · have hextended : ∀ rest, (r.extended rest).frames = [] := fun rest =>
      List.map_eq_nil_iff.mpr hframes
    rw [Reading.step_topLevel (hextended us)] at hwithin ⊢
    rw [Reading.step_topLevel (hextended vs)]
    exact topLevel_alike hseam r t (fun hname => starts_alike hseam (hafter hname) rfl)
      (fun hname => ne_nil_of_opening (hafter hname)) hwithin
  · exact form_alike hseam tail others t hframes hafter hwithin hclosed

end Alike

end Markup

end WidgetSync
