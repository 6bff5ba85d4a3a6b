import WidgetSync.Markup.HandlerCode
import WidgetSync.Proofs.SelfDelimiting

/-!
# Code Keeps Its Normal Form

Code in normal form, indented and put between braces, has that normal form again.

Indenting puts the same run of spaces in front of every line that has content, so
the margin of the indented lines is these spaces and then the margin that the lines
had before. Both directions rest on this one fact. Read forwards it says that the
margin of indented code is the indentation alone, since code in normal form has no
margin of its own. Read backwards it says why that is so: the lines that were
dedented are their normal form with the margin in front, and a margin followed by
another one would be longer than the margin.

## Main definitions

* `Text.prefixed`: A line with a prefix, unless it has no content.
* `Text.Normal`: Lines in normal form.

## Theorems

* `Text.margin_prefixed`: The margin of lines with a prefix.
* `handlerCode_normal`: The code of a handler is in normal form.
* `handlerCode_unlines`: Code in normal form stays as it is.
* `handlerCode_block`: Indented code between braces has the normal form it had.
* `handlerCode_inline`: So does code on one line.
-/

namespace WidgetSync

namespace Text

theorem lines_line {l : List Char} (h : '\n' ∉ l) : lines l = [l] := by
  induction l with
  | nil => rfl
  | cons c l ih =>
      rw [List.mem_cons, not_or] at h
      rw [lines, if_neg (Ne.symm h.1), ih h.2]

theorem lines_cons_line {l : List Char} (cs : List Char) (h : '\n' ∉ l) :
    lines (l ++ '\n' :: cs) = l :: lines cs := by
  induction l with
  | nil => rw [List.nil_append, lines, if_pos rfl]
  | cons c l ih =>
      rw [List.mem_cons, not_or] at h
      rw [List.cons_append, lines, if_neg (Ne.symm h.1), ih h.2]

/-- Lines without line feeds in them are the lines of their text. -/
theorem lines_unlines {ls : List (List Char)} (hne : ls ≠ []) (h : ∀ l ∈ ls, '\n' ∉ l) :
    lines (unlines ls) = ls := by
  induction ls with
  | nil => exact absurd rfl hne
  | cons l ls ih =>
      have hl := h l List.mem_cons_self
      cases ls with
      | nil => exact lines_line hl
      | cons m ms =>
          have hjoin : unlines (l :: m :: ms) = l ++ '\n' :: unlines (m :: ms) := rfl
          rw [hjoin, lines_cons_line _ hl,
            ih (List.cons_ne_nil m ms) fun k hk => h k (List.mem_cons_of_mem l hk)]

theorem not_mem_lines (cs : List Char) : ∀ l ∈ lines cs, '\n' ∉ l := by
  induction cs with
  | nil =>
      intro l hl
      rw [List.mem_singleton.mp hl]
      exact List.not_mem_nil
  | cons c cs ih =>
      intro l hl
      rw [lines] at hl
      by_cases hc : c = '\n'
      · rw [if_pos hc] at hl
        rcases List.mem_cons.mp hl with rfl | hl
        · exact List.not_mem_nil
        · exact ih l hl
      · rw [if_neg hc] at hl
        cases hlines : lines cs with
        | nil => exact absurd hlines (lines_ne_nil cs)
        | cons k ks =>
            rw [hlines] at hl ih
            rcases List.mem_cons.mp hl with rfl | hl
            · rw [List.mem_cons, not_or]
              exact ⟨Ne.symm hc, ih k List.mem_cons_self⟩
            · exact ih l (List.mem_cons_of_mem k hl)

theorem trimEnd_eq_self_iff {l : List Char} :
    trimEnd l = l ↔ ∀ c ∈ l.getLast?, isBlank c = false := by
  rw [trimEnd, List.getLast?_eq_head?_reverse]
  constructor
  · intro h c hc
    cases hrev : l.reverse with
    | nil =>
        rw [hrev] at hc
        exact absurd hc (by simp only [List.head?_nil, Option.mem_def, reduceCtorEq,
          not_false_eq_true])
    | cons d ds =>
        rw [hrev, List.head?_cons, Option.mem_some_iff] at hc
        subst hc
        rw [hrev, ← List.reverse_inj, List.reverse_reverse, hrev] at h
        refine Bool.eq_false_iff.mpr fun hblank => ?_
        rw [List.dropWhile_cons, if_pos hblank] at h
        have hlength := (List.dropWhile_suffix (l := ds) isBlank).length_le
        rw [h, List.length_cons] at hlength
        omega
  · intro h
    cases hrev : l.reverse with
    | nil => rw [List.dropWhile_nil, ← hrev, List.reverse_reverse]
    | cons d ds =>
        have hd := h d (by rw [hrev]; simp only [List.head?_cons, Option.mem_some_iff])
        rw [List.dropWhile_cons, if_neg (by rw [hd]; decide), ← hrev, List.reverse_reverse]

theorem trimEnd_append {l : List Char} (front : List Char) (h : trimEnd l = l) (hne : l ≠ []) :
    trimEnd (front ++ l) = front ++ l := by
  rw [trimEnd_eq_self_iff] at h ⊢
  intro c hc
  rw [List.getLast?_append, List.getLast?_eq_some_getLast hne, Option.some_or] at hc
  rw [List.getLast?_eq_some_getLast hne] at h
  exact h c hc

theorem trimEnd_trimEnd (l : List Char) : trimEnd (trimEnd l) = trimEnd l := by
  -- Dropping blanks twice is dropping them once.
  have hdrop : ∀ cs : List Char, (cs.dropWhile isBlank).dropWhile isBlank
      = cs.dropWhile isBlank := by
    intro cs
    induction cs with
    | nil => rfl
    | cons c cs ih =>
        by_cases hc : isBlank c = true
        · rw [List.dropWhile_cons, if_pos hc, ih]
        · rw [List.dropWhile_cons, if_neg hc, List.dropWhile_cons, if_neg hc]
  rw [trimEnd, trimEnd, List.reverse_reverse, hdrop]

theorem isBlank_of_isIndent {c : Char} (h : isIndent c = true) : isBlank c = true := by
  rw [isIndent, Bool.or_eq_true, beq_iff_eq, beq_iff_eq] at h
  rcases h with rfl | rfl
  · decide
  · decide

/-- A line without blanks at its end has content if it is not empty. -/
theorem eq_nil_of_all {p : Char → Bool} (hp : ∀ c, p c = true → isBlank c = true) {l : List Char}
    (h : trimEnd l = l) (hall : l.all p = true) : l = [] := by
  by_cases hne : l = []
  · exact hne
  · rw [trimEnd_eq_self_iff] at h
    have hlast := h (l.getLast hne) (by rw [List.getLast?_eq_some_getLast hne]; rfl)
    have hblank := hp _ (List.all_eq_true.mp hall _ (List.getLast_mem hne))
    rw [hlast] at hblank
    exact absurd hblank (by decide)

/-- A line with a prefix, unless it has no content. -/
def prefixed (front l : List Char) : List Char :=
  if l.all isIndent then [] else front ++ l

/-- The indentation of all lines with content. -/
def indents (ls : List (List Char)) : List (List Char) :=
  (ls.filter fun l => !l.all isIndent).map fun l => l.takeWhile isIndent

/-- The longest start of some texts. -/
def shared : List (List Char) → List Char
  | [] => []
  | i :: is => is.foldl commonStart i

theorem margin_eq (ls : List (List Char)) : margin ls = shared (indents ls) := by
  unfold margin
  cases h : (ls.filter fun l => !l.all isIndent).map fun l => l.takeWhile isIndent with
  | nil => rw [indents, h, shared]
  | cons i is => rw [indents, h, shared]

theorem commonStart_append (front as bs : List Char) :
    commonStart (front ++ as) (front ++ bs) = front ++ commonStart as bs := by
  induction front with
  | nil => rfl
  | cons c front ih =>
      rw [List.cons_append, List.cons_append, commonStart, if_pos rfl, ih, List.cons_append]

theorem commonStart_isPrefix (as bs : List Char) :
    commonStart as bs <+: as ∧ commonStart as bs <+: bs := by
  induction as generalizing bs with
  | nil => exact ⟨List.nil_prefix, List.nil_prefix⟩
  | cons a as ih =>
      cases bs with
      | nil => exact ⟨List.nil_prefix, List.nil_prefix⟩
      | cons b bs =>
          rw [commonStart]
          by_cases hab : a = b
          · subst hab
            rw [if_pos rfl, List.prefix_cons_inj, List.prefix_cons_inj]
            exact ih bs
          · rw [if_neg hab]
            exact ⟨List.nil_prefix, List.nil_prefix⟩

theorem shared_map_append {is : List (List Char)} (front : List Char) (hne : is ≠ []) :
    shared (is.map (front ++ ·)) = front ++ shared is := by
  -- The fold over the other texts keeps the front that it starts with.
  have hfold : ∀ (is : List (List Char)) (i : List Char),
      (is.map (front ++ ·)).foldl commonStart (front ++ i) = front ++ is.foldl commonStart i := by
    intro is
    induction is with
    | nil => exact fun i => rfl
    | cons j is ih =>
        intro i
        rw [List.map_cons, List.foldl_cons, commonStart_append, ih, List.foldl_cons]
  cases is with
  | nil => exact absurd rfl hne
  | cons i is => rw [List.map_cons, shared, shared, hfold]

theorem shared_isPrefix {is : List (List Char)} : ∀ i ∈ is, shared is <+: i := by
  -- The fold only gets shorter, and each text it meets has it as a start from then on.
  have hfold : ∀ (is : List (List Char)) (i : List Char),
      is.foldl commonStart i <+: i ∧ ∀ j ∈ is, is.foldl commonStart i <+: j := by
    intro is
    induction is with
    | nil => exact fun i => ⟨List.prefix_rfl, fun j hj => absurd hj List.not_mem_nil⟩
    | cons j is ih =>
        intro i
        rw [List.foldl_cons]
        rcases ih (commonStart i j) with ⟨hfirst, hothers⟩
        refine ⟨hfirst.trans (commonStart_isPrefix i j).1, fun k hk => ?_⟩
        rcases List.mem_cons.mp hk with rfl | hk
        · exact hfirst.trans (commonStart_isPrefix i k).2
        · exact hothers k hk
  intro i hi
  cases is with
  | nil => exact absurd hi List.not_mem_nil
  | cons j is =>
      rw [shared]
      rcases List.mem_cons.mp hi with rfl | hi
      · exact (hfold is i).1
      · exact (hfold is j).2 i hi

theorem all_prefixed {front : List Char} (hfront : front.all isIndent = true) (l : List Char) :
    (prefixed front l).all isIndent = l.all isIndent := by
  unfold prefixed
  by_cases hl : l.all isIndent = true
  · rw [if_pos hl, hl, List.all_nil]
  · rw [if_neg hl, List.all_append, hfront, Bool.true_and]

theorem indents_prefixed {front : List Char} (hfront : front.all isIndent = true)
    (ls : List (List Char)) :
    indents (ls.map (prefixed front)) = (indents ls).map (front ++ ·) := by
  induction ls with
  | nil => rfl
  | cons l ls ih =>
      unfold indents at ih ⊢
      rw [List.map_cons, List.filter_cons, List.filter_cons, all_prefixed hfront]
      by_cases hl : l.all isIndent = true
      · rw [hl, Bool.not_true, if_neg (by decide), if_neg (by decide), ih]
      · rw [Bool.eq_false_iff.mpr hl, Bool.not_false, if_pos rfl, if_pos rfl, List.map_cons,
          List.map_cons, List.map_cons, ih, prefixed, if_neg hl,
          List.takeWhile_append_of_pos (List.all_eq_true.mp hfront)]

/-- The margin of lines with a prefix is the prefix and the margin that they had. -/
theorem margin_prefixed {front : List Char} (hfront : front.all isIndent = true)
    {ls : List (List Char)} (hne : indents ls ≠ []) :
    margin (ls.map (prefixed front)) = front ++ margin ls := by
  rw [margin_eq, margin_eq, indents_prefixed hfront, shared_map_append front hne]

theorem indents_ne_nil {ls : List (List Char)} {l : List Char} (hl : l ∈ ls)
    (hcontent : l.all isIndent = false) : indents ls ≠ [] := by
  refine List.ne_nil_of_mem (List.mem_map_of_mem (List.mem_filter.mpr ⟨hl, ?_⟩))
  rw [hcontent]
  rfl

/-- The margin consists of indentation. -/
theorem margin_all (ls : List (List Char)) : (margin ls).all isIndent = true := by
  rw [margin_eq]
  cases h : indents ls with
  | nil => rfl
  | cons i is =>
      -- Any of the indentations will do: the margin is a start of it.
      have hi : i ∈ indents ls := by
        rw [h]
        exact List.mem_cons_self
      rcases List.mem_map.mp hi with ⟨l, -, rfl⟩
      rw [← h]
      exact List.all_eq_true.mpr fun c hc =>
        List.all_eq_true.mp List.all_takeWhile c ((shared_isPrefix _ hi).subset hc)

/-- A line with content starts with the margin. -/
theorem margin_prefix {ls : List (List Char)} {l : List Char} (hl : l ∈ ls)
    (hcontent : l.all isIndent = false) : margin ls <+: l := by
  have hmem : l.takeWhile isIndent ∈ indents ls := by
    refine List.mem_map_of_mem (List.mem_filter.mpr ⟨hl, ?_⟩)
    rw [hcontent]
    rfl
  rw [margin_eq]
  exact (shared_isPrefix _ hmem).trans (List.takeWhile_prefix _)

/-- Lines in normal form: no blanks at their ends, no empty lines around them and no
    margin. -/
structure Normal (ls : List (List Char)) : Prop where
  trimmed : ∀ l ∈ ls, trimEnd l = l
  single : ∀ l ∈ ls, '\n' ∉ l
  first : ∀ l ∈ ls.head?, l ≠ []
  last : ∀ l ∈ ls.getLast?, l ≠ []
  margin : margin ls = []

/-- Lines are their normal form with the margin in front. -/
theorem prefixed_dedent {ls : List (List Char)} (h : ∀ l ∈ ls, trimEnd l = l) :
    (dedent ls).map (prefixed (margin ls)) = ls := by
  rw [dedent, List.map_map]
  refine (List.map_congr_left fun l hl => ?_).trans (List.map_id ls)
  rw [Function.comp_apply, id_eq]
  by_cases hcontent : l.all isIndent = true
  · -- A line of mere indentation is empty once its end is trimmed.
    rw [if_pos hcontent, prefixed, List.all_nil, if_pos rfl,
      eq_nil_of_all (fun c => isBlank_of_isIndent) (h l hl) hcontent]
  · rw [if_neg hcontent]
    rcases margin_prefix hl (Bool.eq_false_iff.mpr hcontent) with ⟨rest, hrest⟩
    rw [← hrest, List.drop_left, prefixed, if_neg]
    intro hall
    rw [← hrest, List.all_append, margin_all, hall] at hcontent
    exact hcontent rfl

/-- Lines without a margin are what is left of them behind any margin. -/
theorem dedent_prefixed {front : List Char} (hfront : front.all isIndent = true)
    {ls : List (List Char)} (h : ∀ l ∈ ls, trimEnd l = l) (hmargin : margin ls = []) :
    dedent (ls.map (prefixed front)) = ls := by
  rw [dedent, List.map_map]
  refine (List.map_congr_left fun l hl => ?_).trans (List.map_id ls)
  rw [Function.comp_apply, id_eq, all_prefixed hfront]
  by_cases hcontent : l.all isIndent = true
  · rw [if_pos hcontent, eq_nil_of_all (fun c => isBlank_of_isIndent) (h l hl) hcontent]
  · rw [if_neg hcontent,
      margin_prefixed hfront (indents_ne_nil hl (Bool.eq_false_iff.mpr hcontent)), hmargin,
      List.append_nil, prefixed, if_neg hcontent, List.drop_left]

/-- A line with content has some behind the margin, and it ends like the line. -/
theorem dedent_line {ls : List (List Char)} {l : List Char} (hl : l ∈ ls) (h : trimEnd l = l)
    (hne : l ≠ []) : l.drop (margin ls).length ≠ [] := by
  have hcontent : l.all isIndent = false := Bool.eq_false_iff.mpr fun hall =>
    hne (eq_nil_of_all (fun c => isBlank_of_isIndent) h hall)
  rcases margin_prefix hl hcontent with ⟨rest, hrest⟩
  rw [← hrest, List.drop_left]
  rintro rfl
  rw [← hrest, List.append_nil, margin_all] at hcontent
  exact absurd hcontent (by decide)

/-- The lines of dedented text are the ends of the lines. -/
theorem dedent_eq_drop {ls : List (List Char)} (h : ∀ l ∈ ls, trimEnd l = l) :
    dedent ls = ls.map fun l => l.drop (margin ls).length := by
  rw [dedent]
  refine List.map_congr_left fun l hl => ?_
  by_cases hcontent : l.all isIndent = true
  · rw [if_pos hcontent, eq_nil_of_all (fun c => isBlank_of_isIndent) (h l hl) hcontent,
      List.drop_nil]
  · rw [if_neg hcontent]

/-- Dedenting lines without blanks around them gives the normal form. -/
theorem normal_dedent {ls : List (List Char)} (htrimmed : ∀ l ∈ ls, trimEnd l = l)
    (hsingle : ∀ l ∈ ls, '\n' ∉ l) (hfirst : ∀ l ∈ ls.head?, l ≠ [])
    (hlast : ∀ l ∈ ls.getLast?, l ≠ []) : Normal (dedent ls) := by
  have hends : ∀ l ∈ ls, l ≠ [] → l.drop (margin ls).length ≠ [] :=
    fun l hl => dedent_line hl (htrimmed l hl)
  refine ⟨?_, ?_, ?_, ?_, ?_⟩
  · rw [dedent_eq_drop htrimmed]
    intro k hk
    rcases List.mem_map.mp hk with ⟨l, hl, rfl⟩
    have hl' := htrimmed l hl
    rw [trimEnd_eq_self_iff] at hl' ⊢
    intro c hc
    rw [List.getLast?_drop] at hc
    split at hc
    · exact absurd hc (by simp only [Option.mem_def, reduceCtorEq, not_false_eq_true])
    · exact hl' c hc
  · rw [dedent_eq_drop htrimmed]
    intro k hk
    rcases List.mem_map.mp hk with ⟨l, hl, rfl⟩
    exact fun hmem => hsingle l hl (List.mem_of_mem_drop hmem)
  · rw [dedent_eq_drop htrimmed, List.head?_map]
    intro k hk
    rcases Option.map_eq_some_iff.mp hk with ⟨l, hl, rfl⟩
    exact hends l (List.mem_of_mem_head? hl) (hfirst l hl)
  · rw [dedent_eq_drop htrimmed, List.getLast?_map]
    intro k hk
    rcases Option.map_eq_some_iff.mp hk with ⟨l, hl, rfl⟩
    exact hends l (List.mem_of_getLast? hl) (hlast l hl)
  · -- A margin of what is left would come after the margin of the lines.
    by_cases hne : indents (dedent ls) = []
    · rw [margin_eq, hne, shared]
    · have hlonger := margin_prefixed (margin_all ls) hne
      rw [prefixed_dedent htrimmed] at hlonger
      exact List.append_cancel_left (hlonger.symm.trans (List.append_nil _).symm)

theorem Normal.trimmed_lines {ls : List (List Char)} (h : Normal ls) :
    ∀ l ∈ lines (unlines ls), trimEnd l = l := by
  by_cases hne : ls = []
  · subst hne
    intro l hl
    rw [List.mem_singleton.mp hl]
    rfl
  · rw [lines_unlines hne h.single]
    exact h.trimmed

end Text

namespace Markup

theorem dropEmptyLines_head {ls : List (List Char)} : ∀ l ∈ (dropEmptyLines ls).head?, l ≠ [] := by
  intro l hl
  have hnot := List.head?_dropWhile_not List.isEmpty ls
  rw [dropEmptyLines, Option.mem_def] at hl
  rw [hl] at hnot
  rintro rfl
  exact absurd hnot (by decide)

theorem dropEmptyLines_of_head {ls : List (List Char)} (h : ∀ l ∈ ls.head?, l ≠ []) :
    dropEmptyLines ls = ls := by
  cases ls with
  | nil => rfl
  | cons l ls =>
      have hl := h l (by simp only [List.head?_cons, Option.mem_some_iff])
      rw [dropEmptyLines, List.dropWhile_cons, if_neg (by rwa [List.isEmpty_iff])]

theorem trimLines_subset {ls : List (List Char)} {l : List Char} (h : l ∈ trimLines ls) :
    l ∈ ls := by
  rw [trimLines, List.mem_reverse] at h
  have hback := (List.dropWhile_suffix List.isEmpty).subset h
  rw [List.mem_reverse] at hback
  exact (List.dropWhile_suffix List.isEmpty).subset hback

theorem trimLines_last {ls : List (List Char)} : ∀ l ∈ (trimLines ls).getLast?, l ≠ [] := by
  rw [trimLines, List.getLast?_reverse]
  exact dropEmptyLines_head

theorem trimLines_first {ls : List (List Char)} : ∀ l ∈ (trimLines ls).head?, l ≠ [] := by
  intro l hl
  rw [trimLines, List.head?_reverse] at hl
  -- Dropping at the end leaves the first line, if it leaves any.
  rcases List.dropWhile_suffix (l := (dropEmptyLines ls).reverse) List.isEmpty with ⟨front, hfront⟩
  refine @dropEmptyLines_head ls l ?_
  rw [← List.getLast?_reverse, ← hfront, List.getLast?_append]
  rw [dropEmptyLines, Option.mem_def] at hl
  rw [hl, Option.some_or]
  rfl

/-- Lines that start and end with content stay as they are. -/
theorem trimLines_self {ls : List (List Char)} (hfirst : ∀ l ∈ ls.head?, l ≠ [])
    (hlast : ∀ l ∈ ls.getLast?, l ≠ []) : trimLines ls = ls := by
  have hback : dropEmptyLines ls.reverse = ls.reverse := by
    refine dropEmptyLines_of_head ?_
    rw [List.head?_reverse]
    exact hlast
  rw [trimLines, dropEmptyLines_of_head hfirst, hback, List.reverse_reverse]

/-- Empty lines around lines that start and end with content are removed. -/
theorem trimLines_framed {ls : List (List Char)} (hfirst : ∀ l ∈ ls.head?, l ≠ [])
    (hlast : ∀ l ∈ ls.getLast?, l ≠ []) (hne : ls ≠ []) : trimLines ([] :: (ls ++ [[]])) = ls := by
  have hfront : dropEmptyLines ([] :: (ls ++ [[]])) = ls ++ [[]] := by
    have hhead : ∀ l ∈ (ls ++ [[]]).head?, l ≠ [] := by
      cases ls with
      | nil => exact absurd rfl hne
      | cons k ks => exact hfirst
    exact dropEmptyLines_of_head hhead
  have hback : dropEmptyLines (ls ++ [[]]).reverse = ls.reverse := by
    have hhead : ∀ l ∈ ls.reverse.head?, l ≠ [] := by
      rw [List.head?_reverse]
      exact hlast
    rw [List.reverse_append]
    exact dropEmptyLines_of_head hhead
  rw [trimLines, hfront, hback, List.reverse_reverse]

/-- The code of a handler is in normal form. -/
theorem handlerCode_normal (inner : List Char) :
    ∃ ls, handlerCode inner = Text.unlines ls ∧ Text.Normal ls := by
  have hlines : ∀ l ∈ trimLines ((Text.lines inner).map Text.trimEnd),
      Text.trimEnd l = l ∧ '\n' ∉ l := by
    intro l hl
    rcases List.mem_map.mp (trimLines_subset hl) with ⟨k, hk, rfl⟩
    refine ⟨Text.trimEnd_trimEnd k, fun hmem => Text.not_mem_lines inner k hk ?_⟩
    rw [Text.trimEnd, List.mem_reverse] at hmem
    exact List.mem_reverse.mp ((List.dropWhile_suffix Text.isBlank).subset hmem)
  exact ⟨_, rfl, Text.normal_dedent (fun l hl => (hlines l hl).1) (fun l hl => (hlines l hl).2)
    trimLines_first trimLines_last⟩

/-- Code in normal form has itself for its normal form. -/
theorem handlerCode_unlines {ls : List (List Char)} (h : Text.Normal ls) :
    handlerCode (Text.unlines ls) = Text.unlines ls := by
  by_cases hne : ls = []
  · subst hne
    rfl
  · have htrimmed : ls.map Text.trimEnd = ls :=
      (List.map_congr_left h.trimmed).trans (List.map_id ls)
    have hdrop : ls.map (fun l => l.drop ([] : List Char).length) = ls := List.map_id ls
    rw [handlerCode, Text.lines_unlines hne h.single, htrimmed, trimLines_self h.first h.last,
      Text.dedent_eq_drop h.trimmed, h.margin, hdrop]

theorem lines_flatMap {bs : List (List Char)} (cs : List Char) (h : ∀ b ∈ bs, '\n' ∉ b) :
    Text.lines (bs.flatMap (· ++ ['\n']) ++ cs) = bs ++ Text.lines cs := by
  induction bs with
  | nil => rfl
  | cons b bs ih =>
      rw [List.flatMap_cons, List.append_assoc, List.append_assoc, List.singleton_append,
        Text.lines_cons_line _ (h b List.mem_cons_self),
        ih fun c hc => h c (List.mem_cons_of_mem b hc), List.cons_append]

theorem not_mem_replicate (n : Nat) : '\n' ∉ List.replicate n ' ' := by
  intro h
  exact absurd (List.eq_of_mem_replicate h) (by decide)

theorem all_replicate (n : Nat) : (List.replicate n ' ').all Text.isIndent = true :=
  List.all_eq_true.mpr fun c hc => by
    rw [List.eq_of_mem_replicate hc]
    decide

theorem trimEnd_replicate (n : Nat) : Text.trimEnd (List.replicate n ' ') = [] := by
  have hdrop : (List.replicate n ' ').dropWhile Text.isBlank = [] := by
    induction n with
    | zero => rfl
    | succ n ih => rw [List.replicate_succ, List.dropWhile_cons, if_pos (by decide), ih]
  rw [Text.trimEnd, List.reverse_replicate, hdrop, List.reverse_nil]

theorem trimEnd_prefixed (n : Nat) {l : List Char} (h : Text.trimEnd l = l) :
    Text.trimEnd (Text.prefixed (List.replicate n ' ') l)
      = Text.prefixed (List.replicate n ' ') l := by
  unfold Text.prefixed
  by_cases hl : l.all Text.isIndent = true
  · rw [if_pos hl]
    rfl
  · rw [if_neg hl]
    refine Text.trimEnd_append _ h ?_
    rintro rfl
    exact hl rfl

theorem prefixed_ne_nil (n : Nat) {l : List Char} (h : Text.trimEnd l = l) (hne : l ≠ []) :
    Text.prefixed (List.replicate n ' ') l ≠ [] := by
  rw [Text.prefixed, if_neg]
  · exact List.append_ne_nil_of_right_ne_nil _ hne
  · exact fun hall => hne (Text.eq_nil_of_all (fun c => Text.isBlank_of_isIndent) h hall)

/-- What stands between the braces of code in a block: a line end, the lines of the
    code under some indentation, and the indentation of the closing brace. -/
def blockInside (n m : Nat) (code : List Char) : List Char :=
  '\n' :: ((Text.lines code).flatMap (fun l => Text.prefixed (List.replicate n ' ') l ++ ['\n'])
    ++ List.replicate m ' ')

/-- Indented code between braces has the normal form it had. -/
theorem handlerCode_block {ls : List (List Char)} (h : Text.Normal ls) (n m : Nat) :
    handlerCode (blockInside n m (Text.unlines ls)) = Text.unlines ls := by
  -- The lines between the braces: the rest of the first, the code, and the start of the last.
  have hinside : ∀ ks : List (List Char), (∀ k ∈ ks, '\n' ∉ k) →
      Text.lines ('\n' :: (ks.flatMap (fun l => Text.prefixed (List.replicate n ' ') l ++ ['\n'])
        ++ List.replicate m ' '))
        = [] :: (ks.map (Text.prefixed (List.replicate n ' ')) ++ [List.replicate m ' ']) := by
    intro ks hks
    have hmap : ks.flatMap (fun l => Text.prefixed (List.replicate n ' ') l ++ ['\n'])
        = (ks.map (Text.prefixed (List.replicate n ' '))).flatMap (· ++ ['\n']) := by
      rw [List.flatMap_map]
    rw [Text.lines, if_pos rfl, hmap, lines_flatMap _ ?_, Text.lines_line (not_mem_replicate m)]
    intro b hb
    rcases List.mem_map.mp hb with ⟨k, hk, rfl⟩
    unfold Text.prefixed
    by_cases hall : k.all Text.isIndent = true
    · rw [if_pos hall]
      exact List.not_mem_nil
    · rw [if_neg hall, List.mem_append, not_or]
      exact ⟨not_mem_replicate n, hks k hk⟩
  by_cases hne : ls = []
  · -- Without any code there is one empty line between the braces.
    subst hne
    have hempty : Text.lines (Text.unlines []) = [[]] := rfl
    have hblank : Text.prefixed (List.replicate n ' ') [] = [] := rfl
    rw [handlerCode, blockInside, hempty, hinside [[]] (by simp only [List.mem_singleton,
      forall_eq, List.not_mem_nil, not_false_eq_true])]
    simp only [List.map_cons, List.map_nil, List.cons_append, List.nil_append, trimEnd_replicate,
      hblank]
    rfl
  · rw [handlerCode, blockInside, Text.lines_unlines hne h.single, hinside ls h.single]
    have htrim : (([] : List Char) :: (ls.map (Text.prefixed (List.replicate n ' '))
        ++ [List.replicate m ' '])).map Text.trimEnd
        = [] :: (ls.map (Text.prefixed (List.replicate n ' ')) ++ [[]]) := by
      rw [List.map_cons, List.map_append, List.map_map, List.map_singleton, trimEnd_replicate]
      congr 2
      exact List.map_congr_left fun l hl => trimEnd_prefixed n (h.trimmed l hl)
    -- The first and the last line are empty now and go, and the indentation of the others is
    -- their common margin.
    rw [htrim, trimLines_framed, Text.dedent_prefixed (all_replicate n) h.trimmed h.margin]
    · rw [List.head?_map]
      intro k hk
      rcases Option.map_eq_some_iff.mp hk with ⟨l, hl, rfl⟩
      exact prefixed_ne_nil n (h.trimmed l (List.mem_of_mem_head? hl)) (h.first l hl)
    · rw [List.getLast?_map]
      intro k hk
      rcases Option.map_eq_some_iff.mp hk with ⟨l, hl, rfl⟩
      exact prefixed_ne_nil n (h.trimmed l (List.mem_of_getLast? hl)) (h.last l hl)
    · rw [ne_eq, List.map_eq_nil_iff]
      exact hne

/-- Code on one line between braces has the normal form it had. -/
theorem handlerCode_inline {code : List Char} (h : Text.Normal [code]) :
    handlerCode (' ' :: (code ++ [' '])) = code := by
  have hne : code ≠ [] := h.first code (by simp only [List.head?_cons, Option.mem_some_iff])
  have htrimmed := h.trimmed code List.mem_cons_self
  have hsingle : '\n' ∉ ' ' :: (code ++ [' ']) := by
    simp only [List.mem_cons, List.mem_append, List.not_mem_nil, or_false, not_or]
    exact ⟨by decide, h.single code List.mem_cons_self, by decide⟩
  have hspace : Text.prefixed (List.replicate 1 ' ') code = ' ' :: code := by
    rw [Text.prefixed, if_neg]
    · rfl
    · exact fun hall => hne (Text.eq_nil_of_all (fun c => Text.isBlank_of_isIndent) htrimmed hall)
  -- The blank behind the code goes with the end of the line, the one in front of it is a
  -- margin.
  have hend : Text.trimEnd (' ' :: (code ++ [' '])) = ' ' :: code := by
    have hlast := trimEnd_prefixed 1 htrimmed
    rw [hspace] at hlast
    rw [← List.cons_append, Text.trimEnd, List.reverse_append, List.reverse_singleton,
      List.singleton_append, List.dropWhile_cons, if_pos (by decide)]
    exact hlast
  have htrim : trimLines [' ' :: code] = [' ' :: code] := by
    have hcontent : ∀ l ∈ some (' ' :: code), l ≠ [] := by
      intro l hl
      rw [Option.mem_some_iff] at hl
      rw [← hl]
      exact List.cons_ne_nil _ _
    exact trimLines_self hcontent hcontent
  have hdedent := Text.dedent_prefixed (all_replicate 1) h.trimmed h.margin
  rw [List.map_cons, List.map_nil, hspace] at hdedent
  rw [handlerCode, Text.lines_line hsingle, List.map_singleton, hend, htrim, hdedent]
  rfl

/-- A text on one line without blanks around it is in normal form. -/
theorem normal_of_trim {code : List Char} (htrim : Text.trim code = code) (hne : code ≠ [])
    (hsingle : '\n' ∉ code) : Text.Normal [code] := by
  have hstart : code.takeWhile Text.isIndent = [] := by
    cases code with
    | nil => rfl
    | cons c cs =>
        have hc := Text.not_isBlank_of_trim_eq htrim
        rw [List.takeWhile_cons, if_neg]
        intro hindent
        rw [Text.isBlank_of_isIndent hindent] at hc
        exact absurd hc (by decide)
  have hend : Text.trimEnd code = code := by
    rw [← htrim, Text.trim, Text.trimEnd_trimEnd]
  refine ⟨?_, ?_, ?_, ?_, ?_⟩
  · intro l hl
    rw [List.mem_singleton.mp hl]
    exact hend
  · intro l hl
    rw [List.mem_singleton.mp hl]
    exact hsingle
  · intro l hl
    rw [List.head?_cons, Option.mem_some_iff] at hl
    rwa [← hl]
  · intro l hl
    rw [List.getLast?_singleton, Option.mem_some_iff] at hl
    rwa [← hl]
  · rw [Text.margin_eq, Text.indents, List.filter_cons, List.filter_nil]
    split
    · rw [List.map_cons, List.map_nil, hstart]
      rfl
    · rfl

end Markup

end WidgetSync
