import WidgetSync.Proofs.Lexemes

/-!
# Lines Are Cut for Themselves

The tokens of whole lines do not depend on the text that follows them.

A lexeme is found by looking ahead, but only two kinds of lexeme look past the end
of a line: a block comment, which searches for its end, and a quote, which passes
over a line feed that is covered by a backslash. If neither is left open, then every
other lexeme stops at a line feed at the latest, and a piece of text that consists
of whole lines gives the same tokens in front of any text.

The condition is a computation on the piece alone, so for a given piece it is
settled by running it. It is what `Lexes` asks for, in the form in which it can be
checked.

## Main definitions

* `isStop`, `stops`: What ends names and numbers.
* `quoteOpen`: The search for a closing quote runs out of text.
* `closedAt`: The first lexeme of a text is not left open.
* `closed`: No lexeme of a text is left open.

## Theorems

* `takeWhile_stop`, `nameLength_stop`, `numberText?_stop`: What stops at a character does not see
  what follows.
* `lexeme_line`: A lexeme that is not left open ends with its line.
* `lexes_of_closed`: Whole lines without open lexemes are cut for themselves.
-/

namespace WidgetSync

namespace Markup

theorem takeWhile_stop {α : Type} {p : α → Bool} {x : α} (hp : p x = false) (cs rest : List α) :
    (cs ++ x :: rest).takeWhile p = cs.takeWhile p := by
  induction cs with
  | nil =>
      rw [List.nil_append, List.takeWhile_cons, hp, if_neg Bool.false_ne_true, List.takeWhile_nil]
  | cons c cs ih => rw [List.cons_append, List.takeWhile_cons, List.takeWhile_cons, ih]

/-- The end of a line is in a text, or it is what the text behind starts with. -/
def HasLine (cs rest : List Char) : Prop :=
  '\n' ∈ cs ∨ ∀ c ∈ rest.head?, c = '\n'

theorem HasLine.cons {cs rest : List Char} (c : Char) (h : HasLine cs rest) :
    HasLine (c :: cs) rest :=
  h.imp_left (List.mem_cons_of_mem c)

theorem HasLine.tail {c : Char} {cs rest : List Char} (h : HasLine (c :: cs) rest)
    (hc : c ≠ '\n') : HasLine cs rest :=
  h.imp_left fun hmem => (List.mem_cons.mp hmem).resolve_left (Ne.symm hc)

/-- What does not look past the end of a line is the same for a text that has one, whatever
    follows. -/
theorem eq_of_stop {α : Type} {f : List Char → α}
    (hstop : ∀ cs rest, f (cs ++ '\n' :: rest) = f cs) {cs : List Char} (rest : List Char)
    (h : HasLine cs rest) : f (cs ++ rest) = f cs := by
  rcases h with hmem | hrest
  · rcases List.append_of_mem hmem with ⟨as, bs, rfl⟩
    rw [List.append_assoc, List.cons_append, hstop, hstop]
  · cases rest with
    | nil => rw [List.append_nil]
    | cons x rest => rw [hrest x rfl, hstop]

theorem takeWhile_line {p : Char → Bool} (hp : p '\n' = false) {cs : List Char} (rest : List Char)
    (h : HasLine cs rest) : (cs ++ rest).takeWhile p = cs.takeWhile p :=
  eq_of_stop (takeWhile_stop hp) rest h

/-- The character ends a name and a number, and belongs to neither. -/
def isStop (c : Char) : Bool :=
  isSpace c || c == '\n' || c == ';' || c == '\x7b' || c == '\x7d' || c == '/'

/-- What follows is nothing, or a character that ends names and numbers. -/
def stops : List Char → Bool
  | [] => true
  | c :: _ => isStop c

theorem isStop_spec {c : Char} (h : isStop c = true) :
    (continuesName c || startsName c || Text.isDigit c) = false ∧
      c ∉ ['.', '+', '-', 'e', 'E', '"', '\'', '\\', '*'] := by
  simp only [isStop, isSpace, Bool.or_eq_true, beq_iff_eq, or_assoc] at h
  rcases h with rfl | rfl | rfl | rfl | rfl | rfl | rfl | rfl | rfl | rfl
  all_goals decide

theorem nameLength_stop {rest : List Char} (hrest : stops rest = true) (cs : List Char) :
    nameLength (cs ++ rest) = nameLength cs := by
  cases rest with
  | nil => rw [List.append_nil]
  | cons x rest =>
  obtain ⟨hclass, hother⟩ := isStop_spec hrest
  simp only [Bool.or_eq_false_iff, List.mem_cons, not_or] at hclass hother
  have hend : nameLength (x :: rest) = 0 := by
    rw [nameLength.eq_def]
    simp only [hclass.1.1, Bool.false_eq_true, if_false, hother.1]
  induction cs using nameLength_induction with
  | ended cs hzero =>
      -- A point does not continue the name either, since a stop starts no name.
      rw [hzero]
      cases cs with
      | nil => exact hend
      | cons c cs =>
          rw [nameLength.eq_def] at hzero
          rw [List.cons_append, nameLength.eq_def]
          simp only at hzero ⊢
          by_cases hc : continuesName c = true
          · rw [if_pos hc] at hzero
            exact absurd hzero (Nat.succ_ne_zero _)
          · rw [if_neg hc]
            by_cases hpoint : c = '.'
            · rw [if_pos hpoint]
              cases cs with
              | nil => simp only [List.nil_append, hclass.1.2, Bool.false_eq_true, if_false]
              | cons d ds =>
                  simp only [if_neg hc, if_pos hpoint] at hzero
                  by_cases hd : startsName d = true
                  · rw [if_pos hd] at hzero
                    exact absurd hzero (Nat.succ_ne_zero _)
                  · simp only [List.cons_append, if_neg hd]
            · rw [if_neg hpoint]
  | continues c cs hc ih =>
      rw [List.cons_append, nameLength_cons _ hc, nameLength_cons _ hc, ih]
  | point d ds hd ih =>
      rw [List.cons_append, List.cons_append, nameLength_point _ hd, nameLength_point _ hd, ih]

theorem takeWhile_isDigit_stop {rest : List Char} (hrest : stops rest = true) (cs : List Char) :
    (cs ++ rest).takeWhile Text.isDigit = cs.takeWhile Text.isDigit := by
  cases rest with
  | nil => rw [List.append_nil]
  | cons x rest =>
      have hclass := (isStop_spec hrest).1
      simp only [Bool.or_eq_false_iff] at hclass
      exact takeWhile_stop hclass.2 cs rest

theorem exponentText?_unsigned {mark c : Char} (cs : List Char) (hmark : mark = 'e' ∨ mark = 'E')
    (hplus : c ≠ '+') (hminus : c ≠ '-') :
    exponentText? (mark :: c :: cs) =
      if ((c :: cs).takeWhile Text.isDigit).isEmpty then none
      else some ⟨none, (c :: cs).takeWhile Text.isDigit⟩ := by
  unfold exponentText?
  simp only [hmark, if_true]
  split
  · rename_i heq
    exact absurd (List.cons.inj heq).1 hplus
  · rename_i heq
    exact absurd (List.cons.inj heq).1 hminus
  · rfl

theorem exponentText?_stop {rest : List Char} (hrest : stops rest = true) (cs : List Char) :
    exponentText? (cs ++ rest) = exponentText? cs := by
  have hdigits := takeWhile_isDigit_stop hrest
  cases rest with
  | nil => rw [List.append_nil]
  | cons x rest =>
  have hother := (isStop_spec hrest).2
  simp only [List.mem_cons, not_or] at hother
  cases cs with
  | nil =>
      unfold exponentText?
      simp only [List.nil_append, hother.2.2.2.1, hother.2.2.2.2.1, or_self, if_false]
  | cons mark cs =>
      by_cases hmark : mark = 'e' ∨ mark = 'E'
      · -- A sign is looked at before the digits, and a stop is none.
        cases cs with
        | nil =>
            have hnone := hdigits []
            rw [List.nil_append, List.takeWhile_nil] at hnone
            rw [List.cons_append, List.nil_append,
              exponentText?_unsigned _ hmark hother.2.1 hother.2.2.1, hnone]
            unfold exponentText?
            simp only [hmark, if_true]
            rfl
        | cons c cs =>
            rw [List.cons_append, List.cons_append]
            by_cases hplus : c = '+'
            · subst hplus
              unfold exponentText?
              simp only [hdigits cs]
            · by_cases hminus : c = '-'
              · subst hminus
                unfold exponentText?
                simp only [hdigits cs]
              · rw [exponentText?_unsigned _ hmark hplus hminus,
                  exponentText?_unsigned _ hmark hplus hminus, ← List.cons_append,
                  hdigits (c :: cs)]
      · unfold exponentText?
        simp only [List.cons_append, if_neg hmark]

theorem unsignedText?_whole (negative : Bool) {cs : List Char} {d : Char} {ds : List Char}
    (h : cs.drop (cs.takeWhile Text.isDigit).length = d :: ds) (hpoint : d ≠ '.') :
    unsignedText? negative cs =
      if (cs.takeWhile Text.isDigit).isEmpty then none
      else some ⟨negative, cs.takeWhile Text.isDigit, false, [], exponentText? (d :: ds)⟩ := by
  unfold unsignedText?
  simp only [h]
  split
  · rename_i heq
    exact absurd (List.cons.inj heq).1 hpoint
  · rfl

theorem unsignedText?_stop (negative : Bool) {rest : List Char} (hrest : stops rest = true)
    (cs : List Char) : unsignedText? negative (cs ++ rest) = unsignedText? negative cs := by
  have hwhole := takeWhile_isDigit_stop hrest cs
  have hdrop : (cs ++ rest).drop (cs.takeWhile Text.isDigit).length
      = cs.drop (cs.takeWhile Text.isDigit).length ++ rest :=
    List.drop_append_of_le_length (length_takeWhile_le _ cs)
  cases hds : cs.drop (cs.takeWhile Text.isDigit).length with
  | nil =>
      -- Behind the digits there is a stop, as good as nothing.
      rw [hds, List.nil_append] at hdrop
      cases rest with
      | nil => rw [List.append_nil]
      | cons x rest =>
          have hother := (isStop_spec hrest).2
          simp only [List.mem_cons, not_or] at hother
          have hnone := exponentText?_stop hrest []
          rw [List.nil_append] at hnone
          rw [@unsignedText?_whole negative (cs ++ x :: rest) x rest (by rw [hwhole, hdrop])
            hother.1, hwhole, hnone]
          unfold unsignedText?
          simp only [hds]
  | cons d ds =>
      rw [hds] at hdrop
      by_cases hpoint : d = '.'
      · subst hpoint
        unfold unsignedText?
        simp only [hwhole, hdrop, hds, List.cons_append, takeWhile_isDigit_stop hrest ds,
          List.drop_append_of_le_length (length_takeWhile_le _ ds), exponentText?_stop hrest]
      · rw [unsignedText?_whole negative hds hpoint,
          @unsignedText?_whole negative (cs ++ rest) _ _
            (by rw [hwhole, hdrop, List.cons_append]) hpoint, hwhole, ← List.cons_append,
          exponentText?_stop hrest]

theorem numberText?_stop {rest : List Char} (hrest : stops rest = true) (cs : List Char) :
    numberText? (cs ++ rest) = numberText? cs := by
  have hform : ∀ {c : Char} (ds : List Char), c ≠ '-' →
      numberText? (c :: ds) = unsignedText? false (c :: ds) := by
    intro c ds hminus
    unfold numberText?
    split
    · rename_i heq
      exact absurd (List.cons.inj heq).1 hminus
    · rfl
  cases cs with
  | nil =>
      cases rest with
      | nil => rfl
      | cons x rest =>
          have hother := (isStop_spec hrest).2
          simp only [List.mem_cons, not_or] at hother
          exact (hform rest hother.2.2.1).trans (unsignedText?_stop false hrest [])
  | cons c cs =>
      by_cases hminus : c = '-'
      · subst hminus
        exact unsignedText?_stop true hrest cs
      · rw [List.cons_append, hform _ hminus, hform _ hminus]
        exact unsignedText?_stop false hrest (c :: cs)

/-- The search for the closing quote runs out of text. -/
def quoteOpen (quote : Char) : List Char → Bool
  | [] => true
  | '\\' :: cs =>
    match cs with
    | _ :: ds => quoteOpen quote ds
    | [] => true
  | c :: cs => c != quote && c != '\n' && quoteOpen quote cs

theorem quoteOpen_cons {quote c : Char} (cs : List Char) (hc : c ≠ '\\') :
    quoteOpen quote (c :: cs) = (c != quote && c != '\n' && quoteOpen quote cs) := by
  rw [quoteOpen.eq_def]
  split
  · rename_i heq
    exact absurd heq (by simp only [reduceCtorEq, not_false_eq_true])
  · rename_i heq
    exact absurd (List.cons.inj heq).1 hc
  · rename_i heq
    obtain ⟨rfl, rfl⟩ := List.cons.inj heq
    rfl

theorem quotedLength?_closed {quote : Char} {cs : List Char} (rest : List Char) (n : Nat)
    (h : quoteOpen quote cs = false) :
    quotedLength? quote n (cs ++ rest) = quotedLength? quote n cs := by
  induction cs using quoted_induction generalizing n with
  | nil => exact absurd h (by simp only [quoteOpen, Bool.true_eq_false, not_false_eq_true])
  | backslash => exact absurd h (by simp only [quoteOpen, Bool.true_eq_false, not_false_eq_true])
  | pair d ds ih =>
      rw [List.cons_append, List.cons_append, quotedLength?_backslash, quotedLength?_backslash]
      exact ih _ h
  | char c cs hback ih =>
      rw [List.cons_append, quotedLength?_cons _ _ hback, quotedLength?_cons _ _ hback]
      rw [quoteOpen_cons _ hback] at h
      by_cases hquote : c = quote
      · rw [if_pos hquote, if_pos hquote]
      · by_cases hline : c = '\n'
        · rw [if_neg hquote, if_pos hline, if_neg hquote, if_pos hline]
        · rw [if_neg hquote, if_neg hline, if_neg hquote, if_neg hline]
          have hquote' : (c != quote) = true := by rwa [bne_iff_ne]
          have hline' : (c != '\n') = true := by rwa [bne_iff_ne]
          rw [hquote', hline', Bool.true_and, Bool.true_and] at h
          exact ih _ h

theorem exponentText?_le {cs : List Char} {e : ExponentText} (h : exponentText? cs = some e) :
    e.length ≤ cs.length := by
  obtain ⟨mark, rest, -, -, -, rfl⟩ := exponentText?_split h
  rw [e.length_eq mark, List.length_append]
  exact Nat.le_add_right _ _

theorem NumberText.length_le {n : NumberText} {ds : List Char}
    (h : n.exponent = exponentText? ds) :
    n.length ≤ (if n.negative then 1 else 0) + n.whole.length + (if n.point then 1 else 0)
      + n.places.length + ds.length := by
  unfold NumberText.length
  rw [h]
  cases he : exponentText? ds with
  | none => exact Nat.add_le_add_left (Nat.zero_le _) _
  | some e => exact Nat.add_le_add_left (exponentText?_le he) _

theorem unsignedText?_le {negative : Bool} {cs : List Char} {n : NumberText}
    (h : unsignedText? negative cs = some n) :
    n.length ≤ (if negative then 1 else 0) + cs.length := by
  have hwhole := length_takeWhile_le Text.isDigit cs
  have hbehind : (cs.drop (cs.takeWhile Text.isDigit).length).length
      = cs.length - (cs.takeWhile Text.isDigit).length := List.length_drop
  unfold unsignedText? at h
  simp only at h
  split at h
  · rename_i ds hds
    rw [hds, List.length_cons] at hbehind
    split at h
    · exact absurd h (by simp only [reduceCtorEq, not_false_eq_true])
    · have hplaces := length_takeWhile_le Text.isDigit ds
      rw [← Option.some.inj h]
      refine Nat.le_trans (NumberText.length_le rfl) ?_
      simp only [if_true, List.length_drop]
      omega
  · split at h
    · exact absurd h (by simp only [reduceCtorEq, not_false_eq_true])
    · rw [← Option.some.inj h]
      refine Nat.le_trans (NumberText.length_le rfl) ?_
      simp only [Bool.false_eq_true, if_false, List.length_nil]
      omega

theorem numberText?_le {cs : List Char} {n : NumberText} (h : numberText? cs = some n) :
    n.length ≤ cs.length := by
  unfold numberText? at h
  split at h
  · have := unsignedText?_le h
    simp only [if_true] at this
    rw [List.length_cons]
    omega
  · have := unsignedText?_le h
    simpa only [Bool.false_eq_true, if_false, Nat.zero_add] using this

/-- A lexeme has no more characters than the text. -/
theorem lexeme_length_le (c : Char) (cs : List Char) : (lexeme c cs).2 ≤ cs.length := by
  cases hlexeme : lexeme c cs with
  | mk k n =>
      simp only
      cases found_of_lexeme hlexeme with
      | @line ds _ hcs =>
          rw [hcs, List.length_cons]
          exact Nat.succ_le_succ (length_takeWhile_le _ ds)
      | block _ hcs hn =>
          have := commentLength?_le hn
          rw [hcs, List.length_cons]
          omega
      | lines _ hcs hn =>
          have := commentLength?_le hn
          rw [hcs, List.length_cons]
          omega
      | blanks => exact length_takeWhile_le _ cs
      | quoted _ hn => simpa only [Nat.zero_add] using quotedLength?_le hn
      | number hn =>
          have := numberText?_le hn
          rw [List.length_cons] at this
          omega
      | name => exact nameLength_le cs
      | feed | opening | closing | colon | semicolon | other => exact Nat.zero_le _

/-- The first lexeme of the text `c :: cs` is not left open. -/
def closedAt (c : Char) (cs : List Char) : Bool :=
  if c = '/' then
    match cs with
    | '*' :: ds => (commentLength? 1 ds).isSome
    | _ => true
  else if c = '"' ∨ c = '\'' then !quoteOpen c cs
  else true

theorem closedAt_comment (ds : List Char) :
    closedAt '/' ('*' :: ds) = (commentLength? 0 ds).isSome := by
  rw [← Option.isSome_map (f := (· + 1)), ← commentLength?_shift]
  rfl

theorem closedAt_quote {c : Char} (h : c = '"' ∨ c = '\'') (cs : List Char) :
    closedAt c cs = !quoteOpen c cs := by
  have hslash : c ≠ '/' := by
    rcases h with rfl | rfl
    · decide
    · decide
  unfold closedAt
  rw [if_neg hslash, if_pos h]

/-- A lexeme that is not left open ends with its line. -/
theorem lexeme_line {c : Char} {cs : List Char} (rest : List Char) (h : HasLine cs rest)
    (hclosed : closedAt c cs = true) : lexeme c (cs ++ rest) = lexeme c cs := by
  unfold closedAt at hclosed
  by_cases hslash : c = '/'
  · rw [if_pos hslash] at hclosed
    subst hslash
    cases cs with
    | nil =>
        rcases h with hmem | hrest
        · exact absurd hmem List.not_mem_nil
        · cases rest with
          | nil => rfl
          | cons x rest =>
              obtain rfl := hrest x rfl
              rfl
    | cons d ds =>
        rw [List.cons_append]
        by_cases hd : d = '/'
        · subst hd
          rw [lexeme_comment_line, lexeme_comment_line,
            takeWhile_line (p := (· != '\n')) (by decide) rest (h.tail (by decide))]
        by_cases hstar : d = '*'
        · subst hstar
          simp only [commentLength?_shift 1, Option.isSome_map, Option.isSome_iff_exists] at hclosed
          rcases hclosed with ⟨n, hn⟩
          -- The comment ends inside the text, so its lines can be counted there.
          have hle := commentLength?_le hn
          rw [lexeme_comment_closed hn, lexeme_comment_closed (commentLength?_closed rest hn),
            List.take_append_of_le_length (show n ≤ ds.length by omega)]
        · rw [lexeme_slash_cons hd hstar, lexeme_slash_cons hd hstar]
  · rw [if_neg hslash] at hclosed
    have hnumber : numberText? (c :: (cs ++ rest)) = numberText? (c :: cs) := by
      rw [← List.cons_append]
      exact eq_of_stop (fun cs rest => numberText?_stop rfl cs) rest (h.cons c)
    unfold lexeme
    rw [if_neg hslash, if_neg hslash]
    -- All other lexemes are taken while characters of a class come, and the line end is in
    -- none of the classes.
    by_cases hquote : c = '"' ∨ c = '\''
    · rw [if_pos hquote, Bool.not_eq_true'] at hclosed
      simp only [quotedLength?_closed rest 0 hclosed,
        takeWhile_line (p := isSpace) (by decide) rest h, hnumber,
        eq_of_stop (fun cs rest => nameLength_stop rfl cs) rest h]
    · simp only [if_neg hquote, takeWhile_line (p := isSpace) (by decide) rest h, hnumber,
        eq_of_stop (fun cs rest => nameLength_stop rfl cs) rest h]

/-- No lexeme of the text is left open. -/
def closed : List Char → Bool
  | [] => true
  | c :: cs => closedAt c cs && closed (cs.drop (lexeme c cs).2)
termination_by cs => cs.length
decreasing_by simp only [List.length_cons, List.length_drop]; omega

/-- The text consists of whole lines. -/
def wholeLines (cs : List Char) : Bool :=
  cs.isEmpty || cs.getLast? == some '\n'

theorem wholeLines_drop {c : Char} {cs : List Char} (n : Nat) (h : wholeLines (c :: cs) = true) :
    wholeLines (cs.drop n) = true := by
  simp only [wholeLines, List.isEmpty_cons, Bool.false_or, beq_iff_eq] at h
  by_cases hn : cs.length ≤ n
  · rw [List.drop_eq_nil_iff.mpr hn]
    rfl
  · have hne : cs ≠ [] := by
      rintro rfl
      exact hn (Nat.zero_le _)
    rw [List.getLast?_cons, List.getLast?_eq_some_getLast hne, Option.getD_some] at h
    rw [wholeLines, List.getLast?_drop, if_neg hn, List.getLast?_eq_some_getLast hne, h,
      beq_self_eq_true, Bool.or_true]

/-- The first lexeme of whole lines, whatever follows them, or of a text in front of the end of
    its line. -/
theorem lexeme_append {c : Char} {cs : List Char} (rest : List Char)
    (hlines : wholeLines (c :: cs) = true ∨ ∀ c ∈ rest.head?, c = '\n')
    (hclosed : closedAt c cs = true) : lexeme c (cs ++ rest) = lexeme c cs := by
  rcases hlines with hlines | hrest
  · simp only [wholeLines, List.isEmpty_cons, Bool.false_or, beq_iff_eq] at hlines
    cases cs with
    | nil =>
        rw [List.getLast?_singleton, Option.some.injEq] at hlines
        rw [hlines, lexeme_newline, lexeme_newline]
    | cons d ds =>
        refine lexeme_line rest (.inl ?_) hclosed
        rw [List.getLast?_cons_cons] at hlines
        exact List.mem_of_getLast? hlines
  · exact lexeme_line rest (.inr hrest) hclosed

theorem scanFrom_closed {gap cs : List Char} (rest : List Char) (hclosed : closed cs = true)
    (hlines : wholeLines cs = true ∨ ∀ c ∈ rest.head?, c = '\n')
    (htail : (scanFrom gap cs).tail = []) :
    scanFrom gap (cs ++ rest) = (scan rest).after (scanFrom gap cs).tokens := by
  induction gap, cs using scanFrom_induction with
  | nil gap =>
      rw [scanFrom] at htail
      simp only at htail
      rw [List.nil_append, htail, scanFrom]
      exact (Scan.after_nil _).symm
  | skipped gap c cs n hlexeme ih =>
      rw [closed, hlexeme, Bool.and_eq_true] at hclosed
      have hfirst := lexeme_append rest hlines hclosed.1
      have hle := lexeme_length_le c cs
      rw [hlexeme] at hfirst hle
      rw [scanFrom, hlexeme] at htail
      rw [List.cons_append, scanFrom, scanFrom, hfirst, hlexeme]
      simp only [List.take_append_of_le_length hle, List.drop_append_of_le_length hle]
      exact ih hclosed.2 (hlines.imp_left (wholeLines_drop n)) htail
  | token gap c cs kind n hlexeme ih =>
      rw [closed, hlexeme, Bool.and_eq_true] at hclosed
      have hfirst := lexeme_append rest hlines hclosed.1
      have hle := lexeme_length_le c cs
      rw [hlexeme] at hfirst hle
      rw [scanFrom, hlexeme] at htail
      rw [List.cons_append, scanFrom, scanFrom, hfirst, hlexeme]
      simp only [List.take_append_of_le_length hle, List.drop_append_of_le_length hle,
        ih hclosed.2 (hlines.imp_left (wholeLines_drop n)) htail]
      rfl

/-- Whole lines without open lexemes are cut for themselves. -/
theorem lexes_of_closed {cs : List Char} (hclosed : closed cs = true)
    (hlines : wholeLines cs = true) (htail : (scan cs).tail = []) : Lexes cs (scan cs).tokens :=
  fun rest => scanFrom_closed rest hclosed (.inl hlines) htail

end Markup

end WidgetSync
