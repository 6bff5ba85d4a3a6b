import WidgetSync.Proofs.Locality
import WidgetSync.Proofs.Statements

/-!
# Indentation Leaves the Tokens Alone

Spaces at the starts of lines change neither the kinds of tokens nor their order.

Most lexemes end with their line, so what they are is settled by characters that
indentation does not touch. Two kinds reach into the next line: a block comment,
and a quoted text in which a backslash covers the line feed. There the added spaces
become part of the lexeme. They cannot end it, since neither a comment nor a quoted
text ends with a space, so the lexeme still ends at the character at which it ended.

`Spread` relates a text to one with more indentation, and is followed lexeme by
lexeme. Only kinds are compared: the gaps and the characters of tokens do change.

## Main definitions

* `Spread`: A text, and the text with more spaces at the starts of lines.
* `kinds`: The kinds of the tokens of a text.

## Theorems

* `withGaps_scan`: The tokens and what follows them are the text.
* `Spread.lexeme`: A lexeme, and the same lexeme with more spaces.
* `Spread.kinds`: Indentation leaves the kinds of tokens alone.
-/

namespace WidgetSync

namespace Markup

theorem withGaps_cons (t : Token) (ts : List Token) :
    withGaps (t :: ts) = t.gap ++ t.body ++ withGaps ts := rfl

/-- Nothing of a text is lost. -/
theorem withGaps_scanFrom (gap cs : List Char) :
    withGaps (scanFrom gap cs).tokens ++ (scanFrom gap cs).tail = gap ++ cs := by
  -- What is skipped goes to the gap of the next token, or to the tail.
  induction gap, cs using scanFrom_induction with
  | nil gap => rw [scanFrom, withGaps, List.flatMap_nil, List.nil_append, List.append_nil]
  | skipped gap c cs n hlexeme ih =>
      rw [scanFrom, hlexeme]
      simp only [ih]
      rw [List.append_assoc, List.cons_append, List.take_append_drop]
  | token gap c cs kind n hlexeme ih =>
      rw [scanFrom, hlexeme]
      simp only [withGaps_cons]
      rw [List.append_assoc, ih, List.nil_append, List.append_assoc, List.cons_append,
        List.take_append_drop]

theorem withGaps_scan (cs : List Char) : withGaps (scan cs).tokens ++ (scan cs).tail = cs :=
  withGaps_scanFrom [] cs

/-- What is skipped ends before its line does. -/
theorem lexeme_skipped {c : Char} {cs : List Char} {n : Nat} (h : lexeme c cs = (.skipped, n)) :
    '\n' ∉ c :: cs.take n :=
  (isLexeme_of_lexeme h).newline_not_mem

/-- Nothing is skipped behind the last token of whole lines. -/
theorem tail_wholeLines {cs : List Char} (h : wholeLines cs = true) : (scan cs).tail = [] := by
  have hfrom : ∀ gap cs : List Char, cs ≠ [] → wholeLines cs = true →
      (scanFrom gap cs).tail = [] := by
    intro gap cs hne hlines
    induction gap, cs using scanFrom_induction with
    | nil gap => exact absurd rfl hne
    | skipped gap c cs n hlexeme ih =>
        rw [scanFrom, hlexeme]
        refine ih (fun hnil => ?_) (wholeLines_drop n hlines)
        -- Then the line feed at the end would have been skipped.
        rw [wholeLines, List.isEmpty_cons, Bool.false_or, beq_iff_eq] at hlines
        have hskipped := lexeme_skipped hlexeme
        rw [List.take_of_length_le (List.drop_eq_nil_iff.mp hnil)] at hskipped
        exact hskipped (List.mem_of_getLast? hlines)
    | token gap c cs kind n hlexeme ih =>
        rw [scanFrom, hlexeme]
        by_cases hnil : cs.drop n = []
        · simp only [hnil]
          rw [scanFrom]
        · exact ih hnil (wholeLines_drop n hlines)
  by_cases hne : cs = []
  · rw [hne, scan, scanFrom]
  · exact hfrom [] cs hne h

/-- A lexeme of one line, at the end of the line. -/
theorem lexeme_short {c : Char} (l rest : List Char) (hslash : c ≠ '/')
    (hquote : ¬(c = '"' ∨ c = '\'')) : lexeme c (l ++ '\n' :: rest) = lexeme c l := by
  refine lexeme_line _ (.inr ?_) ?_
  · simp
  · unfold closedAt
    rw [if_neg hslash, if_neg hquote]

/-- A text, and the text with more spaces at the starts of lines. -/
inductive Spread : List Char → List Char → Prop where
  /-- Nothing. -/
  | nil : Spread [] []
  /-- A character inside a line. -/
  | char {c : Char} {cs ds : List Char} (hc : c ≠ '\n') (h : Spread cs ds) :
      Spread (c :: cs) (c :: ds)
  /-- A line feed with the spaces behind it. -/
  | line {cs ds : List Char} (n : Nat) (h : Spread cs ds) :
      Spread ('\n' :: cs) ('\n' :: (List.replicate n ' ' ++ ds))

theorem Spread.append_left {l cs ds : List Char} (hl : '\n' ∉ l) (h : Spread cs ds) :
    Spread (l ++ cs) (l ++ ds) := by
  induction l with
  | nil => exact h
  | cons c l ih =>
      rw [List.mem_cons, not_or] at hl
      exact Spread.char (Ne.symm hl.1) (ih hl.2)

/-- The first line is the same in both texts. -/
theorem Spread.first_line {cs ds : List Char} (h : Spread cs ds) (hline : '\n' ∈ cs) :
    ∃ l es fs n, '\n' ∉ l ∧ cs = l ++ '\n' :: es ∧ ds = l ++ '\n' :: (List.replicate n ' ' ++ fs) ∧
      Spread es fs := by
  induction h with
  | nil => exact absurd hline List.not_mem_nil
  | @char c cs ds hc h ih =>
      rcases ih ((List.mem_cons.mp hline).resolve_left (Ne.symm hc)) with
        ⟨l, es, fs, n, hl, rfl, rfl, hrest⟩
      refine ⟨c :: l, es, fs, n, ?_, rfl, rfl, hrest⟩
      rw [List.mem_cons, not_or]
      exact ⟨Ne.symm hc, hl⟩
  | @line cs ds n h => exact ⟨[], cs, ds, n, List.not_mem_nil, rfl, rfl, h⟩

/-- A lexeme inside the first line. -/
theorem Spread.drop_line {l es fs : List Char} {n m : Nat} (hl : '\n' ∉ l) (h : Spread es fs)
    (hm : m ≤ l.length) : Spread ((l ++ '\n' :: es).drop m)
      ((l ++ '\n' :: (List.replicate n ' ' ++ fs)).drop m) := by
  rw [List.drop_append_of_le_length hm, List.drop_append_of_le_length hm]
  exact Spread.append_left (fun hmem => hl (List.mem_of_mem_drop hmem)) (Spread.line n h)

theorem commentLength?_spaces (n : Nat) (cs : List Char) :
    commentLength? 0 (List.replicate n ' ' ++ cs) = (commentLength? 0 cs).map (· + n) := by
  induction n with
  | zero =>
      cases h : commentLength? 0 cs with
      | none => rw [List.replicate_zero, List.nil_append, h, Option.map_none]
      | some m => rw [List.replicate_zero, List.nil_append, h, Option.map_some, Nat.add_zero]
  | succ n ih =>
      rw [List.replicate_succ, List.cons_append,
        commentLength?_cons (fun h => absurd h.1 (by decide)), ih, Option.map_map]
      rfl

theorem Spread.head {cs ds : List Char} (h : Spread cs ds) : cs.head? = ds.head? := by
  cases h with
  | nil => rfl
  | char => rfl
  | line => rfl

/-- A block comment ends where it ended, and spans lines if it did. -/
theorem Spread.comment {cs ds : List Char} (h : Spread cs ds) {n : Nat}
    (hn : commentLength? 0 cs = some n) :
    ∃ m, commentLength? 0 ds = some m ∧ Spread (cs.drop n) (ds.drop m) ∧
      (ds.take m).contains '\n' = (cs.take n).contains '\n' := by
  induction h generalizing n with
  | nil => exact absurd hn (by simp only [commentLength?, reduceCtorEq, not_false_eq_true])
  | @char c cs ds hc h ih =>
      by_cases hend : c = '*' ∧ cs.head? = some '/'
      · obtain ⟨rfl, hslash⟩ := hend
        cases h with
        | nil =>
            exact absurd hslash (by simp only [List.head?_nil, reduceCtorEq, not_false_eq_true])
        | line =>
            exact absurd hslash (by simp only [List.head?_cons, Option.some.injEq, Char.reduceEq,
              not_false_eq_true])
        | char hd h =>
            rw [List.head?_cons, Option.some.injEq] at hslash
            subst hslash
            rw [← Option.some.inj hn]
            exact ⟨2, rfl, h, rfl⟩
      · rw [commentLength?_cons hend] at hn
        rcases Option.map_eq_some_iff.mp hn with ⟨k, hk, rfl⟩
        rcases ih hk with ⟨m, hm, hrest, hlines⟩
        refine ⟨m + 1, ?_, hrest, ?_⟩
        · rw [commentLength?_cons (by rwa [← h.head]), hm, Option.map_some]
        · rw [List.take_succ_cons, List.take_succ_cons, List.contains_cons, List.contains_cons,
            hlines]
  | @line cs ds j h ih =>
      -- The spaces belong to the comment, which is as much longer.
      rw [commentLength?_cons (fun h => absurd h.1 (by decide))] at hn
      rcases Option.map_eq_some_iff.mp hn with ⟨k, hk, rfl⟩
      rcases ih hk with ⟨m, hm, hrest, -⟩
      refine ⟨m + j + 1, ?_, ?_, ?_⟩
      · rw [commentLength?_cons (fun h => absurd h.1 (by decide)), commentLength?_spaces, hm,
          Option.map_some, Option.map_some]
      · rw [List.drop_succ_cons, List.drop_succ_cons, Nat.add_comm m j, ← List.drop_drop,
          List.drop_left' List.length_replicate]
        exact hrest
      · rw [List.take_succ_cons, List.take_succ_cons, List.contains_cons, List.contains_cons]
        rfl

/-- Spaces inside a quoted text. -/
theorem quoted_spaces {quote : Char} (hquote : ' ' ≠ quote) (n : Nat) (cs : List Char) :
    quotedLength? quote 0 (List.replicate n ' ' ++ cs) = (quotedLength? quote 0 cs).map (· + n) ∧
      quoteOpen quote (List.replicate n ' ' ++ cs) = quoteOpen quote cs := by
  induction n with
  | zero =>
      rw [List.replicate_zero, List.nil_append]
      cases quotedLength? quote 0 cs with
      | none => exact ⟨rfl, rfl⟩
      | some m => exact ⟨rfl, rfl⟩
  | succ n ih =>
      rw [List.replicate_succ, List.cons_append, quotedLength?_cons _ _ (by decide), if_neg hquote,
        if_neg (by decide), quotedLength?_shift, ih.1, Option.map_map, quoteOpen_cons _ (by decide),
        ih.2]
      refine ⟨rfl, ?_⟩
      rw [bne_iff_ne.mpr hquote, Bool.true_and]
      rfl

/-- The quoted text ends in both texts, or in neither, and behind it they are spread. -/
def Spread.Ends (quote : Char) (cs ds : List Char) : Prop :=
  (quotedLength? quote 0 cs = none ∧ quotedLength? quote 0 ds = none) ∨
    ∃ n m, quotedLength? quote 0 cs = some n ∧ quotedLength? quote 0 ds = some m ∧
      Spread (cs.drop n) (ds.drop m)

/-- So it does with some characters in front that do not end it. -/
theorem Spread.Ends.front {quote : Char} {cs ds l k : List Char} (h : Spread.Ends quote cs ds)
    (hl : quotedLength? quote 0 (l ++ cs) = (quotedLength? quote 0 cs).map (· + l.length))
    (hk : quotedLength? quote 0 (k ++ ds) = (quotedLength? quote 0 ds).map (· + k.length)) :
    Spread.Ends quote (l ++ cs) (k ++ ds) := by
  rw [Spread.Ends, hl, hk]
  rcases h with ⟨hcs, hds⟩ | ⟨n, m, hn, hm, hrest⟩
  · rw [hcs, hds]
    exact .inl ⟨rfl, rfl⟩
  · rw [hn, hm]
    refine .inr ⟨n + l.length, m + k.length, rfl, rfl, ?_⟩
    rw [Nat.add_comm n, Nat.add_comm m, List.drop_length_add_append, List.drop_length_add_append]
    exact hrest

theorem quotedLength?_pair (quote c : Char) (us : List Char) :
    quotedLength? quote 0 ('\\' :: c :: us) = (quotedLength? quote 0 us).map (· + 2) := by
  rw [quotedLength?_backslash, quotedLength?_shift]

/-- The line end under a backslash, and the spaces of the next line. -/
theorem Spread.Ends.covered_line {quote : Char} {cs ds : List Char} (hspace : ' ' ≠ quote)
    (j : Nat) (h : Spread.Ends quote cs ds) :
    Spread.Ends quote ('\\' :: '\n' :: cs)
      ('\\' :: '\n' :: (List.replicate j ' ' ++ ds)) := by
  refine h.front (l := ['\\', '\n']) (k := '\\' :: '\n' :: List.replicate j ' ')
    (quotedLength?_pair quote '\n' cs) ?_
  rw [List.cons_append, List.cons_append, quotedLength?_pair, (quoted_spaces hspace j ds).1,
    Option.map_map, List.length_cons, List.length_cons, List.length_replicate]
  rfl

/-- A quoted text ends where it ended, or is left open by the end of the line as it
    was. -/
theorem Spread.quoted {quote : Char} (hquote : quote = '"' ∨ quote = '\'') {cs ds : List Char}
    (h : Spread cs ds) (hclosed : quoteOpen quote cs = false) :
    quoteOpen quote ds = false ∧ Spread.Ends quote cs ds := by
  have hmarks : ' ' ≠ quote ∧ '\n' ≠ quote := by
    rcases hquote with rfl | rfl
    · decide
    · decide
  obtain ⟨hspace, hfeed⟩ := hmarks
  induction hk : cs.length using Nat.strongRecOn generalizing cs ds with
  | _ k ih =>
      cases h with
      | nil =>
          exact absurd hclosed (by simp only [quoteOpen, Bool.true_eq_false, not_false_eq_true])
      | line j h =>
          -- The quoted text ends with the line, so the spaces are behind it.
          rw [Spread.Ends, quoteOpen_cons _ (by decide), quotedLength?_cons _ _ (by decide),
            if_neg hfeed, if_pos rfl, quotedLength?_cons _ _ (by decide), if_neg hfeed, if_pos rfl]
          refine ⟨?_, Or.inl ⟨rfl, rfl⟩⟩
          rw [show ('\n' != '\n') = false from rfl, Bool.and_false, Bool.false_and]
      | @char c cs ds hc h =>
          rw [List.length_cons] at hk
          by_cases hback : c = '\\'
          · subst hback
            -- The backslash covers the next character, be it a line feed or not.
            cases h with
            | nil => exact absurd hclosed (by simp only [quoteOpen, Bool.true_eq_false,
                not_false_eq_true])
            | @char d cs ds hd h =>
                rw [List.length_cons] at hk
                rcases ih cs.length (by omega) h hclosed rfl with ⟨hopen, hends⟩
                exact ⟨hopen, hends.front (l := ['\\', d]) (k := ['\\', d])
                  (quotedLength?_pair quote d cs) (quotedLength?_pair quote d ds)⟩
            | @line cs ds j h =>
                rw [List.length_cons] at hk
                rcases ih cs.length (by omega) h hclosed rfl with ⟨hopen, hends⟩
                exact ⟨(quoted_spaces hspace j ds).2.trans hopen, hends.covered_line hspace j⟩
          · rw [quoteOpen_cons _ hback] at hclosed ⊢
            by_cases hend : c = quote
            · refine ⟨?_, ?_⟩
              · rw [hend, bne_self_eq_false, Bool.false_and, Bool.false_and]
              · rw [Spread.Ends, quotedLength?_cons _ _ hback, quotedLength?_cons _ _ hback,
                  if_pos hend, if_pos hend]
                exact Or.inr ⟨0 + 1, 0 + 1, rfl, rfl, h⟩
            · have hgoes : ∀ us, quotedLength? quote 0 ([c] ++ us)
                  = (quotedLength? quote 0 us).map (· + 1) := by
                intro us
                rw [List.singleton_append, quotedLength?_cons _ _ hback, if_neg hend, if_neg hc,
                  quotedLength?_shift]
              rw [bne_iff_ne.mpr hend, bne_iff_ne.mpr hc, Bool.true_and, Bool.true_and] at hclosed ⊢
              rcases ih cs.length (by omega) h hclosed rfl with ⟨hopen, hends⟩
              exact ⟨hopen, hends.front (hgoes cs) (hgoes ds)⟩

/-- A slash that starts no block comment, in front of a line end. -/
theorem lexeme_slash {l : List Char} (hl : '\n' ∉ l) (hstar : ∀ k, l ≠ '*' :: k)
    (rest : List Char) : lexeme '/' (l ++ '\n' :: rest) = lexeme '/' l := by
  cases l with
  | nil => rfl
  | cons d k =>
      rw [List.cons_append]
      by_cases hd : d = '/'
      · -- A comment to the end of the line ends where the line does.
        subst hd
        rw [lexeme_comment_line, lexeme_comment_line, takeWhile_stop (by decide)]
      · have hne : d ≠ '*' := by
          rintro rfl
          exact hstar k rfl
        rw [lexeme_slash_cons hd hne, lexeme_slash_cons hd hne]

/-- What `Spread` does to the lexeme that starts with a character in front of the texts. -/
def Spread.Cuts (c : Char) (cs ds : List Char) : Prop :=
  ∃ m, lexeme c ds = ((lexeme c cs).1, m) ∧ Spread (cs.drop (lexeme c cs).2) (ds.drop m) ∧
    closedAt c ds = true

/-- A block comment that is not left open, on one line or on several. -/
theorem Spread.cuts_comment {cs ds : List Char} (h : Spread cs ds)
    (hclosed : closedAt '/' ('*' :: cs) = true) : Spread.Cuts '/' ('*' :: cs) ('*' :: ds) := by
  rw [closedAt_comment] at hclosed
  obtain ⟨n, hn⟩ := Option.isSome_iff_exists.mp hclosed
  rcases h.comment hn with ⟨m, hm, hbehind, hlines⟩
  refine ⟨m + 1, ?_, ?_, ?_⟩
  · rw [lexeme_comment_closed hn, lexeme_comment_closed hm, hlines]
  · rw [lexeme_comment_closed hn, List.drop_succ_cons, List.drop_succ_cons]
    exact hbehind
  · rw [closedAt_comment, hm]
    rfl

/-- A quoted text that is not left open by the end of the text. -/
theorem Spread.cuts_quoted {c : Char} (hquote : c = '"' ∨ c = '\'') {cs ds : List Char}
    (h : Spread cs ds) (hclosed : closedAt c cs = true) : Spread.Cuts c cs ds := by
  rw [closedAt_quote hquote, Bool.not_eq_true'] at hclosed
  rcases h.quoted hquote hclosed with ⟨hopen, hends⟩
  have hat : closedAt c ds = true := by rw [closedAt_quote hquote, hopen, Bool.not_false]
  unfold Spread.Cuts
  rw [lexeme_of_quote hquote, lexeme_of_quote hquote]
  rcases hends with ⟨hcs, hds⟩ | ⟨n, m, hn, hm, hbehind⟩
  · -- The line ends first, and the mark is a token by itself.
    rw [hcs, hds]
    exact ⟨0, rfl, h, hat⟩
  · rw [hn, hm]
    exact ⟨m, rfl, hbehind, hat⟩

/-- A lexeme that is not left open, and the same lexeme with more spaces. -/
theorem Spread.lexeme {c : Char} {cs ds : List Char} (hc : c ≠ '\n') (h : Spread cs ds)
    (hline : '\n' ∈ cs) (hclosed : closedAt c cs = true) : Spread.Cuts c cs ds := by
  rcases h.first_line hline with ⟨l, es, fs, j, hl, rfl, rfl, hrest⟩
  -- A lexeme that ends on its line is found on it alone, and the line is the same.
  have hshort : (∀ us, Markup.lexeme c (l ++ '\n' :: us) = Markup.lexeme c l) →
      closedAt c (l ++ '\n' :: (List.replicate j ' ' ++ fs)) = true →
      Spread.Cuts c (l ++ '\n' :: es) (l ++ '\n' :: (List.replicate j ' ' ++ fs)) := by
    intro hsame hat
    refine ⟨(Markup.lexeme c l).2, ?_, ?_, hat⟩
    · rw [hsame, hsame]
    · rw [hsame]
      exact Spread.drop_line hl hrest (lexeme_length_le c l)
  by_cases hslash : c = '/'
  · subst hslash
    by_cases hcomment : ∃ k, l = '*' :: k
    · obtain ⟨k, rfl⟩ := hcomment
      rw [List.mem_cons, not_or] at hl
      exact (Spread.append_left hl.2 (Spread.line j hrest)).cuts_comment hclosed
    · have hstar : ∀ k, l ≠ '*' :: k := fun k hk => hcomment ⟨k, hk⟩
      refine hshort (lexeme_slash hl hstar) ?_
      unfold closedAt
      rw [if_pos rfl]
      cases l with
      | nil => rfl
      | cons d k =>
          rw [List.cons_append]
          split
          · rename_i heq
            exact absurd (congrArg (· :: k) (List.cons.inj heq).1) (hstar k)
          · rfl
  · by_cases hquote : c = '"' ∨ c = '\''
    · exact (Spread.append_left hl (Spread.line j hrest)).cuts_quoted hquote hclosed
    · refine hshort (fun us => lexeme_short l us hslash hquote) ?_
      unfold closedAt
      rw [if_neg hslash, if_neg hquote]

/-- The kinds of the tokens of a text. -/
def kinds (cs : List Char) : List Kind :=
  (scan cs).tokens.map (·.kind)

theorem kinds_scanFrom (gap cs : List Char) :
    (scanFrom gap cs).tokens.map (·.kind) = kinds cs := by
  rw [scanFrom_eq_behind, kinds]
  cases scan cs with
  | mk ts tail =>
      cases ts with
      | nil => rfl
      | cons t ts => rfl

theorem kinds_skipped {c : Char} {cs : List Char} {n : Nat} (h : lexeme c cs = (.skipped, n)) :
    kinds (c :: cs) = kinds (cs.drop n) := by
  rw [kinds, scan, scanFrom, h]
  exact kinds_scanFrom _ _

theorem kinds_token {c : Char} {cs : List Char} {kind : Kind} {n : Nat}
    (h : lexeme c cs = (.token kind, n)) : kinds (c :: cs) = kind :: kinds (cs.drop n) := by
  rw [kinds, scan, scanFrom, h]
  rfl

theorem closed_cons (c : Char) (cs : List Char) :
    closed (c :: cs) = (closedAt c cs && closed (cs.drop (lexeme c cs).2)) := by
  rw [closed]

theorem closedAt_isSpace {c : Char} (h : isSpace c = true) (cs : List Char) :
    closedAt c cs = true := by
  have hne : ∀ d, isSpace d = false → c ≠ d := by
    rintro d hd rfl
    rw [h] at hd
    exact absurd hd (by decide)
  unfold closedAt
  rw [if_neg (hne '/' (by decide)), if_neg]
  rintro (hquote | hquote)
  · exact hne '"' (by decide) hquote
  · exact hne '\'' (by decide) hquote

/-- A space in front changes no token. -/
theorem kinds_space (cs : List Char) : kinds (' ' :: cs) = kinds cs := by
  rw [kinds, scan, scanFrom_isSpace (by decide), kinds_scanFrom]

theorem closed_isSpace {c : Char} (h : isSpace c = true) (cs : List Char) :
    closed (c :: cs) = closed (cs.dropWhile isSpace) := by
  rw [closed_cons, closedAt_isSpace h, Bool.true_and, lexeme_isSpace h, drop_takeWhile]

theorem closed_space (cs : List Char) : closed (' ' :: cs) = closed cs := by
  rw [closed_isSpace (by decide)]
  cases cs with
  | nil => rfl
  | cons d ds =>
      by_cases hd : isSpace d = true
      · rw [List.dropWhile_cons, if_pos hd, closed_isSpace hd]
      · rw [List.dropWhile_cons, if_neg hd]

theorem kinds_spaces (n : Nat) (cs : List Char) :
    kinds (List.replicate n ' ' ++ cs) = kinds cs ∧
      closed (List.replicate n ' ' ++ cs) = closed cs := by
  induction n with
  | zero => exact ⟨rfl, rfl⟩
  | succ n ih =>
      rw [List.replicate_succ, List.cons_append, kinds_space, closed_space]
      exact ih

/-- Indentation leaves the kinds of tokens alone, and no lexeme becomes open. -/
theorem Spread.kinds {cs ds : List Char} (h : Spread cs ds) (hlines : wholeLines cs = true)
    (hclosed : closed cs = true) : kinds ds = kinds cs ∧ closed ds = true := by
  -- By induction on the length, since a lexeme takes any number of characters.
  induction hn : cs.length using Nat.strongRecOn generalizing cs ds with
  | _ n ih =>
      cases h with
      | nil => exact ⟨rfl, hclosed⟩
      | @line cs ds j h =>
          rw [List.length_cons] at hn
          rw [closed_cons, lexeme_newline, Bool.and_eq_true, List.drop_zero] at hclosed
          rcases ih cs.length (by omega) h (wholeLines_drop 0 hlines) hclosed.2 rfl with
            ⟨hkinds, hopen⟩
          rw [kinds_token (lexeme_newline _), kinds_token (lexeme_newline _), List.drop_zero,
            List.drop_zero, (kinds_spaces j ds).1, hkinds, closed_cons, lexeme_newline,
            List.drop_zero, (kinds_spaces j ds).2, hopen]
          exact ⟨rfl, rfl⟩
      | @char c cs ds hc h =>
          rw [List.length_cons] at hn
          have hmem : '\n' ∈ cs := by
            rw [wholeLines, List.isEmpty_cons, Bool.false_or, beq_iff_eq] at hlines
            exact (List.mem_cons.mp (List.mem_of_getLast? hlines)).resolve_left (Ne.symm hc)
          rw [closed_cons, Bool.and_eq_true] at hclosed
          rcases h.lexeme hc hmem hclosed.1 with ⟨m, hm, hbehind, hat⟩
          have hshort : (cs.drop (Markup.lexeme c cs).2).length < n := by
            rw [List.length_drop]
            omega
          rcases ih _ hshort hbehind (wholeLines_drop _ hlines) hclosed.2 rfl with ⟨hkinds, hopen⟩
          rw [closed_cons, hat, hm, hopen]
          refine ⟨?_, rfl⟩
          cases hlexeme : Markup.lexeme c cs with
          | mk x k =>
              rw [hlexeme] at hm hkinds
              cases x with
              | skipped => rw [kinds_skipped hm, kinds_skipped hlexeme, hkinds]
              | token kind => rw [kinds_token hm, kinds_token hlexeme, hkinds]

end Markup

end WidgetSync
