import WidgetSync.Proofs.Searches

/-!
# What a Lexeme Can Be

The lexemes of a text, case by case and described without the reader.

All that the reader does with the start of a text is in one function with many branches. `Found`
has a case for each of them, with what was tested on the way there, so nothing else needs to follow
the branches.

What was found can also be said of the characters alone, and `IsLexeme` says it: blanks, a comment,
a line feed, a text in quotes, characters of a number or a name, or one character of any kind. Only
the comment to the end of a line needs to know what is behind it. What is a number and what is a
name is left open, but neither has brackets, colons, semicolons, quotes, slashes or line feeds in it
(`isWordy`). So a lexeme that holds one of these, and does not start with it, is a comment or a text
in quotes (`IsLexeme.inside`).

## Main definitions

* `Found`: What the reader finds, case by case.
* `LineComment`, `BlockComment`, `Quoted`: The comments, and a text in quotes.
* `isWordy`: The characters of numbers and names.
* `IsLexeme`: What a lexeme can be.

## Theorems

* `found_of_lexeme`: The cases of a lexeme.
* `lexeme_block`, `lexeme_quotes`: Comments and texts in quotes are lexemes in front of any text.
* `isLexeme_of_lexeme`: A lexeme is what a lexeme can be.
* `IsLexeme.kind_eq`: The lexemes that end a line.
* `IsLexeme.inside`: The lexemes that hold other characters than numbers and names do.
-/

namespace WidgetSync

namespace Markup

/-! ### The cases of a lexeme -/

theorem lexeme_slash_other {ds : List Char} (h : ∀ d ∈ ds.head?, d ≠ '/' ∧ d ≠ '*') :
    lexeme '/' ds = (.token .other, 0) := by
  cases ds with
  | nil => rfl
  | cons d ds =>
      obtain ⟨hslash, hstar⟩ := h d rfl
      unfold lexeme
      rw [if_pos rfl]
      split
      · rename_i heq
        exact absurd (List.cons.inj heq).1 hslash
      · rename_i heq
        exact absurd (List.cons.inj heq).1 hstar
      · rfl

theorem lexeme_slash_cons {d : Char} (hslash : d ≠ '/') (hstar : d ≠ '*') (ds : List Char) :
    lexeme '/' (d :: ds) = (.token .other, 0) := by
  refine lexeme_slash_other fun e he => ?_
  obtain rfl := Option.some.inj he
  exact ⟨hslash, hstar⟩

/-- A comment between stars that is not closed is none. -/
theorem lexeme_comment_open {ds : List Char} (h : commentLength? 0 ds = none) :
    lexeme '/' ('*' :: ds) = (.token .other, 0) := by
  have hlength : commentLength? 1 ds = none := by rw [commentLength?_shift, h, Option.map_none]
  unfold lexeme
  simp only [if_true, hlength]

/-- It is skipped if it is closed, or ends a line if it goes over one. -/
theorem lexeme_comment_closed {ds : List Char} {n : Nat} (h : commentLength? 0 ds = some n) :
    lexeme '/' ('*' :: ds)
      = (if (ds.take n).contains '\n' then .token .newline else .skipped, n + 1) := by
  have hlength : commentLength? 1 ds = some (n + 1) := by
    rw [commentLength?_shift, h, Option.map_some]
  unfold lexeme
  simp only [if_true, hlength, Nat.add_sub_cancel]
  by_cases hline : (ds.take n).contains '\n' = true
  · rw [if_pos hline, if_pos hline]
  · rw [if_neg hline, if_neg hline]

theorem lexeme_comment_line (ds : List Char) :
    lexeme '/' ('/' :: ds) = (.skipped, 1 + (ds.takeWhile (· != '\n')).length) :=
  rfl

/-- A slash that is a lexeme by itself starts no comment. -/
theorem lexeme_slash_alone {ds : List Char} (h : (lexeme '/' ds).2 = 0) :
    lexeme '/' ds = (.token .other, 0) := by
  cases ds with
  | nil => rfl
  | cons d ds =>
      by_cases hslash : d = '/'
      · subst hslash
        rw [lexeme_comment_line] at h
        simp at h
      by_cases hstar : d = '*'
      · subst hstar
        cases hlength : commentLength? 0 ds with
        | none => rw [lexeme_comment_open hlength]
        | some n =>
            rw [lexeme_comment_closed hlength] at h
            exact absurd h (Nat.succ_ne_zero n)
      · exact lexeme_slash_cons hslash hstar ds

/-- A quote starts a text in quotes, or it is by itself. -/
theorem lexeme_of_quote {c : Char} (h : c = '"' ∨ c = '\'') (cs : List Char) :
    lexeme c cs
      = (quotedLength? c 0 cs).elim (.token .other, 0) fun n => (.token .string, n) := by
  have hne : c ≠ '/' ∧ c ≠ '\n' ∧ isSpace c = false := by
    rcases h with rfl | rfl
    · decide
    · decide
  unfold lexeme
  rw [if_neg hne.1, if_neg hne.2.1, if_neg (Bool.eq_false_iff.mp hne.2.2), if_pos h]
  cases quotedLength? c 0 cs with
  | none => rfl
  | some n => rfl

/-- The first characters by which the reader goes. -/
inductive First (c : Char) : Prop where
  /-- A slash, which may start a comment. -/
  | slash (h : c = '/')
  /-- A line feed. -/
  | feed (h : c = '\n')
  /-- A blank. -/
  | blank (h : isSpace c = true)
  /-- A quote. -/
  | quote (h : c = '"' ∨ c = '\'')
  /-- Any other character. -/
  | plain (h : isPlainStart c = true)

theorem first (c : Char) : First c := by
  by_cases hslash : c = '/'
  · exact .slash hslash
  by_cases hfeed : c = '\n'
  · exact .feed hfeed
  by_cases hblank : isSpace c = true
  · exact .blank hblank
  by_cases hquote : c = '"' ∨ c = '\''
  · exact .quote hquote
  · rw [not_or] at hquote
    refine .plain ?_
    simp only [isPlainStart, Bool.and_eq_true, bne_iff_ne, ne_eq, Bool.not_eq_true']
    exact ⟨⟨⟨⟨hslash, hfeed⟩, Bool.eq_false_iff.mpr hblank⟩, hquote.1⟩, hquote.2⟩

/-- What the reader finds at the start of the text `c :: cs`: a lexeme, and how many characters it
    has besides the first. -/
inductive Found (c : Char) (cs : List Char) : Lexeme → Nat → Prop where
  /-- A comment to the end of the line. -/
  | line {ds : List Char} (hc : c = '/') (hcs : cs = '/' :: ds) :
      Found c cs .skipped ((ds.takeWhile (· != '\n')).length + 1)
  /-- A comment between stars on one line. -/
  | block {ds : List Char} {n : Nat} (hc : c = '/') (hcs : cs = '*' :: ds)
      (hn : commentLength? 0 ds = some n) (hline : '\n' ∉ ds.take n) : Found c cs .skipped (n + 1)
  /-- A comment between stars on several lines. -/
  | lines {ds : List Char} {n : Nat} (hc : c = '/') (hcs : cs = '*' :: ds)
      (hn : commentLength? 0 ds = some n) (hline : '\n' ∈ ds.take n) :
      Found c cs (.token .newline) (n + 1)
  /-- A line feed. -/
  | feed (hc : c = '\n') : Found c cs (.token .newline) 0
  /-- Blanks. -/
  | blanks (hc : isSpace c = true) : Found c cs .skipped (cs.takeWhile isSpace).length
  /-- A text in quotes. -/
  | quoted {n : Nat} (hc : c = '"' ∨ c = '\'') (hn : quotedLength? c 0 cs = some n) :
      Found c cs (.token .string) n
  /-- A number. -/
  | number {n : NumberText} (hn : numberText? (c :: cs) = some n) :
      Found c cs (.token .number) (n.length - 1)
  /-- A name. -/
  | name (hc : startsName c = true) : Found c cs (.token .name) (nameLength cs)
  /-- An opening brace. -/
  | opening (hc : c = '\x7b') : Found c cs (.token .opening) 0
  /-- A closing brace. -/
  | closing (hc : c = '\x7d') : Found c cs (.token .closing) 0
  /-- A colon. -/
  | colon (hc : c = ':') : Found c cs (.token .colon) 0
  /-- A semicolon. -/
  | semicolon (hc : c = ';') : Found c cs (.token .semicolon) 0
  /-- Any other character, and a slash or a quote that starts nothing. -/
  | other : Found c cs (.token .other) 0

theorem found_slash (cs : List Char) : Found '/' cs (lexeme '/' cs).1 (lexeme '/' cs).2 := by
  by_cases hslash : ∃ ds, cs = '/' :: ds
  · obtain ⟨ds, rfl⟩ := hslash
    rw [lexeme_comment_line, Nat.add_comm]
    exact .line rfl rfl
  by_cases hstar : ∃ ds, cs = '*' :: ds
  · obtain ⟨ds, rfl⟩ := hstar
    cases hn : commentLength? 0 ds with
    | none =>
        rw [lexeme_comment_open hn]
        exact .other
    | some n =>
        rw [lexeme_comment_closed hn]
        simp only [List.contains_eq_mem, decide_eq_true_eq]
        split
        · exact .lines rfl rfl hn ‹_›
        · exact .block rfl rfl hn ‹_›
  · have hother : ∀ d ∈ cs.head?, d ≠ '/' ∧ d ≠ '*' := by
      intro d hd
      obtain ⟨ds, rfl⟩ := List.head?_eq_some_iff.mp hd
      exact ⟨fun h => hslash ⟨ds, by rw [h]⟩, fun h => hstar ⟨ds, by rw [h]⟩⟩
    rw [lexeme_slash_other hother]
    exact .other

/-- A number, a name, or the character by itself. -/
theorem found_plain {c : Char} (h : isPlainStart c = true) (cs : List Char) :
    Found c cs (lexeme c cs).1 (lexeme c cs).2 := by
  rw [lexeme_of_isPlainStart cs h]
  split
  · exact .number ‹_›
  split
  · exact .name ‹_›
  split
  · exact .opening ‹_›
  split
  · exact .closing ‹_›
  split
  · exact .colon ‹_›
  split
  · exact .semicolon ‹_›
  · exact .other

/-- The cases of a lexeme. -/
theorem found_of_lexeme {c : Char} {cs : List Char} {k : Lexeme} {n : Nat}
    (h : lexeme c cs = (k, n)) : Found c cs k n := by
  have hfound : Found c cs (lexeme c cs).1 (lexeme c cs).2 := by
    cases first c with
    | slash hc =>
        subst hc
        exact found_slash cs
    | feed hc =>
        rw [hc, lexeme_newline]
        exact .feed rfl
    | blank hc =>
        rw [lexeme_isSpace hc]
        exact .blanks hc
    | quote hc =>
        rw [lexeme_of_quote hc]
        cases hn : quotedLength? c 0 cs with
        | none => exact .other
        | some n => exact .quoted hc hn
    | plain hc => exact found_plain hc cs
  rwa [h] at hfound

/-! ### Comments and texts in quotes -/

/-- The text is a comment to the end of its line. -/
def LineComment (cs : List Char) : Prop :=
  ∃ text, cs = '/' :: '/' :: text ∧ '\n' ∉ text

/-- The text is a comment between stars, and no comment ends before it does. -/
def BlockComment (cs : List Char) : Prop :=
  ∃ text, cs = '/' :: '*' :: (text ++ ['*', '/']) ∧ ¬['*', '/'] <:+: text ++ ['*']

/-- The text is a text in quotes, with the quotes. -/
def Quoted (cs : List Char) : Prop :=
  ∃ quote text, (quote = '"' ∨ quote = '\'') ∧ cs = quote :: (text ++ [quote]) ∧
    Quotable quote text

theorem blockComment_take {ds : List Char} {n : Nat} (h : commentLength? 0 ds = some n) :
    BlockComment ('/' :: ('*' :: ds).take (n + 1)) := by
  obtain ⟨text, rest, rfl, rfl, hopen⟩ := commentLength?_eq_some_iff.mp h
  refine ⟨text, ?_, hopen⟩
  rw [List.take_succ_cons, List.take_length_add_append]
  rfl

theorem newline_mem_block {cs : List Char} : '\n' ∈ '/' :: '*' :: cs ↔ '\n' ∈ cs := by
  rw [List.mem_cons, List.mem_cons]
  exact (or_iff_right (by decide)).trans (or_iff_right (by decide))

theorem BlockComment.eq_cons {cs : List Char} (h : BlockComment cs) :
    ∃ c ds, cs = '/' :: '*' :: c :: ds := by
  obtain ⟨text, rfl, -⟩ := h
  cases text with
  | nil => exact ⟨_, _, rfl⟩
  | cons c text => exact ⟨_, _, rfl⟩

theorem BlockComment.getLast?_eq {cs : List Char} (h : BlockComment cs) :
    cs.getLast? = some '/' := by
  obtain ⟨text, rfl, -⟩ := h
  rw [show '/' :: '*' :: (text ++ ['*', '/']) = ('/' :: '*' :: text ++ ['*']) ++ ['/'] by simp]
  exact List.getLast?_concat

/-- A comment between stars in front of any text. -/
theorem lexeme_block {text : List Char} (h : ¬['*', '/'] <:+: text ++ ['*']) (rest : List Char) :
    lexeme '/' ('*' :: (text ++ '*' :: '/' :: rest))
      = (if '\n' ∈ text ++ ['*', '/'] then .token .newline else .skipped, text.length + 3) := by
  have htake : (text ++ '*' :: '/' :: rest).take (text.length + 2) = text ++ ['*', '/'] := by
    rw [List.take_length_add_append]
    rfl
  rw [lexeme_comment_closed (commentLength?_eq_some_iff.mpr ⟨text, rest, rfl, rfl, h⟩), htake]
  simp only [List.contains_eq_mem, decide_eq_true_eq]

/-- A text in quotes in front of any text. -/
theorem lexeme_quotes {quote : Char} (hquote : quote = '"' ∨ quote = '\'') {text : List Char}
    (htext : Quotable quote text) (rest : List Char) :
    lexeme quote (text ++ quote :: rest) = (.token .string, text.length + 1) := by
  have hback : quote ≠ '\\' := by
    rcases hquote with rfl | rfl
    · decide
    · decide
  rw [lexeme_of_quote hquote,
    (quotedLength?_eq_some_iff hback).mpr ⟨text, rest, rfl, rfl, htext⟩, Option.elim_some]

/-! ### Numbers and names -/

/-- The character can stand in a number or in a name. -/
def isWordy (c : Char) : Bool :=
  Text.isDigit c || continuesName c || c == '.' || c == '+' || c == '-'

theorem isWordy_of_isDigit {c : Char} (h : Text.isDigit c = true) : isWordy c = true := by
  rw [isWordy, h]
  rfl

theorem isWordy_digits {cs : List Char} {c : Char}
    (h : c ∈ cs.take (cs.takeWhile Text.isDigit).length) : isWordy c = true := by
  rw [← List.prefix_iff_eq_take.mp (List.takeWhile_prefix _)] at h
  exact isWordy_of_isDigit (List.mem_takeWhile_imp h)

/-- A power of ten is a mark, perhaps a sign, and the digits behind it. -/
theorem exponentText?_split {cs : List Char} {e : ExponentText} (h : exponentText? cs = some e) :
    ∃ mark rest, (mark = 'e' ∨ mark = 'E') ∧ (∀ c ∈ e.sign.toList, c = '+' ∨ c = '-') ∧
      (∀ c ∈ e.digits, Text.isDigit c = true) ∧
      cs = mark :: (e.sign.toList ++ e.digits) ++ rest := by
  cases cs with
  | nil => exact absurd h (by simp only [exponentText?, reduceCtorEq, not_false_eq_true])
  | cons mark cs =>
      have hdigits : ∀ {sign ds},
          (if (ds.takeWhile Text.isDigit).isEmpty then none
            else some (⟨sign, ds.takeWhile Text.isDigit⟩ : ExponentText)) = some e →
          e.sign = sign ∧ (∀ c ∈ e.digits, Text.isDigit c = true) ∧
            ∃ rest, ds = e.digits ++ rest := by
        intro sign ds he
        split at he
        · exact absurd he (by simp only [reduceCtorEq, not_false_eq_true])
        · obtain rfl := Option.some.inj he
          exact ⟨rfl, fun c hc => List.mem_takeWhile_imp hc, ds.dropWhile Text.isDigit,
            List.takeWhile_append_dropWhile.symm⟩
      unfold exponentText? at h
      simp only at h
      split at h
      · rename_i hmark
        split at h
        · obtain ⟨hsign, hall, rest, hds⟩ := hdigits h
          exact ⟨mark, rest, hmark, by simp [hsign], hall, by simpa [hsign] using hds⟩
        · obtain ⟨hsign, hall, rest, hds⟩ := hdigits h
          exact ⟨mark, rest, hmark, by simp [hsign], hall, by simpa [hsign] using hds⟩
        · obtain ⟨hsign, hall, rest, hds⟩ := hdigits h
          exact ⟨mark, rest, hmark, by simp [hsign], hall, by simpa [hsign] using hds⟩
      · exact absurd h (by simp only [reduceCtorEq, not_false_eq_true])

theorem ExponentText.length_eq (e : ExponentText) (mark : Char) :
    e.length = (mark :: (e.sign.toList ++ e.digits)).length := by
  rcases e with ⟨_ | sign, digits⟩
  · simp only [length, Option.isSome_none, Bool.false_eq_true, if_false, Option.toList_none,
      List.nil_append, List.length_cons]
    omega
  · simp only [length, Option.isSome_some, if_true, Option.toList_some, List.singleton_append,
      List.length_cons]
    omega

theorem isWordy_exponent {cs : List Char} {e : ExponentText} (h : exponentText? cs = some e) :
    ∀ c ∈ cs.take e.length, isWordy c = true := by
  obtain ⟨mark, rest, hmark, hsign, hdigits, rfl⟩ := exponentText?_split h
  rw [e.length_eq mark, List.take_left, List.forall_mem_cons, List.forall_mem_append]
  refine ⟨?_, fun c hc => ?_, fun c hc => isWordy_of_isDigit (hdigits c hc)⟩
  · rcases hmark with rfl | rfl
    all_goals decide
  · rcases hsign c hc with rfl | rfl
    all_goals decide

/-- A power of ten may stand behind such characters. -/
theorem isWordy_power {cs : List Char} {n : Nat} (hn : ∀ c ∈ cs.take n, isWordy c = true) :
    ∀ c ∈ cs.take (n + match exponentText? (cs.drop n) with
      | some e => e.length
      | none => 0), isWordy c = true := by
  rw [List.take_add, List.forall_mem_append]
  refine ⟨hn, ?_⟩
  split
  · exact isWordy_exponent ‹_›
  · rw [List.take_zero]
    exact fun c hc => absurd hc List.not_mem_nil

/-- The characters of a number behind its sign. -/
theorem isWordy_unsigned {negative : Bool} {cs : List Char} {n : NumberText}
    (h : unsignedText? negative cs = some n) :
    ∀ c ∈ cs.take (n.length - if negative then 1 else 0), isWordy c = true := by
  have hdigits : ∀ ds : List Char, ∀ c ∈ ds.take (ds.takeWhile Text.isDigit).length,
      isWordy c = true := fun ds c hc => isWordy_digits hc
  unfold unsignedText? at h
  simp only at h
  split at h
  · rename_i ds hds
    split at h
    · exact absurd h (by simp only [reduceCtorEq, not_false_eq_true])
    · obtain rfl := Option.some.inj h
      simp only [NumberText.length, if_true]
      rw [Nat.add_assoc, Nat.add_assoc, Nat.add_assoc, Nat.add_sub_cancel_left, List.take_add, hds,
        List.forall_mem_append, Nat.add_comm 1, List.take_succ_cons, List.forall_mem_cons]
      exact ⟨hdigits cs, by decide, isWordy_power (hdigits ds)⟩
  · split at h
    · exact absurd h (by simp only [reduceCtorEq, not_false_eq_true])
    · obtain rfl := Option.some.inj h
      simp only [NumberText.length, Bool.false_eq_true, if_false, List.length_nil, Nat.add_zero]
      rw [Nat.add_assoc, Nat.add_sub_cancel_left]
      exact isWordy_power (hdigits cs)

/-- The characters of a number. -/
theorem isWordy_number {cs : List Char} {n : NumberText} (h : numberText? cs = some n) :
    ∀ c ∈ cs.take n.length, isWordy c = true := by
  unfold numberText? at h
  split at h
  · rename_i cs
    intro c hc
    -- The sign is one of the characters that are counted.
    cases hlength : n.length with
    | zero =>
        rw [hlength, List.take_zero] at hc
        exact absurd hc List.not_mem_nil
    | succ k =>
        have hrest := isWordy_unsigned h
        rw [hlength, if_pos rfl, Nat.add_sub_cancel] at hrest
        rw [hlength, List.take_succ_cons] at hc
        rcases List.mem_cons.mp hc with rfl | hc
        · decide
        · exact hrest c hc
  · exact isWordy_unsigned h

theorem nameLength_le (cs : List Char) : nameLength cs ≤ cs.length := by
  induction cs using nameLength_induction with
  | ended cs hzero =>
      rw [hzero]
      exact Nat.zero_le _
  | continues c cs hc ih =>
      rw [nameLength_cons cs hc, List.length_cons]
      exact Nat.succ_le_succ ih
  | point d ds hd ih =>
      rw [nameLength_point ds hd, List.length_cons, List.length_cons]
      exact Nat.add_le_add_right ih 2

theorem nameLength_take (cs : List Char) :
    nameLength (cs.take (nameLength cs)) = nameLength cs := by
  induction cs using nameLength_induction with
  | ended cs hzero =>
      rw [hzero, List.take_zero]
      rfl
  | continues c cs hc ih =>
      rw [nameLength_cons cs hc, List.take_succ_cons, nameLength_cons _ hc, ih]
  | point d ds hd ih =>
      rw [nameLength_point ds hd, List.take_succ_cons, List.take_succ_cons, nameLength_point _ hd,
        ih]

/-- Names consist of name characters and points. -/
theorem mem_of_nameLength {cs : List Char} (h : nameLength cs = cs.length) {c : Char}
    (hc : c ∈ cs) : continuesName c = true ∨ c = '.' := by
  induction cs using nameLength_induction with
  | ended cs hzero =>
      obtain rfl := List.length_eq_zero_iff.mp (h.symm.trans hzero)
      exact absurd hc List.not_mem_nil
  | continues d ds hd ih =>
      rw [nameLength_cons ds hd, List.length_cons, Nat.succ_inj] at h
      rcases List.mem_cons.mp hc with rfl | hc
      · exact .inl hd
      · exact ih h hc
  | point d ds hd ih =>
      rw [nameLength_point ds hd, List.length_cons, List.length_cons] at h
      rcases List.mem_cons.mp hc with rfl | hc
      · exact .inr rfl
      rcases List.mem_cons.mp hc with rfl | hc
      · exact .inl (startsName_continuesName hd)
      · exact ih (by omega) hc

/-- The characters of a name. -/
theorem isWordy_name {c : Char} {cs : List Char} (hc : startsName c = true) :
    ∀ d ∈ c :: cs.take (nameLength cs), isWordy d = true := by
  have hcontinues : ∀ d, continuesName d = true → isWordy d = true := by
    intro d hd
    rw [isWordy, hd, Bool.or_true]
    rfl
  have hlength : nameLength (cs.take (nameLength cs)) = (cs.take (nameLength cs)).length := by
    rw [nameLength_take, List.length_take, Nat.min_eq_left (nameLength_le cs)]
  rw [List.forall_mem_cons]
  refine ⟨hcontinues c (startsName_continuesName hc), fun d hd => ?_⟩
  rcases mem_of_nameLength hlength hd with hd | rfl
  · exact hcontinues d hd
  · decide

/-! ### What a lexeme can be -/

/-- The text is a lexeme in front of the rest. -/
inductive IsLexeme (rest : List Char) : Lexeme → List Char → Prop where
  /-- Blanks. -/
  | blanks {cs : List Char} (h : ∀ c ∈ cs, isSpace c = true) : IsLexeme rest .skipped cs
  /-- A comment to the end of the line. -/
  | line {cs : List Char} (h : LineComment cs) (hend : ∀ c ∈ rest.head?, c = '\n') :
      IsLexeme rest .skipped cs
  /-- A comment between stars on one line. -/
  | block {cs : List Char} (h : BlockComment cs) (hline : '\n' ∉ cs) : IsLexeme rest .skipped cs
  /-- A comment between stars on several lines. -/
  | lines {cs : List Char} (h : BlockComment cs) (hline : '\n' ∈ cs) :
      IsLexeme rest (.token .newline) cs
  /-- A line feed. -/
  | feed : IsLexeme rest (.token .newline) ['\n']
  /-- A text in quotes. -/
  | quoted {cs : List Char} (h : Quoted cs) : IsLexeme rest (.token .string) cs
  /-- A number or a name. -/
  | wordy {kind : Kind} {cs : List Char} (hkind : kind = .number ∨ kind = .name)
      (h : ∀ c ∈ cs, isWordy c = true) : IsLexeme rest (.token kind) cs
  /-- A character by itself. -/
  | single {kind : Kind} {c : Char} (hkind : kind ≠ .newline) : IsLexeme rest (.token kind) [c]

/-- A lexeme is what a lexeme can be, in front of what is left of the text. -/
theorem isLexeme_of_lexeme {c : Char} {cs : List Char} {k : Lexeme} {n : Nat}
    (h : lexeme c cs = (k, n)) : IsLexeme (cs.drop n) k (c :: cs.take n) := by
  cases found_of_lexeme h with
  | @line ds hc hcs =>
      subst hc hcs
      rw [List.take_succ_cons, take_takeWhile, List.drop_succ_cons, drop_takeWhile]
      refine .line ⟨_, rfl, fun hmem => ?_⟩ fun d hd => ?_
      · exact absurd (List.mem_takeWhile_imp hmem) (by decide)
      · -- The comment stops at a line feed, or the text does.
        have hstop := List.head?_dropWhile_not (· != '\n') ds
        rw [hd] at hstop
        simpa using hstop
  | block hc hcs hn hline =>
      subst hc hcs
      exact .block (blockComment_take hn) (newline_mem_block.not.mpr hline)
  | lines hc hcs hn hline =>
      subst hc hcs
      exact .lines (blockComment_take hn) (newline_mem_block.mpr hline)
  | feed hc =>
      subst hc
      exact .feed
  | blanks hc =>
      rw [take_takeWhile]
      refine .blanks ?_
      rw [List.forall_mem_cons]
      exact ⟨hc, fun d hd => List.mem_takeWhile_imp hd⟩
  | quoted hc hn =>
      have hback : c ≠ '\\' := by
        rcases hc with rfl | rfl
        · decide
        · decide
      obtain ⟨text, rest, rfl, rfl, htext⟩ := (quotedLength?_eq_some_iff hback).mp hn
      refine .quoted ⟨c, text, hc, ?_, htext⟩
      rw [List.take_length_add_append]
      rfl
  | @number number hn =>
      cases hlength : number.length with
      | zero => exact .single Kind.noConfusion
      | succ k =>
          have hchars := isWordy_number hn
          rw [hlength, List.take_succ_cons] at hchars
          exact .wordy (.inl rfl) hchars
  | name hc => exact .wordy (.inr rfl) (isWordy_name hc)
  | opening | closing | colon | semicolon | other => exact .single Kind.noConfusion

theorem IsLexeme.newline_not_mem {rest cs : List Char} (h : IsLexeme rest .skipped cs) :
    '\n' ∉ cs := by
  cases h with
  | blanks h => exact fun hmem => absurd (h _ hmem) (by decide)
  | line h _ =>
      obtain ⟨text, rfl, htext⟩ := h
      rw [List.mem_cons, List.mem_cons, not_or, not_or]
      exact ⟨by decide, by decide, htext⟩
  | block _ hline => exact hline

/-- A comment is a token if it has several lines, and then it ends a line. A line feed by itself
    is the only other end of a line. -/
theorem IsLexeme.kind_eq {rest cs : List Char} {kind : Kind}
    (h : IsLexeme rest (.token kind) cs) :
    (BlockComment cs → kind = .newline ∧ '\n' ∈ cs) ∧
      (¬BlockComment cs → kind = .newline → cs = ['\n']) := by
  cases h with
  | lines hblock hline => exact ⟨fun _ => ⟨rfl, hline⟩, fun hnone => absurd hblock hnone⟩
  | feed => exact ⟨fun _ => ⟨rfl, List.mem_singleton_self _⟩, fun _ _ => rfl⟩
  | quoted hquoted =>
      refine ⟨fun hblock => ?_, fun _ hkind => absurd hkind Kind.noConfusion⟩
      obtain ⟨quote, text, hquote, rfl, -⟩ := hquoted
      obtain ⟨c, ds, heq⟩ := hblock.eq_cons
      obtain rfl := (List.cons.inj heq).1
      exact absurd hquote (by decide)
  | wordy hkind hwordy =>
      refine ⟨fun hblock => ?_, fun _ hline => ?_⟩
      · obtain ⟨c, ds, rfl⟩ := hblock.eq_cons
        exact absurd (hwordy '/' List.mem_cons_self) (by decide)
      · rcases hkind with rfl | rfl
        · exact absurd hline Kind.noConfusion
        · exact absurd hline Kind.noConfusion
  | single hkind =>
      refine ⟨fun hblock => ?_, fun _ hline => absurd hline hkind⟩
      obtain ⟨c, ds, heq⟩ := hblock.eq_cons
      exact absurd (List.cons.inj heq).2 (by simp only [reduceCtorEq, not_false_eq_true])

/-- Behind its first character, only a comment and a text in quotes hold other characters than
    numbers and names do. -/
theorem IsLexeme.inside {rest cs : List Char} {kind : Kind} (h : IsLexeme rest (.token kind) cs)
    {i : Nat} {c : Char} (hi : 0 < i) (hc : cs[i]? = some c) (hwordy : isWordy c = false) :
    BlockComment cs ∨ kind = .string ∧ Quoted cs := by
  cases h with
  | lines hblock _ => exact .inl hblock
  | quoted hquoted => exact .inr ⟨rfl, hquoted⟩
  | wordy _ hall => exact absurd (hall c (List.mem_of_getElem? hc)) (Bool.eq_false_iff.mp hwordy)
  | feed =>
      obtain ⟨hlt, -⟩ := List.getElem?_eq_some_iff.mp hc
      rw [List.length_singleton] at hlt
      omega
  | single _ =>
      obtain ⟨hlt, -⟩ := List.getElem?_eq_some_iff.mp hc
      rw [List.length_singleton] at hlt
      omega

end Markup

end WidgetSync
