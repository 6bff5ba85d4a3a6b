import WidgetSync.Markup.Token
import WidgetSync.Proofs.Characters

/-!
# Cutting Written Text into Tokens

Where the borders of the tokens are found again.

A text is cut from left to right, and where a token ends depends on what follows
it. A text that was put together from pieces is therefore not simply cut piece by
piece: each piece has to be judged in front of everything that may follow. The
lemmas here do this for the pieces the writer uses. Punctuation and line feeds
end by themselves. A quoted text ends at its closing quote. Indentation, a name
and an integer go on as long as they can, so they need a following character that
stops them, and in written text there always is one.

`Lexes` is the form that composes. A piece lexes to some tokens if in front of
any text it gives these tokens and leaves the cutting of that text as it is. Two
pieces that lex can be put next to each other, so lines and blocks are cut like
their parts.

What is skipped before a token belongs to the token. A piece that starts with
indentation, or a value behind the blank that follows its colon, thus differs
from the piece alone only in the gap of its first token; `scanFrom_eq_behind`
says so for every text.

## Main definitions

* `Scan.after`: A scan with tokens in front.
* `Scan.behind`: A scan with more skipped before its first token.
* `signs`: The characters that are tokens by themselves.
* `isName`: The text is one name.
* `endsName`, `endsNumber`: What follows does not belong to a name or a number.
* `Lexes`: A piece of text gives its tokens in front of any text.

## Theorems

* `scanFrom_eq_behind`: A gap only adds to the gap of the first token.
* `scanFrom_token`, `scanFrom_skipped`, `scanFrom_isSpace`: One lexeme is cut off, or one blank.
* `lexeme_sign`: A sign is a token whatever follows.
* `lexeme_name`, `lexeme_integer`, `lexeme_quoted`: The lexemes of the writer.
* `Lexes.append`: Pieces that lex can be put together.
-/

namespace WidgetSync

namespace Markup

namespace Scan

/-- The scan with some tokens in front. -/
def after (ts : List Token) (s : Scan) : Scan :=
  ⟨ts ++ s.tokens, s.tail⟩

/-- The scan with something more skipped before its first token. -/
def behind (gap : List Char) (s : Scan) : Scan :=
  match s.tokens with
  | [] => ⟨[], gap ++ s.tail⟩
  | t :: ts => ⟨{ t with gap := gap ++ t.gap } :: ts, s.tail⟩

@[simp] theorem after_nil (s : Scan) : s.after [] = s := by
  simp only [after, List.nil_append]

@[simp] theorem after_after (ts us : List Token) (s : Scan) :
    (s.after us).after ts = s.after (ts ++ us) := by
  simp only [after, List.append_assoc]

end Scan

/-- Induction along the scanner: each lexeme goes to the gap, or it is a token and the next gap is
    empty. -/
theorem scanFrom_induction {p : List Char → List Char → Prop} (nil : ∀ gap, p gap [])
    (skipped : ∀ gap c cs n, lexeme c cs = (.skipped, n) →
      p (gap ++ c :: cs.take n) (cs.drop n) → p gap (c :: cs))
    (token : ∀ gap c cs kind n, lexeme c cs = (.token kind, n) → p [] (cs.drop n) →
      p gap (c :: cs)) (gap cs : List Char) : p gap cs :=
  scanFrom.induct p nil skipped token gap cs

theorem scanFrom_append_gap (gap : List Char) (before cs : List Char) :
    scanFrom (before ++ gap) cs = (scanFrom gap cs).behind before := by
  induction gap, cs using scanFrom_induction with
  | nil gap =>
      rw [scanFrom, scanFrom]
      simp only [Scan.behind]
  | skipped gap c cs n hlexeme ih =>
      rw [scanFrom, scanFrom, hlexeme]
      simp only [List.append_assoc]
      exact ih
  | token gap c cs kind n hlexeme =>
      rw [scanFrom, scanFrom, hlexeme]
      simp only [Scan.behind]

/-- A gap before a text only adds to what is skipped before its first token. -/
theorem scanFrom_eq_behind (gap cs : List Char) : scanFrom gap cs = (scan cs).behind gap := by
  have h := scanFrom_append_gap [] gap cs
  rwa [List.append_nil] at h

/-- A token is cut off. -/
theorem scanFrom_token {kind : Kind} {c : Char} {cs rest : List Char} (gap : List Char)
    (h : lexeme c (cs ++ rest) = (.token kind, cs.length)) :
    scanFrom gap (c :: cs ++ rest) = (scan rest).after [⟨kind, gap, c :: cs⟩] := by
  rw [List.cons_append, scanFrom, h]
  simp only [List.take_left, List.drop_left, scan, Scan.after, List.cons_append, List.nil_append]

/-- Something to skip is cut off. -/
theorem scanFrom_skipped {c : Char} {cs rest : List Char} (gap : List Char)
    (h : lexeme c (cs ++ rest) = (.skipped, cs.length)) :
    scanFrom gap (c :: cs ++ rest) = scanFrom (gap ++ c :: cs) rest := by
  rw [List.cons_append, scanFrom, h]
  simp only [List.take_left, List.drop_left]

/-- A text that starts with none of the characters of a number is no number. -/
theorem numberText?_eq_none {c : Char} (cs : List Char) (hminus : c ≠ '-') (hpoint : c ≠ '.')
    (hdigit : Text.isDigit c = false) : numberText? (c :: cs) = none := by
  have hunsigned : unsignedText? false (c :: cs) = none := by
    simp only [unsignedText?, List.takeWhile_cons, hdigit, Bool.false_eq_true, if_false,
      List.length_nil, List.drop_zero, List.isEmpty_nil, if_true]
    split
    · rename_i heq
      exact absurd (List.cons.inj heq).1 hpoint
    · rfl
  simp only [numberText?]
  split
  · rename_i heq
    exact absurd (List.cons.inj heq).1 hminus
  · exact hunsigned

/-- The character is not the start of a comment, a line end, a blank or a quote. -/
def isPlainStart (c : Char) : Bool :=
  c != '/' && c != '\n' && !isSpace c && c != '"' && c != '\''

theorem lexeme_of_isPlainStart {c : Char} (cs : List Char) (h : isPlainStart c = true) :
    lexeme c cs =
      match numberText? (c :: cs) with
      | some n => (.token .number, n.length - 1)
      | none =>
        if startsName c then (.token .name, nameLength cs)
        else if c = '{' then (.token .opening, 0)
        else if c = '}' then (.token .closing, 0)
        else if c = ':' then (.token .colon, 0)
        else if c = ';' then (.token .semicolon, 0)
        else (.token .other, 0) := by
  simp only [isPlainStart, Bool.and_eq_true, bne_iff_ne, ne_eq, Bool.not_eq_true'] at h
  obtain ⟨⟨⟨⟨hslash, hline⟩, hspace⟩, hdouble⟩, hsingle⟩ := h
  have hquote : ¬(c = '"' ∨ c = '\'') := by
    simp only [hdouble, hsingle, or_self, not_false_eq_true]
  have hgap : ¬ isSpace c = true := by
    rw [hspace]
    decide
  unfold lexeme
  refine (if_neg hslash).trans ((if_neg hline).trans ((if_neg hgap).trans ?_))
  exact if_neg hquote

theorem lexeme_newline (cs : List Char) : lexeme '\n' cs = (.token .newline, 0) := by
  simp only [lexeme, Char.reduceEq, if_false, if_true]

/-- Line feeds, brackets, colons and semicolons with the kinds of the tokens that they are. -/
def signs : List (Char × Kind) :=
  [('\n', .newline), ('\x7b', .opening), ('\x7d', .closing), ('(', .other), (')', .other),
    ('[', .other), (']', .other), (':', .colon), (';', .semicolon)]

/-- A sign is a token by itself whatever follows. -/
theorem lexeme_sign {c : Char} {kind : Kind} (h : (c, kind) ∈ signs) (cs : List Char) :
    lexeme c cs = (.token kind, 0) := by
  simp only [signs, List.mem_cons, Prod.mk.injEq, List.not_mem_nil, or_false] at h
  rcases h with ⟨rfl, rfl⟩ | ⟨rfl, rfl⟩ | ⟨rfl, rfl⟩ | ⟨rfl, rfl⟩ | ⟨rfl, rfl⟩ | ⟨rfl, rfl⟩ |
    ⟨rfl, rfl⟩ | ⟨rfl, rfl⟩ | ⟨rfl, rfl⟩
  · exact lexeme_newline cs
  all_goals
    rw [lexeme_of_isPlainStart _ (by decide),
      numberText?_eq_none _ (by decide) (by decide) (by decide)]
    rfl

/-- Punctuation that is a token of its own whatever follows. -/
def markKind? (c : Char) : Option Kind :=
  if c = '\x7b' then some .opening
  else if c = '\x7d' then some .closing
  else if c = ':' then some .colon
  else if c = '(' ∨ c = ')' then some .other
  else none

theorem lexeme_mark {c : Char} {kind : Kind} (cs : List Char) (h : markKind? c = some kind) :
    lexeme c cs = (.token kind, 0) := by
  refine lexeme_sign ?_ cs
  unfold markKind? at h
  split at h
  · obtain rfl := Option.some.inj h
    simp [signs, *]
  · split at h
    · obtain rfl := Option.some.inj h
      simp [signs, *]
    · split at h
      · obtain rfl := Option.some.inj h
        simp [signs, *]
      · split at h
        · obtain rfl := Option.some.inj h
          rename_i hparen
          rcases hparen with rfl | rfl
          · decide
          · decide
        · exact absurd h (by simp only [reduceCtorEq, not_false_eq_true])

/-- The text is one name. -/
def isName : List Char → Bool
  | [] => false
  | c :: cs => startsName c && nameLength cs == cs.length

/-- What follows does not belong to a name before it. -/
def endsName (rest : List Char) : Prop :=
  ∀ c ∈ rest.head?, continuesName c = false ∧ c ≠ '.'

/-- What follows does not belong to an integer before it. -/
def endsNumber (rest : List Char) : Prop :=
  ∀ c ∈ rest.head?, Text.isDigit c = false ∧ c ≠ '.' ∧ c ≠ 'e' ∧ c ≠ 'E'

theorem nameLength_eq_zero {rest : List Char} (h : endsName rest) : nameLength rest = 0 := by
  cases rest with
  | nil => rfl
  | cons c cs =>
      have hc := h c (by simp only [List.head?_cons, Option.mem_some_iff])
      rw [nameLength.eq_def]
      simp only [hc.1, Bool.false_eq_true, if_false, hc.2]

theorem nameLength_cons {c : Char} (cs : List Char) (h : continuesName c = true) :
    nameLength (c :: cs) = nameLength cs + 1 := by
  rw [nameLength.eq_def]
  simp only [h, if_true]

theorem nameLength_point {d : Char} (ds : List Char) (h : startsName d = true) :
    nameLength ('.' :: d :: ds) = nameLength ds + 2 := by
  rw [nameLength.eq_def]
  simp only [show continuesName '.' = false by decide, h, if_true, Bool.false_eq_true, if_false]

/-- Induction along a name: it goes on with a character, or with a point and the character behind
    it, or it has ended. -/
theorem nameLength_induction {p : List Char → Prop} (ended : ∀ cs, nameLength cs = 0 → p cs)
    (continues : ∀ c cs, continuesName c = true → p cs → p (c :: cs))
    (point : ∀ d ds, startsName d = true → p ds → p ('.' :: d :: ds)) (cs : List Char) : p cs := by
  have hpoint : continuesName '.' = false := by decide
  induction cs using nameLength.induct with
  | case1 => exact ended [] rfl
  | case2 c cs hc ih => exact continues c cs hc ih
  | case3 d ds hd _ ih => exact point d ds hd ih
  | case4 d ds hd =>
      refine ended _ ?_
      rw [nameLength.eq_def]
      simp only [hpoint, hd, Bool.false_eq_true, if_false, if_true]
  | case5 =>
      refine ended _ ?_
      rw [nameLength.eq_def]
      simp only [hpoint, Bool.false_eq_true, if_false, if_true]
  | case6 c cs hc hother =>
      refine ended _ ?_
      rw [nameLength.eq_def]
      simp only [hc, hother, Bool.false_eq_true, if_false]

theorem nameLength_append (cs rest : List Char) (h : nameLength cs = cs.length)
    (hrest : endsName rest) : nameLength (cs ++ rest) = cs.length := by
  induction cs using nameLength_induction with
  | ended cs hzero =>
      obtain rfl := List.length_eq_zero_iff.mp (h.symm.trans hzero)
      exact nameLength_eq_zero hrest
  | continues c cs hc ih =>
      rw [nameLength_cons cs hc, List.length_cons, Nat.succ_inj] at h
      rw [List.cons_append, nameLength_cons _ hc, ih h, List.length_cons]
  | point d ds hd ih =>
      rw [nameLength_point ds hd, List.length_cons, List.length_cons] at h
      rw [List.cons_append, List.cons_append, nameLength_point _ hd, ih (by omega),
        List.length_cons, List.length_cons]

theorem isPlainStart_of_startsName {c : Char} (h : startsName c = true) :
    isPlainStart c = true := by
  have hall := ascii_forall (p := fun c => !startsName c || isPlainStart c) (by decide) c
    (startsName_lt h)
  simpa only [h, Bool.not_true, Bool.false_or] using hall

/-- A name is one lexeme in front of what ends it. -/
theorem lexeme_name {c : Char} {cs rest : List Char} (h : isName (c :: cs) = true)
    (hrest : endsName rest) : lexeme c (cs ++ rest) = (.token .name, cs.length) := by
  simp only [isName, Bool.and_eq_true, beq_iff_eq] at h
  obtain ⟨hstart, hlength⟩ := h
  have hminus : c ≠ '-' := fun hc => by rw [hc] at hstart; exact absurd hstart (by decide)
  have hpoint : c ≠ '.' := fun hc => by rw [hc] at hstart; exact absurd hstart (by decide)
  rw [lexeme_of_isPlainStart _ (isPlainStart_of_startsName hstart),
    numberText?_eq_none _ hminus hpoint (startsName_not_isDigit hstart)]
  simp only [hstart, if_true, nameLength_append cs rest hlength hrest]

theorem takeWhile_append_of_forall {p : Char → Bool} {cs rest : List Char}
    (hcs : ∀ c ∈ cs, p c = true) (hrest : ∀ c ∈ rest.head?, p c = false) :
    (cs ++ rest).takeWhile p = cs := by
  have hnone : rest.takeWhile p = [] := by
    cases rest with
    | nil => rfl
    | cons c rest =>
        rw [List.takeWhile_cons, if_neg]
        rw [hrest c (by simp only [List.head?_cons, Option.mem_some_iff])]
        decide
  rw [List.takeWhile_append_of_pos hcs, hnone, List.append_nil]

theorem exponentText?_eq_none {rest : List Char} (h : endsNumber rest) :
    exponentText? rest = none := by
  cases rest with
  | nil => rfl
  | cons c rest =>
      have hc := h c (by simp only [List.head?_cons, Option.mem_some_iff])
      simp only [exponentText?, hc.2.2.1, hc.2.2.2, or_self, if_false]

theorem unsignedText?_digits (negative : Bool) {ds rest : List Char} (hne : ds ≠ [])
    (hds : ∀ c ∈ ds, Text.isDigit c = true) (hrest : endsNumber rest) :
    unsignedText? negative (ds ++ rest) = some ⟨negative, ds, false, [], none⟩ := by
  have htake : (ds ++ rest).takeWhile Text.isDigit = ds :=
    takeWhile_append_of_forall hds fun c hc => (hrest c hc).1
  have hempty : ds.isEmpty = false := by
    simpa only [List.isEmpty_eq_false_iff] using hne
  unfold unsignedText?
  simp only [htake, List.drop_left, hempty]
  split
  · rename_i places
    have hc := hrest '.' (by simp only [List.head?_cons, Option.mem_some_iff])
    exact absurd rfl hc.2.1
  · simp only [Bool.false_eq_true, if_false, exponentText?_eq_none hrest]

/-- The text of an integer: a minus sign below zero, and digits. -/
def integerText (n : Int) : List Char :=
  (if n < 0 then ['-'] else []) ++ Nat.toDigits 10 n.natAbs

theorem toString_int (n : Int) : (toString n).toList = integerText n := by
  rw [Int.toString_eq_repr, Int.repr_eq_if, integerText]
  by_cases hn : n < 0
  · rw [if_neg (by omega), if_pos hn, String.toList_append, Nat.toList_repr,
      show (-n).toNat = n.natAbs by omega]
    rfl
  · rw [if_pos (by omega), if_neg hn, Nat.toList_repr, List.nil_append,
      show n.toNat = n.natAbs by omega]

/-- The number that a written integer is read as. -/
def integerParts (n : Int) : NumberText :=
  ⟨decide (n < 0), Nat.toDigits 10 n.natAbs, false, [], none⟩

theorem numberText?_integer (n : Int) {rest : List Char} (hrest : endsNumber rest) :
    numberText? (integerText n ++ rest) = some (integerParts n) := by
  have hds : ∀ c ∈ Nat.toDigits 10 n.natAbs, Text.isDigit c = true :=
    fun c hc => Text.isDigit_of_mem_toDigits hc
  have hunsigned := fun negative =>
    unsignedText?_digits negative (Nat.toDigits_ne_nil (n := n.natAbs) (b := 10)) hds hrest
  unfold integerText integerParts
  by_cases hn : n < 0
  · rw [if_pos hn, decide_eq_true hn]
    exact hunsigned true
  · rw [if_neg hn, decide_eq_false hn, List.nil_append]
    -- Without a minus sign the first character is a digit.
    cases hdigits : Nat.toDigits 10 n.natAbs with
    | nil => exact absurd hdigits Nat.toDigits_ne_nil
    | cons d ds =>
        have hd := hds d (by rw [hdigits]; exact List.mem_cons_self)
        have hminus : d ≠ '-' := fun heq => by
          rw [heq] at hd
          exact absurd hd (by decide)
        have hfalse := hunsigned false
        rw [hdigits, List.cons_append] at hfalse
        rw [List.cons_append]
        unfold numberText?
        split
        · rename_i heq
          exact absurd (List.cons.inj heq).1 hminus
        · exact hfalse

theorem integerParts_length (n : Int) : (integerParts n).length = (integerText n).length := by
  unfold integerParts integerText NumberText.length
  by_cases hn : n < 0
  · simp only [hn, decide_true, if_true, Bool.false_eq_true, if_false, List.length_append,
      List.length_cons, List.length_nil]
    omega
  · simp only [hn, decide_false, if_false, Bool.false_eq_true, List.length_nil,
      List.nil_append]
    omega

theorem integerText_ne_nil (n : Int) : integerText n ≠ [] := by
  unfold integerText
  intro h
  exact absurd (List.append_eq_nil_iff.mp h).2 Nat.toDigits_ne_nil

theorem mem_integerText {n : Int} {c : Char} (h : c ∈ integerText n) :
    c = '-' ∨ Text.isDigit c = true := by
  unfold integerText at h
  rcases List.mem_append.mp h with h | h
  · split at h
    · exact Or.inl (List.mem_singleton.mp h)
    · exact absurd h List.not_mem_nil
  · exact Or.inr (Text.isDigit_of_mem_toDigits h)

/-- An integer is one lexeme in front of what ends it. -/
theorem lexeme_integer {n : Int} {c : Char} {cs rest : List Char} (h : integerText n = c :: cs)
    (hrest : endsNumber rest) : lexeme c (cs ++ rest) = (.token .number, cs.length) := by
  have hc : c = '-' ∨ Text.isDigit c = true :=
    mem_integerText (n := n) (by rw [h]; exact List.mem_cons_self)
  -- The first character is a digit or a minus sign, hence no comment, blank or quote.
  have hplain : isPlainStart c = true := by
    rcases hc with rfl | hc
    · decide
    · simp only [isPlainStart, isSpace, Bool.and_eq_true, bne_iff_ne, ne_eq, Bool.not_eq_true',
        Bool.or_eq_false_iff, beq_eq_false_iff_ne]
      refine ⟨⟨⟨⟨?_, ?_⟩, ⟨⟨⟨?_, ?_⟩, ?_⟩, ?_⟩, ?_⟩, ?_⟩, ?_⟩
      all_goals
        intro heq
        rw [heq] at hc
        exact absurd hc (by decide)
  have hnumber := numberText?_integer n hrest
  rw [h, List.cons_append] at hnumber
  rw [lexeme_of_isPlainStart _ hplain, hnumber]
  simp only [integerParts_length, h, List.length_cons, Nat.add_sub_cancel]

theorem quotedLength?_cons {quote c : Char} (n : Nat) (cs : List Char) (hc : c ≠ '\\') :
    quotedLength? quote n (c :: cs) =
      if c = quote then some (n + 1)
      else if c = '\n' then none
      else quotedLength? quote (n + 1) cs := by
  rw [quotedLength?.eq_def]
  split
  · rename_i heq
    exact absurd heq (by simp only [reduceCtorEq, not_false_eq_true])
  · rename_i heq
    exact absurd (List.cons.inj heq).1 hc
  · rename_i heq
    obtain ⟨rfl, rfl⟩ := List.cons.inj heq
    rfl

theorem quotedLength?_backslash (quote d : Char) (n : Nat) (cs : List Char) :
    quotedLength? quote n ('\\' :: d :: cs) = quotedLength? quote (n + 2) cs := by
  rw [quotedLength?.eq_def]
  rfl

/-- Induction along a text in quotes: a backslash goes with the character behind it. -/
theorem quoted_induction {p : List Char → Prop} (nil : p []) (backslash : p ['\\'])
    (pair : ∀ d ds, p ds → p ('\\' :: d :: ds))
    (char : ∀ c cs, c ≠ '\\' → p cs → p (c :: cs)) : ∀ cs, p cs
  | [] => nil
  | c :: cs => by
    by_cases hc : c = '\\'
    · subst hc
      cases cs with
      | nil => exact backslash
      | cons d ds => exact pair d ds (quoted_induction nil backslash pair char ds)
    · exact char c cs hc (quoted_induction nil backslash pair char cs)

/-- The search for the closing quote passes over a written character. -/
theorem quotedLength?_escaped (c : Char) (n : Nat) (rest : List Char) :
    quotedLength? '"' n (escaped c ++ rest)
      = quotedLength? '"' (n + (escaped c).length) rest := by
  unfold escaped
  split
  case h_6 hbackslash hquote hline _ _ =>
    rw [List.cons_append, List.nil_append, quotedLength?_cons _ _ hbackslash, if_neg hquote,
      if_neg hline]
    rfl
  all_goals exact quotedLength?_backslash _ _ _ _

theorem quotedLength?_flatMap_escaped (cs : List Char) (n : Nat) (rest : List Char) :
    quotedLength? '"' n (cs.flatMap escaped ++ '"' :: rest)
      = some (n + (cs.flatMap escaped).length + 1) := by
  induction cs generalizing n with
  | nil =>
      rw [List.flatMap_nil, List.nil_append, quotedLength?_cons _ _ (by decide), if_pos rfl]
      rfl
  | cons c cs ih =>
      rw [List.flatMap_cons, List.append_assoc, quotedLength?_escaped, ih, List.length_append,
        Nat.add_assoc n]

/-- A written text in quotes is one lexeme whatever follows. -/
theorem lexeme_quoted (cs rest : List Char) :
    lexeme '"' ((cs.flatMap escaped ++ ['"']) ++ rest)
      = (.token .string, (cs.flatMap escaped ++ ['"']).length) := by
  have hlength := quotedLength?_flatMap_escaped cs 0 rest
  rw [Nat.zero_add] at hlength
  unfold lexeme
  simp only [Char.reduceEq, if_false, isSpace, Char.reduceBEq, Bool.or_self, Bool.false_eq_true,
    true_or, if_true, List.append_assoc, List.cons_append, List.nil_append, hlength,
    List.length_append, List.length_cons, List.length_nil]

/-- Tokens with something more skipped before the first of them. -/
def delayed (gap : List Char) : List Token → List Token
  | [] => []
  | t :: ts => { t with gap := gap ++ t.gap } :: ts

theorem Scan.behind_after (gap : List Char) {ts : List Token} (hne : ts ≠ []) (s : Scan) :
    (s.after ts).behind gap = s.after (delayed gap ts) := by
  cases ts with
  | nil => exact absurd rfl hne
  | cons t ts => rfl

/-- In front of any text the piece gives its tokens and nothing else. -/
def Lexes (cs : List Char) (ts : List Token) : Prop :=
  ∀ rest, scan (cs ++ rest) = (scan rest).after ts

theorem lexes_nil : Lexes [] [] := by
  intro rest
  rw [List.nil_append, Scan.after_nil]

/-- Pieces that lex can be put together. -/
theorem Lexes.append {cs ds : List Char} {ts us : List Token} (hcs : Lexes cs ts)
    (hds : Lexes ds us) : Lexes (cs ++ ds) (ts ++ us) := by
  intro rest
  rw [List.append_assoc, hcs, hds, Scan.after_after]

/-- The end of a line. -/
def lineEnd : Token :=
  ⟨.newline, [], ['\n']⟩

theorem lexes_lineEnd : Lexes ['\n'] [lineEnd] := by
  intro rest
  exact scanFrom_token [] (lexeme_newline _)

/-- A mark is a token of its own. -/
theorem lexes_mark {c : Char} {kind : Kind} (h : markKind? c = some kind) :
    Lexes [c] [⟨kind, [], [c]⟩] := by
  intro rest
  exact scanFrom_token [] (lexeme_mark _ h)

theorem scan_name {cs rest : List Char} (h : isName cs = true) (hrest : endsName rest) :
    scan (cs ++ rest) = (scan rest).after [⟨.name, [], cs⟩] := by
  cases cs with
  | nil => exact absurd h (by decide)
  | cons c cs => exact scanFrom_token [] (lexeme_name h hrest)

theorem scan_integer (n : Int) {rest : List Char} (hrest : endsNumber rest) :
    scan (integerText n ++ rest) = (scan rest).after [⟨.number, [], integerText n⟩] := by
  cases h : integerText n with
  | nil => exact absurd h (integerText_ne_nil n)
  | cons c cs => exact scanFrom_token [] (lexeme_integer h hrest)

/-- A text in quotes, as it is written. -/
def quotedText (s : String) : List Char :=
  '"' :: (s.toList.flatMap escaped ++ ['"'])

theorem quote_toList (s : String) : (quote s).toList = quotedText s := by
  rw [quote, String.toList_ofList, quotedText, List.cons_append]

theorem lexes_quoted (s : String) : Lexes (quotedText s) [⟨.string, [], quotedText s⟩] := by
  intro rest
  exact scanFrom_token [] (lexeme_quoted _ _)

theorem lexeme_isSpace {c : Char} (h : isSpace c = true) (cs : List Char) :
    lexeme c cs = (.skipped, (cs.takeWhile isSpace).length) := by
  have hne : ∀ d, isSpace d = false → c ≠ d := by
    rintro d hd rfl
    rw [h] at hd
    exact absurd hd (by decide)
  unfold lexeme
  rw [if_neg (hne '/' (by decide)), if_neg (hne '\n' (by decide)), if_pos h]

/-- A blank is skipped by itself, whether or not there are blanks behind it. -/
theorem scanFrom_isSpace {c : Char} (h : isSpace c = true) (gap cs : List Char) :
    scanFrom gap (c :: cs) = scanFrom (gap ++ [c]) cs := by
  rw [scanFrom, lexeme_isSpace h]
  cases cs with
  | nil => rfl
  | cons d ds =>
      by_cases hd : isSpace d = true
      · -- The blanks behind it are skipped with it, or after it.
        rw [scanFrom, lexeme_isSpace hd]
        simp only [List.takeWhile_cons, hd, if_true, List.length_cons, List.take_succ_cons,
          List.drop_succ_cons, List.append_assoc, List.singleton_append]
      · simp only [List.takeWhile_cons, hd, Bool.false_eq_true, if_false, List.length_nil,
          List.take_zero, List.drop_zero]

/-- Indentation only adds to what is skipped before the first token. -/
theorem scan_spaces (n : Nat) (rest : List Char) :
    scan (List.replicate n ' ' ++ rest) = (scan rest).behind (List.replicate n ' ') := by
  have hskipped : ∀ gap, scanFrom gap (List.replicate n ' ' ++ rest)
      = scanFrom (gap ++ List.replicate n ' ') rest := by
    induction n with
    | zero => simp
    | succ n ih =>
        intro gap
        rw [List.replicate_succ, List.cons_append, scanFrom_isSpace (by decide), ih,
          List.append_assoc, List.singleton_append]
  rw [scan, hskipped, List.nil_append, scanFrom_eq_behind]

/-- Indentation in front of a piece that lexes. -/
theorem Lexes.indented {cs : List Char} {ts : List Token} (n : Nat) (hne : ts ≠ [])
    (h : Lexes cs ts) :
    Lexes (List.replicate n ' ' ++ cs) (delayed (List.replicate n ' ') ts) := by
  intro rest
  rw [List.append_assoc, scan_spaces, h, Scan.behind_after _ hne]

end Markup

end WidgetSync
