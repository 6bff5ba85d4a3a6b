import WidgetSync.Markup.Reader
import WidgetSync.Proofs.Lexemes

/-!
# Self-Delimiting Texts

Source text that can be written behind a colon and is found again.

The reader takes the value of a property from the tokens up to the end of the
line, a semicolon or a closing brace, and brackets protect what is inside them.
It then forgets the tokens and keeps the characters they cover. For a text to
come back from this, three things have to hold of it. Its tokens must not depend
on what is written after it, so no comment or quote may stay open. Brackets must
be closed again, and outside of them nothing may end the value. And the text must
neither start nor end with something that is skipped, since only the characters
between the first and the last token are kept.

A value that starts with a brace, or with a capitalized name and a brace, is read
in another way, as code or as an object. Such texts are left out here.

The condition is about the text alone. That it is enough wherever the text stands
is `valueText_written`.

## Main definitions

* `depthAfter`: The brackets that are open behind some tokens of a value.
* `startsPlain`: The tokens start neither a block nor an object.
* `SelfDelimiting`: The condition.

## Theorems

* `valueLength_behind`, `valueLength_append`: A value goes on behind its tokens, or ends with them.
* `valueText_written`: A self-delimiting text is the value read from it.
* `SelfDelimiting.of_tokens`: The condition from the tokens of a text.
* `selfDelimiting_name`, `selfDelimiting_integer`, `selfDelimiting_quoted`,
  `selfDelimiting_localized`: What the writer makes of typed values.
-/

namespace WidgetSync

namespace Text

theorem trimStart_length_le (cs : List Char) : (trimStart cs).length ≤ cs.length :=
  (List.dropWhile_suffix _).length_le

theorem trimEnd_length_le (cs : List Char) : (trimEnd cs).length ≤ cs.length := by
  unfold trimEnd
  rw [List.length_reverse, ← @List.length_reverse _ cs]
  exact (List.dropWhile_suffix _).length_le

theorem not_isBlank_of_trim_eq {c : Char} {cs : List Char} (h : trim (c :: cs) = c :: cs) :
    isBlank c = false := by
  refine Bool.eq_false_iff.mpr (fun hblank => ?_)
  have hlength := trimEnd_length_le (trimStart (c :: cs))
  have hshort := trimStart_length_le cs
  have hstart : trimStart (c :: cs) = trimStart cs := by
    simp only [trimStart, List.dropWhile_cons, hblank, if_true]
  rw [← trim, h, hstart, List.length_cons] at hlength
  omega

/-- A text is trimmed if it ends in no blanks at either side. -/
theorem trim_eq_self {cs : List Char} (hfirst : ∀ c ∈ cs.head?, isBlank c = false)
    (hlast : ∀ c ∈ cs.getLast?, isBlank c = false) : trim cs = cs := by
  have hstart : trimStart cs = cs := by
    cases cs with
    | nil => rfl
    | cons c cs =>
        have hc := hfirst c (by simp only [List.head?_cons, Option.mem_some_iff])
        simp only [trimStart, List.dropWhile_cons, hc, Bool.false_eq_true, if_false]
  rw [trim, hstart, trimEnd]
  rw [List.getLast?_eq_head?_reverse] at hlast
  cases hrev : cs.reverse with
  | nil => rw [List.dropWhile_nil, ← hrev, List.reverse_reverse]
  | cons c ds =>
      have hc := hlast c (by rw [hrev]; simp only [List.head?_cons, Option.mem_some_iff])
      rw [List.dropWhile_cons, if_neg (by rw [hc]; decide), ← hrev, List.reverse_reverse]

end Text

namespace Markup

/-- The number of open brackets behind some tokens, when some are open before them.
    `none` if the tokens contain one that ends the value. -/
def depthAfter (depth : Nat) : List Token → Option Nat
  | [] => some depth
  | t :: ts =>
    if depth = 0 ∧ t.endsValue = true then none
    else if t.isOpener then depthAfter (depth + 1) ts
    else if t.isCloser then depthAfter (depth - 1) ts
    else depthAfter depth ts

/-- The tokens start neither a block nor an object. -/
def startsPlain : List Token → Bool
  | [] => false
  | t :: ts => t.kind != .opening && !(t.isCapital && starts .opening ts)

/-- Behind tokens of which the first ends the value there is no depth. -/
theorem depthAfter_stop {depth : Nat} {t : Token} (h : depth = 0 ∧ t.endsValue = true)
    (ts : List Token) : depthAfter depth (t :: ts) = none := by
  rw [depthAfter, if_pos h]

theorem depthAfter_go {depth : Nat} {t : Token} (h : ¬(depth = 0 ∧ t.endsValue = true))
    (ts : List Token) : depthAfter depth (t :: ts) = depthAfter (t.depthBehind depth) ts := by
  rw [depthAfter, if_neg h, Token.depthBehind]
  split
  · rfl
  · split
    · rfl
    · rfl

/-- A value goes on behind tokens that do not end it, inside the brackets that they leave open. -/
theorem valueLength_behind {depth left : Nat} {ts : List Token}
    (h : depthAfter depth ts = some left) (rest : List Token) :
    valueLength depth (ts ++ rest) = ts.length + valueLength left rest := by
  -- The depth changes from token to token.
  induction ts generalizing depth with
  | nil =>
      simp only [depthAfter, Option.some.injEq] at h
      rw [List.nil_append, List.length_nil, Nat.zero_add, h]
  | cons u us ih =>
      by_cases hends : depth = 0 ∧ u.endsValue = true
      · rw [depthAfter_stop hends] at h
        exact absurd h (by simp only [reduceCtorEq, not_false_eq_true])
      · rw [depthAfter_go hends] at h
        rw [List.cons_append, List.length_cons, valueLength_go hends, Nat.add_right_comm, ih h]

/-- A value ends with its tokens if no bracket stays open and the next token ends a
    value. -/
theorem valueLength_append {depth : Nat} {ts : List Token} (h : depthAfter depth ts = some 0)
    {t : Token} (ht : t.endsValue = true) (rest : List Token) :
    valueLength depth (ts ++ t :: rest) = ts.length := by
  rw [valueLength_behind h, valueLength, if_pos ⟨rfl, ht⟩, Nat.add_zero]

/-- A text that the reader takes for one value wherever it stands in front of a line
    end. -/
structure Delimited (r : List Char) : Prop where
  /-- Its tokens do not depend on what follows. -/
  lexes : Lexes (r ++ ['\n']) ((scan r).tokens ++ [lineEnd])
  /-- It starts and ends with a token. -/
  covers : covered (scan r).tokens = r
  nonempty : (scan r).tokens ≠ []
  /-- There are no blanks around it. -/
  trimmed : Text.trim r = r
  /-- Nothing in it ends the value, and brackets are closed. -/
  balanced : depthAfter 0 (scan r).tokens = some 0

/-- A text that is read back as a value wherever it is written in front of a line
    end. -/
structure SelfDelimiting (r : List Char) : Prop extends Delimited r where
  /-- It is neither a block nor an object. -/
  plain : startsPlain (scan r).tokens = true

theorem covered_delayed (gap : List Char) (ts : List Token) :
    covered (delayed gap ts) = covered ts := by
  cases ts with
  | nil => rfl
  | cons t ts => rfl

theorem delayed_length (gap : List Char) (ts : List Token) :
    (delayed gap ts).length = ts.length := by
  cases ts with
  | nil => rfl
  | cons t ts => rfl

theorem depthAfter_delayed (depth : Nat) (gap : List Char) (ts : List Token) :
    depthAfter depth (delayed gap ts) = depthAfter depth ts := by
  cases ts with
  | nil => rfl
  | cons t ts => rfl

/-- The value that is read from the text in front of a line end. -/
theorem valueText_written {r : List Char} (h : Delimited r) (gap : List Char)
    (rest : List Token) :
    valueText (delayed gap (scan r).tokens ++ lineEnd :: rest) = String.ofList r := by
  have hdepth : depthAfter 0 (delayed gap (scan r).tokens) = some 0 := by
    rw [depthAfter_delayed, h.balanced]
  rw [valueText, valueLength_append hdepth rfl, List.take_left, covered_delayed, h.covers,
    h.trimmed]

theorem Delimited.ne_nil {r : List Char} (h : Delimited r) : r ≠ [] := by
  rintro rfl
  exact h.nonempty (by rw [scan, scanFrom])

/-- The condition from the tokens that a text gives at the end and in front of a line
    end. -/
theorem SelfDelimiting.of_tokens {r : List Char} {ts : List Token}
    (hscan : ∀ rest, (∀ c ∈ rest.head?, c = '\n') → scan (r ++ rest) = (scan rest).after ts)
    (hcovers : covered ts = r) (htrimmed : Text.trim r = r)
    (hbalanced : depthAfter 0 ts = some 0) (hplain : startsPlain ts = true) :
    SelfDelimiting r := by
  -- With nothing behind it the text has the same tokens.
  have hself : (scan r).tokens = ts := by
    have hnil := hscan [] (by simp only [List.head?_nil, Option.mem_def, reduceCtorEq,
      false_implies, implies_true])
    rw [List.append_nil] at hnil
    rw [hnil, Scan.after, scan, scanFrom, List.append_nil]
  refine ⟨⟨?_, by rw [hself, hcovers], ?_, htrimmed, by rw [hself, hbalanced]⟩,
    by rw [hself, hplain]⟩
  case refine_2 =>
    rw [hself]
    rintro rfl
    exact absurd hplain (by decide)
  rw [hself]
  intro rest
  have hline := hscan ('\n' :: rest) (by
    simp only [List.head?_cons, Option.mem_some_iff, eq_comm, imp_self, implies_true])
  rw [List.append_assoc]
  exact hline.trans (by rw [← Scan.after_after]; congr 1; exact lexes_lineEnd rest)

theorem endsName_newline {rest : List Char} (h : ∀ c ∈ rest.head?, c = '\n') : endsName rest := by
  intro c hc
  rw [h c hc]
  decide

theorem endsNumber_newline {rest : List Char} (h : ∀ c ∈ rest.head?, c = '\n') :
    endsNumber rest := by
  intro c hc
  rw [h c hc]
  decide

theorem depthAfter_singleton {t : Token} (hends : t.endsValue = false) (hopens : t.isOpener = false)
    (hcloses : t.isCloser = false) : depthAfter 0 [t] = some 0 := by
  simp only [depthAfter, hends, hopens, hcloses, Bool.false_eq_true, and_false, if_false]

theorem mem_of_isName {cs : List Char} (h : isName cs = true) {c : Char} (hc : c ∈ cs) :
    continuesName c = true ∨ c = '.' := by
  cases cs with
  | nil => exact absurd h (by decide)
  | cons d ds =>
      simp only [isName, Bool.and_eq_true, beq_iff_eq] at h
      rcases List.mem_cons.mp hc with rfl | hc
      · exact Or.inl (startsName_continuesName h.1)
      · exact mem_of_nameLength h.2 hc

theorem not_isBlank_of_isName {cs : List Char} (h : isName cs = true) {c : Char} (hc : c ∈ cs) :
    Text.isBlank c = false := by
  rcases mem_of_isName h hc with hc | rfl
  · exact continuesName_not_isBlank hc
  · decide

theorem trim_eq_self_of_forall {cs : List Char} (h : ∀ c ∈ cs, Text.isBlank c = false) :
    Text.trim cs = cs :=
  Text.trim_eq_self (fun c hc => h c (List.mem_of_mem_head? hc))
    (fun c hc => h c (List.mem_of_getLast? hc))

/-- A token of which the only character is no bracket, or which has several. -/
theorem not_bracket_of_head {t : Token} {c : Char} {cs : List Char} (h : t.body = c :: cs)
    (hc : c ∉ ['\x7b', '(', '[', '\x7d', ')', ']']) : t.isOpener = false ∧ t.isCloser = false := by
  simp only [List.mem_cons, List.not_mem_nil, or_false, not_or] at hc
  simp only [Token.isOpener, Token.isCloser, h, Bool.or_eq_false_iff, beq_eq_false_iff_ne, ne_eq,
    List.cons.injEq, hc, false_and, not_false_eq_true, and_self]

theorem startsName_not_bracket {c : Char} (h : startsName c = true) :
    c ∉ ['\x7b', '(', '[', '\x7d', ')', ']'] := by
  have hall := ascii_forall
    (p := fun c => !startsName c || !(['\x7b', '(', '[', '\x7d', ')', ']'].contains c))
    (by decide) c (startsName_lt h)
  simpa only [h, Bool.not_true, Bool.false_or, Bool.not_eq_true', List.contains_eq_mem,
    decide_eq_false_iff_not] using hall

/-- A name is self-delimiting. -/
theorem selfDelimiting_name {cs : List Char} (h : isName cs = true) : SelfDelimiting cs := by
  refine SelfDelimiting.of_tokens (fun rest hrest => scan_name h (endsName_newline hrest)) ?_
    (trim_eq_self_of_forall fun c hc => not_isBlank_of_isName h hc) ?_ ?_
  · simp only [covered, withGaps, List.flatMap_nil, List.append_nil]
  · cases cs with
    | nil => exact absurd h (by decide)
    | cons c cs =>
        simp only [isName, Bool.and_eq_true] at h
        have hbracket := not_bracket_of_head (t := ⟨.name, [], c :: cs⟩) rfl
          (startsName_not_bracket h.1)
        exact depthAfter_singleton rfl hbracket.1 hbracket.2
  · simp only [startsPlain, starts, Bool.and_false, Bool.not_false, Bool.and_true]
    decide

/-- A written integer is self-delimiting. -/
theorem selfDelimiting_integer (n : Int) : SelfDelimiting (integerText n) := by
  have hmem : ∀ c ∈ integerText n, Text.isBlank c = false ∧
      c ∉ ['\x7b', '(', '[', '\x7d', ')', ']'] := by
    intro c hc
    unfold integerText at hc
    have hbasic : c = '-' ∨ c.isDigit = true := by
      rcases List.mem_append.mp hc with hc | hc
      · split at hc
        · exact Or.inl (List.mem_singleton.mp hc)
        · exact absurd hc List.not_mem_nil
      · exact Or.inr (Nat.isDigit_of_mem_toDigits (by omega) (by omega) hc)
    rcases hbasic with rfl | hdigit
    · decide
    · -- Digits lie below 128, where the classes can be compared one by one.
      have hlt : c.toNat < 128 := by
        simp only [Char.isDigit, Bool.and_eq_true, decide_eq_true_eq] at hdigit
        have : c.toNat ≤ 57 := hdigit.2
        omega
      have hall := ascii_forall (p := fun c => !c.isDigit || (!Text.isBlank c &&
        !(['\x7b', '(', '[', '\x7d', ')', ']'].contains c))) (by decide) c hlt
      simpa only [hdigit, Bool.not_true, Bool.false_or, Bool.and_eq_true, Bool.not_eq_true',
        List.contains_eq_mem, decide_eq_false_iff_not] using hall
  refine SelfDelimiting.of_tokens (fun rest hrest => scan_integer n (endsNumber_newline hrest)) ?_
    (trim_eq_self_of_forall fun c hc => (hmem c hc).1) ?_ ?_
  · simp only [covered, withGaps, List.flatMap_nil, List.append_nil]
  · cases h : integerText n with
    | nil => exact absurd h (integerText_ne_nil n)
    | cons c cs =>
        have hbracket := not_bracket_of_head (t := ⟨.number, [], c :: cs⟩) rfl
          (hmem c (by rw [h]; exact List.mem_cons_self)).2
        exact depthAfter_singleton rfl hbracket.1 hbracket.2
  · simp only [startsPlain, starts, Bool.and_false, Bool.not_false, Bool.and_true]
    decide

theorem trim_quotedText (s : String) : Text.trim (quotedText s) = quotedText s := by
  refine Text.trim_eq_self (fun c hc => ?_) (fun c hc => ?_)
  · rw [quotedText, List.head?_cons, Option.mem_some_iff] at hc
    rw [← hc]
    decide
  · rw [quotedText, ← List.cons_append, List.getLast?_concat, Option.mem_some_iff] at hc
    rw [← hc]
    decide

/-- A written text in quotes is self-delimiting. -/
theorem selfDelimiting_quoted (s : String) : SelfDelimiting (quotedText s) := by
  refine SelfDelimiting.of_tokens (fun rest _ => lexes_quoted s rest) ?_ (trim_quotedText s) ?_ ?_
  · simp only [covered, withGaps, List.flatMap_nil, List.append_nil]
  · have hbracket := not_bracket_of_head (t := ⟨.string, [], quotedText s⟩) rfl
      (by decide : '"' ∉ ['\x7b', '(', '[', '\x7d', ')', ']'])
    exact depthAfter_singleton rfl hbracket.1 hbracket.2
  · simp only [startsPlain, starts, Bool.and_false, Bool.not_false, Bool.and_true]
    decide

/-- A localized text, as it is written. -/
def localizedText (s : String) : List Char :=
  ['q', 's', 'T', 'r'] ++ '(' :: (quotedText s ++ [')'])

/-- The tokens of a localized text. -/
def localizedTokens (s : String) : List Token :=
  [⟨.name, [], ['q', 's', 'T', 'r']⟩, ⟨.other, [], ['(']⟩, ⟨.string, [], quotedText s⟩,
    ⟨.other, [], [')']⟩]

theorem scan_localizedText (s : String) (rest : List Char) :
    scan (localizedText s ++ rest) = (scan rest).after (localizedTokens s) := by
  have hinside : Lexes ('(' :: (quotedText s ++ [')']))
      [⟨.other, [], ['(']⟩, ⟨.string, [], quotedText s⟩, ⟨.other, [], [')']⟩] :=
    (lexes_mark (c := '(') rfl).append ((lexes_quoted s).append (lexes_mark (c := ')') rfl))
  have hname : isName ['q', 's', 'T', 'r'] = true := by decide
  -- The bracket ends the name in front of it.
  have hends : endsName ('(' :: (quotedText s ++ [')']) ++ rest) := by
    intro c hc
    rw [List.cons_append, List.head?_cons, Option.mem_some_iff] at hc
    rw [← hc]
    decide
  rw [localizedText, List.append_assoc, scan_name hname hends, hinside rest, Scan.after_after]
  rfl

/-- A written localized text is self-delimiting. -/
theorem selfDelimiting_localized (s : String) : SelfDelimiting (localizedText s) := by
  refine SelfDelimiting.of_tokens (fun rest _ => scan_localizedText s rest) ?_ ?_ ?_ ?_
  · simp only [covered, withGaps, localizedTokens, localizedText, List.flatMap_cons,
      List.flatMap_nil, List.append_nil, List.nil_append, List.singleton_append]
  · refine Text.trim_eq_self (fun c hc => ?_) (fun c hc => ?_)
    · rw [localizedText, List.cons_append, List.head?_cons, Option.mem_some_iff] at hc
      rw [← hc]
      decide
    · rw [localizedText, ← List.cons_append, ← List.append_assoc, List.getLast?_concat,
        Option.mem_some_iff] at hc
      rw [← hc]
      decide
  · have hbracket := not_bracket_of_head (t := ⟨.string, [], quotedText s⟩) rfl
      (by decide : '"' ∉ ['\x7b', '(', '[', '\x7d', ')', ']'])
    simp only [localizedTokens, depthAfter, hbracket.1, hbracket.2]
    rfl
  · rfl

end Markup

end WidgetSync
