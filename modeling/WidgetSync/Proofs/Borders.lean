import WidgetSync.Proofs.Scanned

/-!
# Borders Between Lexemes

A text is cut in the same way when something else follows it.

A text stands in front of another one, and the other is replaced. The lexemes of the first are
found by looking ahead, so they could change, even if none of them went over the border before.
Most lexemes stop at a character of certain kinds, and there is no difference if the border is at
such a character (`Fits`). Quotes and comments look for what closes them, and where nothing did
before, nothing must do so now (`Follows`). Then there is one difference left. What is skipped
last before the border, blanks or a comment on one line, may take some of the new text along. It
was skipped before, and it is skipped with what it takes.

## Main definitions

* `isBorder`: No lexeme of the text goes over into what follows.
* `Follows`: A text closes nothing that another one left open.
* `Fits`: The border is at a character where lexemes stop.
* `Absorbs`: What blanks and comments before the border take of the text behind it.
* `isHarmless`: The characters that close nothing and cover nothing.

## Theorems

* `exists_border`: There is a border before each token.
* `lexeme_replace`: The first lexeme in front of another text.
* `scanFrom_replace`: A text is cut into the same tokens in front of another one.
* `scan_replace`: A text can go on with another one where a statement starts.
* `scanFrom_behind`: A text can go on with harmless characters at its end.
-/

namespace WidgetSync

namespace Markup

/-- No lexeme of the text goes over into what follows. -/
def isBorder (rest : List Char) : List Char → Bool
  | [] => true
  | c :: cs =>
    decide ((lexeme c (cs ++ rest)).2 ≤ cs.length)
      && isBorder rest (cs.drop (lexeme c (cs ++ rest)).2)
termination_by cs => cs.length
decreasing_by simp only [List.length_cons, List.length_drop]; omega

/-- There is always a border at the end. -/
theorem isBorder_nil (cs : List Char) : isBorder [] cs = true := by
  induction cs using isBorder.induct [] with
  | case1 => rw [isBorder]
  | case2 c cs ih =>
      rw [isBorder, ih, List.append_nil, decide_eq_true (lexeme_length_le c cs), Bool.true_and]

-- A quote is closed in the text, or the search goes on behind it

/-- A quote that is left open is searched for behind the text. If the text ends with a backslash
    that covers a character, the search starts behind that character. -/
theorem quotedLength?_open {quote : Char} {cs : List Char} (h : quoteOpen quote cs = true) :
    ∃ k ≤ 1, (k = 1 → cs.getLast? = some '\\') ∧ ∀ n rest, quotedLength? quote n (cs ++ rest)
      = (quotedLength? quote 0 (rest.drop k)).map (· + (n + cs.length + k)) := by
  induction cs using quoted_induction with
  | nil =>
      refine ⟨0, Nat.zero_le 1, by simp, fun n rest => ?_⟩
      simpa using quotedLength?_shift quote n rest
  | backslash =>
      -- The backslash covers the first character behind the text.
      refine ⟨1, Nat.le_refl 1, by simp, fun n rest => ?_⟩
      cases rest with
      | nil => simp [quotedLength?]
      | cons d ds =>
          rw [List.singleton_append, quotedLength?_backslash, quotedLength?_shift]
          simp [Nat.add_assoc]
  | pair d ds ih =>
      obtain ⟨k, hk, hlast, hrest⟩ := ih (by simpa [quoteOpen] using h)
      refine ⟨k, hk, fun hone => ?_, fun m rest => ?_⟩
      · have hds := hlast hone
        cases ds with
        | nil => simp at hds
        | cons e es => simpa using hds
      · rw [List.cons_append, List.cons_append, quotedLength?_backslash, hrest, List.length_cons,
          List.length_cons]
        congr 1
        funext j
        omega
  | char c cs hback ih =>
      rw [quoteOpen_cons _ hback, Bool.and_eq_true, Bool.and_eq_true] at h
      obtain ⟨⟨hquote, hline⟩, hopen⟩ := h
      obtain ⟨k, hk, hlast, hrest⟩ := ih hopen
      refine ⟨k, hk, fun hone => ?_, fun m rest => ?_⟩
      · have hcs := hlast hone
        cases cs with
        | nil => simp at hcs
        | cons e es => simpa using hcs
      · rw [List.cons_append, quotedLength?_cons _ _ hback, if_neg (by simpa using hquote),
          if_neg (by simpa using hline), hrest, List.length_cons]
        congr 1
        funext j
        omega

/-- A text closes no quote and no comment that another one leaves open, and opens no comment with
    a slash in front of it. -/
structure Follows (bs cs : List Char) : Prop where
  quote : ∀ q, q = '"' ∨ q = '\'' → quotedLength? q 0 bs = none → quotedLength? q 0 cs = none
  comment : commentLength? 0 bs = none → commentLength? 0 cs = none
  head : ∀ c ∈ cs.head?, c ≠ '/' ∧ c ≠ '*'

/-- Between a text and either of two others there is a character where lexemes stop. -/
inductive Fits (as bs cs : List Char) : Prop where
  /-- The text ends with it. -/
  | before {x : Char} (h : as.getLast? = some x) (hstop : isStop x = true)
  /-- The others start with one, or are at an end. The text may have a backslash at its end, and
      then it covers the character. -/
  | behind (hbs : stops bs = true) (hcs : stops cs = true)
      (hcovered : ∀ q, q = '"' ∨ q = '\'' →
        quotedLength? q 0 (bs.drop 1) = none → quotedLength? q 0 (cs.drop 1) = none)

/-- What is taken of a text by blanks in front of it, or by a comment in front of it that went on
    to the end of a line. -/
inductive Absorbs (bs cs : List Char) : Nat → Prop where
  | blanks : Absorbs bs cs (cs.takeWhile isSpace).length
  | comment (h : ∀ c ∈ bs.head?, c = '\n') : Absorbs bs cs (cs.takeWhile (· != '\n')).length

section Replacing

variable {as bs cs : List Char}

/-- What stops at such a character does not see the difference. -/
theorem Fits.congr {α : Type} {f : List Char → α} (h : Fits as bs cs)
    (hf : ∀ {rest : List Char}, stops rest = true → ∀ ds, f (ds ++ rest) = f ds) :
    f (as ++ cs) = f (as ++ bs) := by
  cases h with
  | behind hbs hcs => rw [hf hbs, hf hcs]
  | before hlast hstop =>
      obtain ⟨zs, rfl⟩ := List.getLast?_eq_some_iff.mp hlast
      rw [List.append_assoc, List.append_assoc, List.singleton_append, List.singleton_append,
        @hf (_ :: cs) hstop, @hf (_ :: bs) hstop]

theorem Fits.tail {c : Char} (h : Fits (c :: as) bs cs) :
    Fits as bs cs ∨ as = [] ∧ isStop c = true := by
  cases h with
  | behind hbs hcs hcovered => exact .inl (.behind hbs hcs hcovered)
  | before hlast hstop =>
      cases as with
      | nil =>
          obtain rfl := Option.some.inj hlast
          exact .inr ⟨rfl, hstop⟩
      | cons d ds =>
          rw [List.getLast?_cons_cons] at hlast
          exact .inl (.before hlast hstop)

theorem Fits.drop {c : Char} (h : Fits (c :: as) bs cs) (n : Nat) :
    as.drop n = [] ∨ Fits (as.drop n) bs cs := by
  cases h with
  | behind hbs hcs hcovered => exact .inr (.behind hbs hcs hcovered)
  | before hlast hstop =>
      by_cases hn : as.length ≤ n
      · exact .inl (List.drop_eq_nil_of_le hn)
      · refine .inr (.before ?_ hstop)
        rw [List.getLast?_drop, if_neg hn]
        cases as with
        | nil => exact absurd (Nat.zero_le n) hn
        | cons d ds => rwa [List.getLast?_cons_cons] at hlast

/-- A run of characters that ends before the border, or that goes on behind it. -/
theorem takeWhile_replace {p : Char → Bool}
    (h : ((as ++ bs).takeWhile p).length ≤ as.length) :
    ((as ++ cs).takeWhile p).length = ((as ++ bs).takeWhile p).length ∨
      bs.takeWhile p = [] ∧ ((as ++ bs).takeWhile p).length = as.length ∧
        ((as ++ cs).takeWhile p).length = as.length + (cs.takeWhile p).length := by
  by_cases hall : (as.takeWhile p).length = as.length
  · rw [List.takeWhile_append, if_pos hall, List.length_append] at h
    have hnil : bs.takeWhile p = [] := List.eq_nil_of_length_eq_zero (by omega)
    refine .inr ⟨hnil, ?_, ?_⟩
    · rw [List.takeWhile_append, if_pos hall, hnil, List.append_nil]
    · rw [List.takeWhile_append, if_pos hall, List.length_append]
  · left
    rw [List.takeWhile_append, if_neg hall, List.takeWhile_append, if_neg hall]

/-- A quote that is not closed over the border is not closed over it in front of the other text. -/
theorem quotedLength?_replace {q c : Char} (hq : q = '"' ∨ q = '\'') (hfollows : Follows bs cs)
    (hfits : Fits (c :: as) bs cs)
    (h : ∀ m, quotedLength? q 0 (as ++ bs) = some m → m ≤ as.length) :
    quotedLength? q 0 (as ++ cs) = quotedLength? q 0 (as ++ bs) := by
  cases hopen : quoteOpen q as with
  | false => rw [quotedLength?_closed cs 0 hopen, quotedLength?_closed bs 0 hopen]
  | true =>
      obtain ⟨k, hk, hlast, hrest⟩ := quotedLength?_open hopen
      rw [hrest] at h ⊢
      rw [hrest]
      -- It would be closed over the border, so it is not closed at all.
      have hnone : quotedLength? q 0 (bs.drop k) = none := by
        rw [Option.eq_none_iff_forall_ne_some]
        intro m hm
        have hpos := quotedLength?_pos hm
        have hle := h (m + (0 + as.length + k)) (by rw [hm, Option.map_some])
        omega
      suffices hsame : quotedLength? q 0 (cs.drop k) = none by rw [hsame, hnone]
      rcases Nat.le_one_iff_eq_zero_or_eq_one.mp hk with rfl | rfl
      · exact hfollows.quote q hq hnone
      · cases hfits with
        | behind _ _ hcovered => exact hcovered q hq hnone
        | before hx hstop =>
            -- The backslash is no character where lexemes stop.
            have hback : (c :: as).getLast? = some '\\' := by
              rw [List.getLast?_cons, hlast rfl, Option.getD_some]
            rw [hback, Option.some.injEq] at hx
            exact absurd (isStop_spec hstop).2 (by simp [← hx])

/-- A comment on one line goes on over the border only if the line does not. A comment that is not
    closed is none in front of either text. -/
theorem lexeme_slash_replace (hborder : (lexeme '/' (as ++ bs)).2 ≤ as.length)
    (hfollows : Follows bs cs) :
    lexeme '/' (as ++ cs) = lexeme '/' (as ++ bs) ∨
      lexeme '/' (as ++ bs) = (.skipped, as.length) ∧
        ∃ m, Absorbs bs cs m ∧ lexeme '/' (as ++ cs) = (.skipped, as.length + m) := by
  cases as with
  | nil =>
      -- The slash stands alone, as no comment starts behind it in either text.
      left
      have halone : (lexeme '/' bs).2 = 0 := Nat.le_zero.mp hborder
      rw [List.nil_append, List.nil_append, lexeme_slash_other hfollows.head,
        lexeme_slash_alone halone]
  | cons d as =>
      rw [List.cons_append, List.cons_append] at *
      rw [List.length_cons] at hborder ⊢
      by_cases hslash : d = '/'
      · subst hslash
        rw [lexeme_comment_line] at hborder ⊢
        rw [lexeme_comment_line]
        rcases @takeWhile_replace as bs cs _
          (Nat.le_of_add_le_add_left (Nat.add_comm _ 1 ▸ hborder)) with hsame | ⟨hnil, hbs, hcs⟩
        · exact .inl (by rw [hsame])
        · refine .inr ⟨by rw [hbs, Nat.add_comm], _, .comment fun c hc => ?_, ?_⟩
          · cases bs with
            | nil => simp at hc
            | cons b bs =>
                obtain rfl := Option.some.inj hc
                by_cases hline : b = '\n'
                · exact hline
                · simp [hline] at hnil
          · rw [hcs]
            congr 1
            omega
      by_cases hstar : d = '*'
      · subst hstar
        left
        cases hlength : commentLength? 0 (as ++ bs) with
        | none =>
            have has : commentLength? 0 as = none := by
              rw [Option.eq_none_iff_forall_ne_some]
              intro m hm
              rw [commentLength?_closed bs hm] at hlength
              simp at hlength
            have hopen := commentLength?_open has (hfollows.comment (commentLength?_behind hlength))
              fun hhead => absurd rfl (hfollows.head _ hhead).1
            rw [lexeme_comment_open hlength, lexeme_comment_open hopen]
        | some m =>
            rw [lexeme_comment_closed hlength] at hborder ⊢
            have hm : m ≤ as.length := Nat.le_of_succ_le_succ hborder
            have hclosed := commentLength?_closed cs (commentLength?_inside hlength hm)
            rw [lexeme_comment_closed hclosed, List.take_append_of_le_length hm,
              List.take_append_of_le_length hm]
      · left
        rw [lexeme_slash_cons hslash hstar, lexeme_slash_cons hslash hstar]

/-- The first lexeme is the same in front of another text, unless it is skipped and takes some of
    that text along. -/
theorem lexeme_replace {c : Char} (hborder : (lexeme c (as ++ bs)).2 ≤ as.length)
    (hfollows : Follows bs cs) (hfits : Fits (c :: as) bs cs) :
    lexeme c (as ++ cs) = lexeme c (as ++ bs) ∨
      lexeme c (as ++ bs) = (.skipped, as.length) ∧
        ∃ m, Absorbs bs cs m ∧ lexeme c (as ++ cs) = (.skipped, as.length + m) := by
  cases first c with
  | slash hc =>
      subst hc
      exact lexeme_slash_replace hborder hfollows
  | feed hc =>
      left
      rw [hc, lexeme_newline, lexeme_newline]
  | blank hc =>
      rw [lexeme_isSpace hc] at hborder ⊢
      rw [lexeme_isSpace hc]
      rcases @takeWhile_replace as bs cs _ hborder with hsame | ⟨-, hbs, hcs⟩
      · exact .inl (by rw [hsame])
      · exact .inr ⟨by rw [hbs], _, .blanks, by rw [hcs]⟩
  | quote hc =>
      left
      rw [lexeme_of_quote hc] at hborder ⊢
      rw [lexeme_of_quote hc, quotedLength?_replace hc hfollows hfits]
      intro m hm
      simpa only [hm, Option.elim_some] using hborder
  | plain hc =>
      -- Such a lexeme stops where names and numbers do.
      left
      have hnumber : numberText? (c :: (as ++ cs)) = numberText? (c :: (as ++ bs)) :=
        hfits.congr numberText?_stop
      have hname : startsName c = true → nameLength (as ++ cs) = nameLength (as ++ bs) := by
        intro hstart
        rcases hfits.tail with hfits | ⟨-, hstop⟩
        · exact hfits.congr nameLength_stop
        · have hclass := (isStop_spec hstop).1
          simp [hstart] at hclass
      rw [lexeme_of_isPlainStart _ hc, lexeme_of_isPlainStart _ hc, hnumber]
      cases numberText? (c :: (as ++ bs)) with
      | some n => rfl
      | none =>
          by_cases hstart : startsName c = true
          · simp only [hstart, if_true, hname hstart]
          · simp only [hstart, Bool.false_eq_true, if_false]

/-- A text is cut into the same tokens in front of another one, of which some may be skipped
    together with the end of the text. -/
theorem scanFrom_replace (gap : List Char) (hborder : isBorder bs as = true)
    (hfollows : Follows bs cs) (hfits : as = [] ∨ Fits as bs cs) :
    ∃ ts before behind m, (m = 0 ∨ Absorbs bs cs m) ∧
      scanFrom gap (as ++ bs) = (scanFrom before bs).after ts ∧
      scanFrom gap (as ++ cs) = (scanFrom behind (cs.drop m)).after ts := by
  induction as using isBorder.induct bs generalizing gap with
  | case1 => exact ⟨[], gap, gap, 0, .inl rfl, (Scan.after_nil _).symm, (Scan.after_nil _).symm⟩
  | case2 c as ih =>
      have hfits := hfits.resolve_left (List.cons_ne_nil c as)
      rw [isBorder, Bool.and_eq_true, decide_eq_true_eq] at hborder
      obtain ⟨hle, hrest⟩ := hborder
      rw [List.cons_append, List.cons_append, scanFrom, scanFrom]
      rcases lexeme_replace hle hfollows hfits with hsame | ⟨hbs, m, hm, hcs⟩
      · rw [hsame]
        cases hlexeme : lexeme c (as ++ bs) with
        | mk k j =>
            rw [hlexeme] at hle hrest ih
            have htake := fun ds => @List.take_append_of_le_length _ as ds _ hle
            have hdrop := fun ds => @List.drop_append_of_le_length _ as ds _ hle
            have hnext := fun gap => ih gap hrest (hfits.drop j)
            simp only at htake hdrop hnext
            cases k with
            | skipped =>
                simp only [htake, hdrop]
                exact hnext _
            | token kind =>
                obtain ⟨ts, before, behind, m, hm, hbs, hcs⟩ := hnext []
                refine ⟨⟨kind, gap, c :: as.take j⟩ :: ts, before, behind, m, hm, ?_, ?_⟩
                · simp only [htake, hdrop, hbs]
                  rfl
                · simp only [htake, hdrop, hcs]
                  rfl
      · -- The text is used up, and what was skipped goes on.
        rw [hbs, hcs]
        refine ⟨[], gap ++ c :: as, gap ++ c :: (as ++ cs.take m), m, .inr hm, ?_, ?_⟩
        · simp
        · simp [List.take_length_add_append, List.drop_length_add_append]

end Replacing

-- The borders of a text

/-- The ends of lines, semicolons and braces begin and end with characters where lexemes stop. -/
theorem lexeme_separator {c : Char} {cs : List Char} {kind : Kind} {n : Nat}
    (h : lexeme c cs = (.token kind, n))
    (hkind : kind = .newline ∨ kind = .semicolon ∨ kind = .closing ∨ kind = .opening) :
    isStop c = true ∧ ∃ x, (c :: cs.take n).getLast? = some x ∧ isStop x = true := by
  have hsingle : ∀ d, isStop d = true → c = d →
      isStop c = true ∧ ∃ x, (c :: cs.take 0).getLast? = some x ∧ isStop x = true := by
    rintro d hd rfl
    exact ⟨hd, c, rfl, hd⟩
  cases found_of_lexeme h with
  | lines hc hcs hn =>
      subst hc hcs
      exact ⟨by decide, '/', (blockComment_take hn).getLast?_eq, by decide⟩
  | feed hc => exact hsingle _ (by decide) hc
  | semicolon hc => exact hsingle _ (by decide) hc
  | closing hc => exact hsingle _ (by decide) hc
  | opening hc => exact hsingle _ (by decide) hc
  | quoted | number | name | colon | other => exact absurd hkind (by decide)

/-- What was skipped in front of a text ends with a character where lexemes stop, or with its
    line. -/
def endsSkipped (gap cs : List Char) : Prop :=
  gap = [] ∨ (∃ x, gap.getLast? = some x ∧ isStop x = true) ∨ ∀ c ∈ cs.head?, c = '\n'

theorem endsSkipped_skipped {c : Char} {cs : List Char} {n : Nat}
    (h : lexeme c cs = (.skipped, n)) (gap : List Char) :
    endsSkipped (gap ++ c :: cs.take n) (cs.drop n) := by
  right
  have hlast : ∀ x, (c :: cs.take n).getLast? = some x →
      (gap ++ c :: cs.take n).getLast? = some x := by
    intro x hx
    rw [List.getLast?_append, hx, Option.some_or]
  cases isLexeme_of_lexeme h with
  | line _ hend => exact .inr hend
  | block hblock => exact .inl ⟨'/', hlast _ hblock.getLast?_eq, by decide⟩
  | blanks hblanks =>
      refine .inl ⟨_, hlast _ (List.getLast?_eq_some_getLast (List.cons_ne_nil _ _)), ?_⟩
      simp only [isStop, hblanks _ (List.getLast_mem _), Bool.true_or]

/-- A border behind the lexemes after the first is a border behind all of them. -/
theorem isBorder_lexeme {c : Char} {cs as bs : List Char}
    (hsplit : cs.drop (lexeme c cs).2 = as ++ bs) (has : isBorder bs as = true) :
    c :: cs = c :: (cs.take (lexeme c cs).2 ++ as) ++ bs ∧
      isBorder bs (c :: (cs.take (lexeme c cs).2 ++ as)) = true := by
  have hle := lexeme_length_le c cs
  have hcs : cs = cs.take (lexeme c cs).2 ++ as ++ bs := by
    rw [List.append_assoc, ← hsplit, List.take_append_drop]
  have hlength : (cs.take (lexeme c cs).2).length = (lexeme c cs).2 := by
    rw [List.length_take, Nat.min_eq_left hle]
  refine ⟨by rw [List.cons_append, ← hcs], ?_⟩
  rw [isBorder, ← hcs, List.drop_left' hlength, has, Bool.and_true, decide_eq_true_eq,
    List.length_append, hlength]
  exact Nat.le_add_right _ _

/-- There is a border before each token, behind what is skipped in front of it. -/
theorem exists_border {gap cs : List Char} {ts us : List Token} {t : Token}
    (h : (scanFrom gap cs).tokens = ts ++ t :: us) (hgap : endsSkipped gap cs) :
    ∃ as c ds n, cs = as ++ c :: ds ∧ isBorder (c :: ds) as = true ∧
      scanFrom gap cs = (scanFrom t.gap (c :: ds)).after ts ∧
      gap ++ as = withGaps ts ++ t.gap ∧ endsSkipped t.gap (c :: ds) ∧
      lexeme c ds = (.token t.kind, n) ∧ t.body = c :: ds.take n := by
  induction gap, cs using scanFrom_induction generalizing ts with
  | nil gap =>
      rw [scanFrom] at h
      simp at h
  | skipped gap c cs n hlexeme ih =>
      have hborder := @isBorder_lexeme c cs
      rw [hlexeme] at hborder
      rw [scanFrom, hlexeme] at h
      obtain ⟨as, d, ds, j, hsplit, has, hscan, hwith, hskipped, hd, hbody⟩ :=
        ih h (endsSkipped_skipped hlexeme gap)
      obtain ⟨hcs, hborder⟩ := hborder hsplit has
      refine ⟨_, d, ds, j, hcs, hborder, ?_, ?_, hskipped, hd, hbody⟩
      · rw [scanFrom, hlexeme]
        exact hscan
      · rw [← hwith, List.append_assoc, List.cons_append]
  | token gap c cs kind n hlexeme ih =>
      rw [scanFrom, hlexeme] at h
      cases ts with
      -- The lexeme is the token, or else the token is one of those behind it.
      | nil =>
          simp only [List.nil_append, List.cons.injEq] at h
          obtain ⟨rfl, -⟩ := h
          exact ⟨[], c, cs, n, rfl, by rw [isBorder], (Scan.after_nil _).symm,
            List.append_nil gap, hgap, hlexeme, rfl⟩
      | cons u ts =>
          have hborder := @isBorder_lexeme c cs
          rw [hlexeme] at hborder
          simp only [List.cons_append, List.cons.injEq] at h
          obtain ⟨hu, hrest⟩ := h
          obtain ⟨as, d, ds, j, hsplit, has, hscan, hwith, hskipped, hd, hbody⟩ :=
            ih hrest (.inl rfl)
          obtain ⟨hcs, hborder⟩ := hborder hsplit has
          refine ⟨_, d, ds, j, hcs, hborder, ?_, ?_, hskipped, hd, hbody⟩
          · rw [scanFrom, hlexeme]
            simp only [hscan, ← hu]
            rfl
          · rw [withGaps_cons, ← hu, List.append_assoc (gap ++ _), ← hwith]
            simp

/-- The token ends a value, or opens a block. -/
def Token.separates (t : Token) : Bool :=
  t.endsValue || t.kind == .opening

theorem Token.kind_of_separates {t : Token} (h : t.separates = true) :
    t.kind = .newline ∨ t.kind = .semicolon ∨ t.kind = .closing ∨ t.kind = .opening := by
  simpa [separates, endsValue, or_assoc] using h

/-- Some tokens are over where others start: a separator stands on one side, or nothing is in
    front. -/
def isSeparated (ts us : List Token) : Bool :=
  ts.isEmpty || ts.getLast?.any Token.separates || us.head?.any Token.endsValue

theorem stops_of_endsValue {t : Token} {c : Char} {ds : List Char} {n : Nat}
    (h : lexeme c ds = (.token t.kind, n)) (hends : t.endsValue = true) : isStop c = true := by
  refine (lexeme_separator h ?_).1
  have hkind := Token.kind_of_separates (t := t) (by rw [Token.separates, hends, Bool.true_or])
  exact hkind

theorem length_tokens (gap cs : List Char) :
    (scanFrom gap cs).tokens.length = (scan cs).tokens.length := by
  rw [scanFrom_eq_behind]
  rcases scan cs with ⟨_ | ⟨t, ts⟩, tail⟩
  all_goals rfl

/-- Between a statement and what was read before it, a text can go on with another one. -/
theorem scan_replace {source : List Char} {ts us : List Token} {t : Token}
    (h : (scan source).tokens = ts ++ t :: us) (hseparated : isSeparated ts (t :: us) = true) :
    ∃ as bs, source = as ++ bs ∧ as.length = (withGaps ts).length + t.gap.length ∧
      scan source = (scanFrom t.gap bs).after ts ∧
      (∃ c ds n, bs = c :: ds ∧ lexeme c ds = (.token t.kind, n) ∧ t.body = c :: ds.take n) ∧
      ∀ cs, Follows bs cs → (t.endsValue = true → stops cs = true ∧ ∀ q, q = '"' ∨ q = '\'' →
          quotedLength? q 0 (bs.drop 1) = none → quotedLength? q 0 (cs.drop 1) = none) →
        ∃ m behind, (m = 0 ∨ Absorbs bs cs m) ∧
          scan (as ++ cs) = (scanFrom behind (cs.drop m)).after ts := by
  obtain ⟨as, c, ds, n, hsource, hborder, hscan, hwith, hgap, hlexeme, hbody⟩ :=
    exists_border h (.inl rfl)
  rw [List.nil_append] at hwith
  refine ⟨as, c :: ds, hsource, by rw [hwith, List.length_append], hscan,
    ⟨c, ds, n, rfl, hlexeme, hbody⟩, fun cs hfollows hcs => ?_⟩
  -- Where lexemes stop, there is the end of what was skipped, or a separator.
  have hbehind : t.endsValue = true → Fits as (c :: ds) cs := fun hends =>
    .behind (stops_of_endsValue hlexeme hends) (hcs hends).1 (hcs hends).2
  have hfits : as = [] ∨ Fits as (c :: ds) cs := by
    rcases hgap with hnil | ⟨x, hx, hstop⟩ | hline
    · rw [hnil, List.append_nil] at hwith
      simp only [isSeparated, Bool.or_eq_true, List.isEmpty_iff] at hseparated
      rcases hseparated with (rfl | hlast) | hends
      · exact .inl hwith
      · cases hu : ts.getLast? with
        | none => simp [hu] at hlast
        | some u =>
            rw [hu, Option.any_some] at hlast
            obtain ⟨zs, rfl⟩ := List.getLast?_eq_some_iff.mp hu
            have hx : ∃ x, u.body.getLast? = some x ∧ isStop x = true := by
              rw [List.append_assoc, List.singleton_append] at h
              obtain ⟨_, d, es, k, -, -, -, -, -, hd, hbody⟩ := exists_border h (.inl rfl)
              rw [hbody]
              exact (lexeme_separator hd (Token.kind_of_separates hlast)).2
            obtain ⟨x, hx, hstop⟩ := hx
            refine .inr (.before (x := x) ?_ hstop)
            rw [hwith, withGaps, List.flatMap_append]
            simp [List.getLast?_append, hx]
      · exact .inr (hbehind (by simpa using hends))
    · refine .inr (.before (x := x) ?_ hstop)
      rw [hwith, List.getLast?_append, hx, Option.some_or]
    · obtain rfl := hline c rfl
      rw [lexeme_newline] at hlexeme
      refine .inr (hbehind ?_)
      rw [Token.endsValue, ← Lexeme.token.inj (Prod.mk.inj hlexeme).1]
      rfl
  obtain ⟨others, before, behind, m, hm, hbs, hcs⟩ :=
    scanFrom_replace [] hborder hfollows hfits
  -- The tokens before the border are those that stand there.
  have hsame : others = ts := by
    rw [hsource] at hscan
    have htokens := congrArg Scan.tokens (hbs.symm.trans hscan)
    exact (List.append_inj' htokens (by rw [length_tokens, length_tokens])).1
  subst hsame
  exact ⟨m, behind, hm, hcs⟩

/-- The character closes no quote and no comment, covers nothing and opens no comment. -/
def isHarmless (c : Char) : Bool :=
  c != '\\' && c != '"' && c != '\'' && c != '*' && c != '/'

section Harmless

variable {as bs : List Char}

theorem quotedLength?_harmless {q : Char} (hq : q = '"' ∨ q = '\'')
    (has : ∀ c ∈ as, isHarmless c = true) (h : quotedLength? q 0 bs = none) :
    quotedLength? q 0 (as ++ bs) = none := by
  induction as with
  | nil => exact h
  | cons c as ih =>
      have hc : c ≠ '\\' ∧ c ≠ q := by
        have := has c List.mem_cons_self
        rcases hq with rfl | rfl
        all_goals simp_all [isHarmless]
      rw [List.cons_append, quotedLength?_cons _ _ hc.1, if_neg hc.2]
      split
      · rfl
      · rw [quotedLength?_shift, ih fun d hd => has d (List.mem_cons_of_mem c hd), Option.map_none]

theorem commentLength?_harmless (has : ∀ c ∈ as, isHarmless c = true)
    (h : commentLength? 0 bs = none) : commentLength? 0 (as ++ bs) = none := by
  induction as with
  | nil => exact h
  | cons c as ih =>
      have hc : c ≠ '*' := by
        have := has c List.mem_cons_self
        simp_all [isHarmless]
      rw [List.cons_append, commentLength?_cons fun hends => hc hends.1,
        ih fun d hd => has d (List.mem_cons_of_mem c hd), Option.map_none]

/-- Such characters may be put in front of any text. -/
theorem Follows.harmless (has : ∀ c ∈ as, isHarmless c = true) (hne : as ≠ []) :
    Follows bs (as ++ bs) where
  quote _ hq h := quotedLength?_harmless hq has h
  comment h := commentLength?_harmless has h
  head c hc := by
    cases as with
    | nil => exact absurd rfl hne
    | cons d as =>
        obtain rfl : d = c := by simpa using hc
        have := has d List.mem_cons_self
        simp_all [isHarmless]

/-- A text goes on with such characters. -/
theorem scanFrom_behind (gap as : List Char) {cs : List Char} (hstops : stops cs = true)
    (hcs : ∀ c ∈ cs, isHarmless c = true) :
    ∃ m behind, (m = 0 ∨ Absorbs [] cs m) ∧
      scanFrom gap (as ++ cs) = (scanFrom behind (cs.drop m)).after (scanFrom gap as).tokens := by
  by_cases hne : cs = []
  · refine ⟨0, (scanFrom gap as).tail, .inl rfl, ?_⟩
    rw [hne, List.append_nil, List.drop_nil, scanFrom, Scan.after, List.append_nil]
  have hcovered : ∀ q, q = '"' ∨ q = '\'' → quotedLength? q 0 ([] : List Char) = none →
      quotedLength? q 0 (cs.drop 1) = none := by
    intro q hq hnone
    have hdrop := quotedLength?_harmless hq
      (fun c hc => hcs c (List.mem_of_mem_drop (i := 1) hc)) hnone
    rwa [List.append_nil] at hdrop
  have hfollows : Follows [] cs := by
    have hharmless : Follows [] (cs ++ []) := Follows.harmless hcs hne
    rwa [List.append_nil] at hharmless
  obtain ⟨ts, before, behind, m, hm, has, hscan⟩ :=
    scanFrom_replace gap (isBorder_nil as) hfollows (.inr (.behind rfl hstops hcovered))
  rw [List.append_nil, scanFrom, Scan.after, List.append_nil] at has
  exact ⟨m, behind, hm, by rw [hscan, has]⟩

end Harmless

end Markup

end WidgetSync
