import WidgetSync.Proofs.Locality

/-!
# Every Character Is in a Token or Skipped

The tokens of a text and what is skipped around them are the text.

A text is tokens with a stretch in front of each and one behind the last (`Laid`), and a stretch is
a row of lexemes that are skipped (`Skipped`). A comment to the end of a line can only be the last
of them, since the line feed behind it is a token. A comment over several lines is not skipped. It
is a token that says a line feed, and the only one that does not say its own characters.

So a character is in a token or it is skipped. A bracket that is skipped is in a comment, and one in
a token is all of it, unless the token is a comment or a text in quotes. The same goes for what
begins with a quote or a slash: if neither a comment nor a text in quotes is around it, a lexeme
starts there, and what starts there has only one end (`scan_lossless`).

## Main definitions

* `Skipped`: What can be skipped in front of a text.
* `slice`: The characters between two positions.
* `Token.Fills`, `Laid`: A token, and all tokens with the stretches, in a text.
* `stretches`: The stretches in front of, between and behind the tokens.
* `Occurs`: A sign, a text in quotes or a comment over several lines stands in a text.
* `InComment`: A position is in a comment.

## Theorems

* `Skipped.append`: What is skipped after what is skipped.
* `laid_scan`: A text is tokens with stretches in front of them and behind.
* `Token.Fills.text`: What a token says of the text that it fills.
* `Laid.covers`: A character is in a token or in a stretch.
* `Occurs.lexeme`: What occurs is the lexeme that starts there, if one does.
* `scan_lossless`: Nothing of a text is lost.
-/

namespace WidgetSync

namespace Markup

/-! ### What is skipped -/

/-- The text is skipped in front of the rest: blanks and comments that end on their lines. Only the
    last of them can be a comment to the end of the line. -/
inductive Skipped (rest : List Char) : List Char → Prop where
  /-- Nothing. -/
  | nil : Skipped rest []
  /-- A blank. -/
  | blank {c : Char} {cs : List Char} (hc : isSpace c = true) (h : Skipped rest cs) :
      Skipped rest (c :: cs)
  /-- A comment to the end of the line. -/
  | line {cs : List Char} (hcs : LineComment cs) (hend : ∀ c ∈ rest.head?, c = '\n') :
      Skipped rest cs
  /-- A comment between stars on one line. -/
  | block {cs ds : List Char} (hcs : BlockComment cs) (hline : '\n' ∉ cs) (h : Skipped rest ds) :
      Skipped rest (cs ++ ds)

namespace Skipped

variable {rest gap cs : List Char}

theorem newline_not_mem (h : Skipped rest gap) : '\n' ∉ gap := by
  induction h with
  | nil => exact List.not_mem_nil
  | blank hc _ ih =>
      rw [List.mem_cons, not_or]
      refine ⟨?_, ih⟩
      rintro rfl
      exact absurd hc (by decide)
  | line hcs _ =>
      obtain ⟨text, rfl, htext⟩ := hcs
      rw [List.mem_cons, List.mem_cons, not_or, not_or]
      exact ⟨by decide, by decide, htext⟩
  | block _ hline _ ih =>
      rw [List.mem_append, not_or]
      exact ⟨hline, ih⟩

/-- What is skipped after what is skipped. -/
theorem append (h : Skipped (cs ++ rest) gap) (hcs : Skipped rest cs) :
    Skipped rest (gap ++ cs) := by
  generalize hbehind : cs ++ rest = behind at h
  induction h with
  | nil => exact hcs
  | blank hc _ ih => exact .blank hc ih
  | @line comment hcomment hend =>
      subst hbehind
      cases cs with
      | nil =>
          rw [List.append_nil]
          exact .line hcomment hend
      | cons c cs =>
          -- The comment stops in front of a line feed, and this is not skipped.
          obtain rfl := hend c rfl
          exact absurd List.mem_cons_self hcs.newline_not_mem
  | block hblock hline _ ih =>
      rw [List.append_assoc]
      exact .block hblock hline ih

theorem of_isLexeme (h : IsLexeme rest .skipped cs) : Skipped rest cs := by
  cases h with
  | blanks h =>
      induction cs with
      | nil => exact .nil
      | cons c cs ih =>
          rw [List.forall_mem_cons] at h
          exact .blank h.1 (ih h.2)
  | line h hend => exact .line h hend
  | block h hline =>
      rw [← List.append_nil cs]
      exact .block h hline .nil

/-- What is skipped and no blank is in a comment that is skipped, with all that is in front of
    it. -/
theorem comment_at (h : Skipped rest gap) {p : Nat} {c : Char} (hc : gap[p]? = some c)
    (hspace : isSpace c = false) : ∃ front comment behind, gap = front ++ comment ++ behind ∧
      front.length ≤ p ∧ p < front.length + comment.length ∧
      Skipped (comment ++ behind ++ rest) front ∧ (LineComment comment ∨ BlockComment comment) := by
  induction h generalizing p with
  | nil => exact absurd hc (by simp)
  | @blank d gap hd _ ih =>
      cases p with
      | zero =>
          obtain rfl := Option.some.inj hc
          exact absurd hd (Bool.eq_false_iff.mp hspace)
      | succ p =>
          rcases ih hc with ⟨front, comment, behind, rfl, hle, hlt, hfront, hcomment⟩
          refine ⟨d :: front, comment, behind, rfl, Nat.succ_le_succ hle, ?_, .blank hd hfront,
            hcomment⟩
          rw [List.length_cons]
          omega
  | @line comment hcomment _ =>
      obtain ⟨hlt, -⟩ := List.getElem?_eq_some_iff.mp hc
      exact ⟨[], comment, [], by simp, Nat.zero_le _, by simpa using hlt, .nil, .inl hcomment⟩
  | @block comment gap hcomment hline _ ih =>
      by_cases hin : p < comment.length
      · exact ⟨[], comment, gap, rfl, Nat.zero_le _, by simpa using hin, .nil, .inr hcomment⟩
      · rw [List.getElem?_append_right (Nat.le_of_not_lt hin)] at hc
        rcases ih hc with ⟨front, inner, behind, rfl, hle, hlt, hfront, hinner⟩
        refine ⟨comment ++ front, inner, behind, by simp only [List.append_assoc], ?_, ?_,
          .block hcomment hline hfront, hinner⟩
        · rw [List.length_append]
          omega
        · rw [List.length_append]
          omega

end Skipped

/-! ### Tokens and stretches -/

/-- The characters of a text between two positions. -/
def slice (cs : List Char) (start stop : Nat) : List Char :=
  (cs.drop start).take (stop - start)

theorem slice_append_drop {start stop : Nat} (h : start ≤ stop) (cs : List Char) :
    slice cs start stop ++ cs.drop stop = cs.drop start := by
  have hdrop : cs.drop stop = (cs.drop start).drop (stop - start) := by
    rw [List.drop_drop, Nat.add_sub_cancel' h]
  rw [slice, hdrop, List.take_append_drop]

theorem length_slice {start stop : Nat} {cs : List Char} (h : stop ≤ cs.length) :
    (slice cs start stop).length = stop - start := by
  rw [slice, List.length_take, List.length_drop, Nat.min_eq_left (Nat.sub_le_sub_right h start)]

theorem slice_of_drop {cs word rest : List Char} {start : Nat} (h : cs.drop start = word ++ rest) :
    slice cs start (start + word.length) = word := by
  rw [slice, Nat.add_sub_cancel_left, h, List.take_left]

theorem drop_of_drop {cs word rest : List Char} {start : Nat} (h : cs.drop start = word ++ rest) :
    cs.drop (start + word.length) = rest := by
  rw [← List.drop_drop, h, List.drop_left]

theorem drop_of_slice {cs word : List Char} {c : Char} {start stop : Nat} (hle : stop ≤ cs.length)
    (h : slice cs start stop = c :: word) : start < stop ∧ stop - start - 1 = word.length ∧
      cs.drop start = c :: (word ++ cs.drop stop) := by
  have hlength : (slice cs start stop).length = stop - start := length_slice hle
  rw [h, List.length_cons] at hlength
  refine ⟨by omega, by omega, ?_⟩
  rw [← slice_append_drop (show start ≤ stop by omega) cs, h]
  rfl

theorem getElem?_slice {cs : List Char} {start stop p : Nat} (hle : start ≤ p) (hlt : p < stop) :
    (slice cs start stop)[p - start]? = cs[p]? := by
  rw [slice, List.getElem?_take_of_lt (Nat.sub_lt_sub_right hle hlt), List.getElem?_drop,
    Nat.add_sub_cancel' hle]

/-- The token stands between two positions of a text. -/
structure Token.Fills (cs : List Char) (t : Token) (start stop : Nat) : Prop where
  /-- It is not empty. -/
  lt : start < stop
  /-- It ends in the text. -/
  le : stop ≤ cs.length
  /-- Its characters are those of the text. -/
  body : t.body = slice cs start stop
  /-- It is the lexeme that starts there. -/
  first : ∃ c rest, cs.drop start = c :: rest ∧
    lexeme c rest = (.token t.kind, stop - start - 1)

/-- From a position on, the text is tokens with stretches that are skipped in front of them and
    behind the last. -/
inductive Laid (cs : List Char) : Nat → List (Token × Nat × Nat) → Prop where
  /-- No more tokens. -/
  | tail {position : Nat} (hle : position ≤ cs.length)
      (hgap : Skipped [] (cs.drop position)) : Laid cs position []
  /-- A stretch and a token. -/
  | token {position start stop : Nat} {t : Token} {found : List (Token × Nat × Nat)}
      (hle : position ≤ start) (hgap : Skipped (cs.drop start) (slice cs position start))
      (ht : t.Fills cs start stop) (h : Laid cs stop found) :
      Laid cs position ((t, start, stop) :: found)

/-- A text is tokens with stretches, also when a part of the first stretch is known already. -/
theorem laid_scanFrom (before : List Char) {gap cs : List Char} (hgap : Skipped cs gap) :
    Laid (before ++ gap ++ cs) before.length
      (spansFrom before.length (scanFrom gap cs).tokens) := by
  induction gap, cs using scanFrom_induction generalizing before with
  | nil gap =>
      rw [scanFrom]
      refine .tail ?_ ?_
      · rw [List.length_append, List.length_append]
        omega
      · rw [List.append_assoc, List.drop_left, List.append_nil]
        exact hgap
  | skipped gap c cs n hlexeme ih =>
      have hsplit : c :: cs = c :: cs.take n ++ cs.drop n := by
        rw [List.cons_append, List.take_append_drop]
      rw [scanFrom, hlexeme]
      rw [hsplit] at hgap
      have hall := ih before (hgap.append (.of_isLexeme (isLexeme_of_lexeme hlexeme)))
      rwa [← List.append_assoc, List.append_assoc _ _ (cs.drop n), ← hsplit] at hall
  | token gap c cs kind n hlexeme ih =>
      have hle := lexeme_length_le c cs
      rw [hlexeme] at hle
      have hsplit : c :: cs = c :: cs.take n ++ cs.drop n := by
        rw [List.cons_append, List.take_append_drop]
      rw [scanFrom, hlexeme]
      have hall := ih (before ++ gap ++ c :: cs.take n) .nil
      rw [List.append_nil, List.append_assoc _ _ (cs.drop n), ← hsplit] at hall
      simp only [List.length_append] at hall
      have hdrop : (before ++ gap ++ c :: cs).drop (before.length + gap.length) = c :: cs := by
        rw [← List.length_append, List.drop_left]
      have hfront : (before ++ gap ++ c :: cs).drop before.length = gap ++ c :: cs := by
        rw [List.append_assoc, List.drop_left]
      have hlength : (c :: cs.take n).length = n + 1 := by
        rw [List.length_cons, List.length_take, Nat.min_eq_left hle]
      -- The gap is what lies in front of the token, and the token fills what follows.
      refine .token (Nat.le_add_right _ _) ?_ ⟨?_, ?_, ?_, c, cs, hdrop, ?_⟩ hall
      · rw [hdrop, slice_of_drop hfront]
        exact hgap
      · rw [hlength]
        omega
      · simp only [hlength, List.length_append, List.length_cons]
        omega
      · exact (slice_of_drop (hdrop.trans hsplit)).symm
      · rw [hlexeme, hlength, Nat.add_sub_cancel_left, Nat.add_sub_cancel]

/-- A text is tokens with stretches in front of them and behind the last. -/
theorem laid_scan (cs : List Char) : Laid cs 0 (spans (scan cs).tokens) :=
  laid_scanFrom [] .nil

/-- The stretches in front of, between and behind the tokens, from a position to the end. -/
def stretches (position finish : Nat) : List (Token × Nat × Nat) → List (Nat × Nat)
  | [] => [(position, finish)]
  | (_, start, stop) :: found => (position, start) :: stretches stop finish found

namespace Laid

variable {cs : List Char} {position : Nat} {found : List (Token × Nat × Nat)}

theorem fills (h : Laid cs position found) :
    ∀ a ∈ found, position ≤ a.2.1 ∧ a.1.Fills cs a.2.1 a.2.2 := by
  induction h with
  | tail => exact fun a ha => absurd ha List.not_mem_nil
  | token hle _ ht _ ih =>
      rw [List.forall_mem_cons]
      refine ⟨⟨hle, ht⟩, fun a ha => ⟨?_, (ih a ha).2⟩⟩
      exact Nat.le_trans hle (Nat.le_trans (Nat.le_of_lt ht.lt) (ih a ha).1)

/-- No token starts before the one in front of it ends. -/
theorem pairwise (h : Laid cs position found) : found.Pairwise fun a b => a.2.2 ≤ b.2.1 := by
  induction h with
  | tail => exact .nil
  | token _ _ _ h ih => exact .cons (fun a ha => (h.fills a ha).1) ih

/-- The stretches are skipped. -/
theorem skipped (h : Laid cs position found) : ∀ s ∈ stretches position cs.length found,
    s.1 ≤ s.2 ∧ Skipped (cs.drop s.2) (slice cs s.1 s.2) := by
  induction h with
  | @tail position hle hgap =>
      rw [stretches, List.forall_mem_singleton, List.drop_length, slice,
        List.take_of_length_le (Nat.le_of_eq List.length_drop)]
      exact ⟨hle, hgap⟩
  | token hle hgap _ _ ih =>
      rw [stretches, List.forall_mem_cons]
      exact ⟨⟨hle, hgap⟩, ih⟩

/-- A character of the text is in a token or in a stretch. -/
theorem covers (h : Laid cs position found) {p : Nat} (hle : position ≤ p) (hlt : p < cs.length) :
    (∃ a ∈ found, a.2.1 ≤ p ∧ p < a.2.2) ∨
      ∃ s ∈ stretches position cs.length found, s.1 ≤ p ∧ p < s.2 := by
  induction h with
  | tail => exact .inr ⟨_, List.mem_singleton_self _, hle, hlt⟩
  | @token position start stop t found _ _ _ _ ih =>
      by_cases hgap : p < start
      · exact .inr ⟨_, List.mem_cons_self, hle, hgap⟩
      by_cases hin : p < stop
      · exact .inl ⟨_, List.mem_cons_self, Nat.le_of_not_lt hgap, hin⟩
      · rcases ih (Nat.le_of_not_lt hin) with ⟨a, ha, hp⟩ | ⟨s, hs, hp⟩
        · exact .inl ⟨a, List.mem_cons_of_mem _ ha, hp⟩
        · exact .inr ⟨s, List.mem_cons_of_mem _ hs, hp⟩

end Laid

/-- What the token says of the text that it fills. -/
theorem Token.Fills.isLexeme {cs : List Char} {t : Token} {start stop : Nat}
    (h : t.Fills cs start stop) :
    IsLexeme (cs.drop stop) (.token t.kind) (slice cs start stop) := by
  obtain ⟨c, rest, hdrop, hlexeme⟩ := h.first
  have hlt := h.lt
  have hword := isLexeme_of_lexeme hlexeme
  have hstop : stop = start + (stop - start - 1 + 1) := by omega
  rw [hstop, ← List.drop_drop, slice, hdrop, List.drop_succ_cons, Nat.add_sub_cancel_left,
    List.take_succ_cons]
  exact hword

/-- The token says the characters of the text that it fills, and a comment says a line feed. -/
theorem Token.Fills.text {cs : List Char} {t : Token} {start stop : Nat}
    (h : t.Fills cs start stop) :
    (BlockComment (slice cs start stop) →
        t.kind = .newline ∧ '\n' ∈ slice cs start stop ∧ t.text = "\n") ∧
      (¬BlockComment (slice cs start stop) → t.text = String.ofList (slice cs start stop)) := by
  obtain ⟨hblock, hother⟩ := h.isLexeme.kind_eq
  refine ⟨fun hcomment => ?_, fun hnone => ?_⟩
  · obtain ⟨hkind, hline⟩ := hblock hcomment
    exact ⟨hkind, hline, if_pos hkind⟩
  · rw [Token.text]
    split
    · rw [hother hnone ‹_›]
    · rw [h.body]

/-! ### What is seen -/

/-- Between two positions of the text stands something that the reader of tokens has to see: a
    sign, a text in quotes, or a comment over several lines. -/
inductive Occurs (cs : List Char) : Kind → Nat → Nat → Prop where
  /-- A sign. -/
  | sign {c : Char} {kind : Kind} {p : Nat} (hc : cs[p]? = some c) (hkind : (c, kind) ∈ signs) :
      Occurs cs kind p (p + 1)
  /-- A text in quotes. -/
  | quoted {start stop : Nat} (hle : stop ≤ cs.length) (h : Quoted (slice cs start stop)) :
      Occurs cs .string start stop
  /-- A comment between stars on several lines. -/
  | lines {start stop : Nat} (hle : stop ≤ cs.length) (h : BlockComment (slice cs start stop))
      (hline : '\n' ∈ slice cs start stop) : Occurs cs .newline start stop

/-- What shows is the lexeme that starts there, if one starts there, and it starts with a character
    that is no blank and in no number or name. -/
theorem Occurs.lexeme {cs : List Char} {kind : Kind} {start stop : Nat}
    (h : Occurs cs kind start stop) : start < stop ∧ ∃ c rest, cs.drop start = c :: rest ∧
      isSpace c = false ∧ isWordy c = false ∧
      Markup.lexeme c rest = (.token kind, stop - start - 1) := by
  cases h with
  | @sign c _ _ hc hkind =>
      have hsigns : ∀ a ∈ signs, isSpace a.1 = false ∧ isWordy a.1 = false := by decide
      obtain ⟨hlt, hat⟩ := List.getElem?_eq_some_iff.mp hc
      refine ⟨Nat.lt_succ_self start, c, cs.drop (start + 1), ?_, (hsigns _ hkind).1,
        (hsigns _ hkind).2, ?_⟩
      · rw [List.drop_eq_getElem_cons hlt, hat]
      · rw [lexeme_sign hkind, Nat.add_sub_cancel_left]
  | quoted hle hquoted =>
      obtain ⟨quote, text, hquote, hslice, htext⟩ := hquoted
      obtain ⟨hlt, hlength, hdrop⟩ := drop_of_slice hle hslice
      refine ⟨hlt, quote, _, hdrop, ?_, ?_, ?_⟩
      · rcases hquote with rfl | rfl
        · decide
        · decide
      · rcases hquote with rfl | rfl
        · decide
        · decide
      · rw [hlength, List.append_assoc, List.length_append]
        exact lexeme_quotes hquote htext _
  | lines hle hblock hline =>
      obtain ⟨text, hslice, hopen⟩ := hblock
      obtain ⟨hlt, hlength, hdrop⟩ := drop_of_slice hle hslice
      rw [hslice, newline_mem_block] at hline
      refine ⟨hlt, '/', _, hdrop, by decide, by decide, ?_⟩
      rw [hlength, List.cons_append, List.append_assoc, List.length_cons, List.length_append]
      refine (lexeme_block hopen _).trans ?_
      rw [if_pos hline]
      rfl

/-- The position is in a comment: in a token that is one, or in what is skipped between the
    tokens. -/
def InComment (cs : List Char) (found : List (Token × Nat × Nat)) (p : Nat) : Prop :=
  (∃ a ∈ found, a.2.1 ≤ p ∧ p < a.2.2 ∧ BlockComment (slice cs a.2.1 a.2.2)) ∨
    ∃ s ∈ stretches 0 cs.length found, ∃ start stop, s.1 ≤ start ∧ start ≤ p ∧ p < stop ∧
      stop ≤ s.2 ∧ Skipped (cs.drop start) (slice cs s.1 start) ∧
      (LineComment (slice cs start stop) ∨ BlockComment (slice cs start stop))

/-- What occurs in a stretch is in a comment. -/
theorem Laid.comment_at {cs : List Char} {found : List (Token × Nat × Nat)}
    (h : Laid cs 0 found) {s : Nat × Nat} (hs : s ∈ stretches 0 cs.length found) {p : Nat}
    {c : Char} (hc : cs[p]? = some c) (hspace : isSpace c = false) (hle : s.1 ≤ p)
    (hlt : p < s.2) :
    InComment cs found p := by
  -- What is skipped there is cut at the comment, and positions are counted from the stretch.
  obtain ⟨hs12, hgap⟩ := h.skipped s hs
  rw [← getElem?_slice hle hlt] at hc
  rcases hgap.comment_at hc hspace with
    ⟨front, comment, behind, heq, hfront, hcomment, hskipped, hkind⟩
  have hdrop : cs.drop s.1 = front ++ (comment ++ (behind ++ cs.drop s.2)) := by
    rw [← slice_append_drop hs12 cs, heq]
    simp only [List.append_assoc]
  have hbehind := drop_of_drop hdrop
  have hlength : front.length + comment.length ≤ s.2 - s.1 := by
    have hle : (slice cs s.1 s.2).length ≤ s.2 - s.1 := List.length_take_le _ _
    rw [heq, List.length_append, List.length_append] at hle
    omega
  refine .inr ⟨s, hs, s.1 + front.length, s.1 + front.length + comment.length, ?_, ?_, ?_, ?_,
    ?_, ?_⟩
  · omega
  · omega
  · omega
  · omega
  · rw [hbehind, slice_of_drop hdrop, ← List.append_assoc]
    exact hskipped
  · rw [slice_of_drop hbehind]
    exact hkind

/-- Nothing of a text is lost. The tokens stand one behind the other, and say their characters or,
    for a comment, a line feed. What is skipped around them is blanks and comments that end on
    their lines. What is neither in a comment nor in a text in quotes is seen if it is a line feed,
    a bracket, a colon, a semicolon, a text in quotes or a comment over several lines. -/
theorem scan_lossless (cs : List Char) :
    let found := spans (scan cs).tokens
    found.Pairwise (fun a b => a.2.2 ≤ b.2.1) ∧
    (∀ a ∈ found, a.2.1 < a.2.2 ∧ a.2.2 ≤ cs.length ∧
      (BlockComment (slice cs a.2.1 a.2.2) →
        a.1.kind = .newline ∧ '\n' ∈ slice cs a.2.1 a.2.2 ∧ a.1.text = "\n") ∧
      (¬BlockComment (slice cs a.2.1 a.2.2) →
        a.1.text = String.ofList (slice cs a.2.1 a.2.2))) ∧
    (∀ s ∈ stretches 0 cs.length found,
      s.1 ≤ s.2 ∧ Skipped (cs.drop s.2) (slice cs s.1 s.2)) ∧
    ∀ kind start stop, Occurs cs kind start stop →
      (∃ t, (t, start, stop) ∈ found ∧ t.kind = kind) ∨
      (∃ a ∈ found, a.1.kind = .string ∧ Quoted (slice cs a.2.1 a.2.2) ∧
        a.2.1 < start ∧ start < a.2.2) ∨
      InComment cs found start := by
  intro found
  have hlaid : Laid cs 0 found := laid_scan cs
  refine ⟨hlaid.pairwise, fun a ha => ?_, hlaid.skipped, fun kind start stop hoccurs => ?_⟩
  · have hfills := (hlaid.fills a ha).2
    exact ⟨hfills.lt, hfills.le, hfills.text⟩
  obtain ⟨hlt, c, rest, hdrop, hspace, hwordy, hlexeme⟩ := hoccurs.lexeme
  have hc : cs[start]? = some c := by
    rw [← List.head?_drop, hdrop]
    rfl
  obtain ⟨hbound, -⟩ := List.getElem?_eq_some_iff.mp hc
  rcases hlaid.covers (Nat.zero_le start) hbound with
    ⟨⟨t, first, last⟩, ha, hfirst, hlast⟩ | ⟨s, hs, hle, hend⟩
  · have hfills : t.Fills cs first last := (hlaid.fills _ ha).2
    simp only at hfirst hlast
    rcases Nat.eq_or_lt_of_le hfirst with rfl | hinside
    · -- The token is the lexeme that starts there.
      obtain ⟨d, ds, hds, htoken⟩ := hfills.first
      rw [hdrop] at hds
      obtain ⟨rfl, rfl⟩ := List.cons.inj hds
      rw [hlexeme, Prod.mk.injEq, Lexeme.token.injEq] at htoken
      obtain rfl : stop = last := by
        have := hfills.lt
        omega
      exact .inl ⟨t, ha, htoken.1.symm⟩
    · -- It is inside the token, which is then no number and no name.
      rw [← getElem?_slice hfirst hlast] at hc
      rcases hfills.isLexeme.inside (Nat.sub_pos_of_lt hinside) hc hwordy with
        hblock | ⟨hkind, hquoted⟩
      · exact .inr (.inr (.inl ⟨_, ha, hfirst, hlast, hblock⟩))
      · exact .inr (.inl ⟨_, ha, hkind, hquoted, hinside, hlast⟩)
  · exact .inr (.inr (hlaid.comment_at hs hc hspace hle hend))

/-- A text with a line feed that a backslash covers, a comment on one line, a comment over two lines
    and a quote that is not closed. -/
def remarked : List Char :=
  "x: \"(\\\n\" // ;\n/* ]\n */ '[".toList

theorem remarked_lossless :
    let found := spans (scan remarked).tokens
    let comment : Token := ⟨.newline, [], "/* ]\n */".toList⟩
    ((comment, 14, 22) ∈ found ∧ BlockComment (slice remarked 14 22) ∧ comment.text = "\n") ∧
    ((8, 13) ∈ stretches 0 remarked.length found ∧
      Skipped (remarked.drop 13) (slice remarked 8 13)) ∧
    Occurs remarked .other 24 25 ∧
    ((∃ t, (t, 24, 25) ∈ found ∧ t.kind = .other) ∨
      (∃ a ∈ found, a.1.kind = .string ∧ Quoted (slice remarked a.2.1 a.2.2) ∧
        a.2.1 < 24 ∧ 24 < a.2.2) ∨
      InComment remarked found 24) := by
  intro found comment
  rcases scan_lossless remarked with ⟨-, htokens, hstretches, hseen⟩
  have hcomment : (comment, 14, 22) ∈ found := by decide +kernel
  have hblock : BlockComment (slice remarked 14 22) := ⟨" ]\n ".toList, by decide, by decide⟩
  have hstretch : (8, 13) ∈ stretches 0 remarked.length found := by decide +kernel
  have hbracket : Occurs remarked .other 24 25 := .sign (c := '[') (by decide) (by decide)
  exact ⟨⟨hcomment, hblock, ((htokens _ hcomment).2.2.1 hblock).2.2⟩,
    ⟨hstretch, (hstretches _ hstretch).2⟩, hbracket, hseen _ _ _ hbracket⟩

end Markup

end WidgetSync
