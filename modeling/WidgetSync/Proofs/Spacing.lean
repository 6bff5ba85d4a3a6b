import WidgetSync.Proofs.Closings

/-!
# Layout Between Statements

Blanks, ends of lines and semicolons may be put between any two statements.

Where the reader is about to take a statement, it skips the ends of lines and semicolons that it
finds, so more of them should not matter. The text need not be well formed for this: the place may
be behind a statement that was skipped, or behind an import. But what is put there is cut into
tokens together with the text. In front of the end of a line a comment may take some of it, and
an import may take semicolons. And the text in front is read with other tokens behind it.

At the end of a text the reader is not only between statements. A value with a bracket open goes on
to the end, and takes along what is put there; so does an object that is kept as its source text.
`SettledEnd` excludes the two.

## Main definitions

* `isFiller`: The characters that may be put between statements.
* `Between`: The reader is about to take a statement at a position, and no object is open.
* `SettledEnd`: Nothing goes on to the end of the text that is kept as source text.
* `withFiller`: A text with something put into it.

## Theorems

* `scanFrom_filler`: Such characters are cut into tokens that the reader skips.
* `Reading.outcome_fillers`: The reader skips them.
* `filler_before`, `filler_behind`: It comes to the same with them, before a statement or at the
  end.
* `filler_immaterial`: The document is the same.
-/

namespace WidgetSync

namespace Markup

/-- The character may be put between statements. -/
def isFiller (c : Char) : Bool :=
  c == ' ' || c == '\t' || c == '\n' || c == ';'

/-- The tokens only end lines and statements. -/
def areFillers (ts : List Token) : Bool :=
  ts.all fun t => t.kind == .newline || t.kind == .semicolon

theorem isHarmless_of_isFiller {c : Char} (h : isFiller c = true) : isHarmless c = true := by
  simp only [isFiller, Bool.or_eq_true, beq_iff_eq, or_assoc] at h
  rcases h with rfl | rfl | rfl | rfl
  all_goals decide

theorem isStop_of_isFiller {c : Char} (h : isFiller c = true) : isStop c = true := by
  simp only [isFiller, Bool.or_eq_true, beq_iff_eq, or_assoc] at h
  rcases h with rfl | rfl | rfl | rfl
  all_goals decide

theorem areFillers_cons {k : Token} {ks : List Token} (h : areFillers (k :: ks) = true) :
    (k.kind = .newline ∨ k.kind = .semicolon) ∧ areFillers ks = true := by
  rw [areFillers, List.all_cons, Bool.and_eq_true] at h
  exact ⟨by simpa using h.1, h.2⟩

theorem areFillers_drop {ks : List Token} (h : areFillers ks = true) (n : Nat) :
    areFillers (ks.drop n) = true := by
  rw [areFillers, List.all_eq_true] at h ⊢
  intro k hk
  exact h k (List.mem_of_mem_drop hk)

/-- A value ends in front of them if it ends in front of what is behind. -/
theorem valueEnds_fillers {ks us : List Token} (hks : areFillers ks = true)
    (hus : valueEnds us = true) : valueEnds (ks ++ us) = true := by
  cases ks with
  | nil => exact hus
  | cons k ks =>
      rw [List.cons_append, valueEnds, Token.endsValue]
      rcases (areFillers_cons hks).1 with hkind | hkind
      all_goals simp [hkind]

theorem lexeme_semicolon (cs : List Char) : lexeme ';' cs = (.token .semicolon, 0) :=
  lexeme_sign (by decide) cs

/-- A blank, or a token that ends a line or a statement. -/
theorem filler_cases {c : Char} (h : isFiller c = true) :
    isSpace c = true ∨
      ∃ kind, (kind = .newline ∨ kind = .semicolon) ∧ ∀ cs, lexeme c cs = (.token kind, 0) := by
  simp only [isFiller, Bool.or_eq_true, beq_iff_eq, or_assoc] at h
  rcases h with rfl | rfl | rfl | rfl
  · exact .inl (by decide)
  · exact .inl (by decide)
  · exact .inr ⟨_, .inl rfl, lexeme_newline⟩
  · exact .inr ⟨_, .inr rfl, lexeme_semicolon⟩

/-- Such characters are cut into tokens that only end lines and statements, in front of any
    text. -/
theorem scanFrom_filler (gap : List Char) {filler : List Char}
    (hfiller : ∀ c ∈ filler, isFiller c = true) (rest : List Char) :
    ∃ behind ts, areFillers ts = true ∧
      scanFrom gap (filler ++ rest) = (scanFrom behind rest).after ts := by
  induction filler generalizing gap with
  | nil => exact ⟨gap, [], rfl, (Scan.after_nil _).symm⟩
  | cons c filler ih =>
      have hlater : ∀ d ∈ filler, isFiller d = true := fun d hd =>
        hfiller d (List.mem_cons_of_mem c hd)
      rw [List.cons_append]
      rcases filler_cases (hfiller c List.mem_cons_self) with hspace | ⟨kind, hkind, hlexeme⟩
      · rw [scanFrom_isSpace hspace]
        exact ih (gap ++ [c]) hlater
      · obtain ⟨behind, ts, hts, hscan⟩ := ih [] hlater
        refine ⟨behind, ⟨kind, gap, [c]⟩ :: ts, ?_, ?_⟩
        · rw [areFillers, List.all_cons, Bool.and_eq_true]
          refine ⟨?_, hts⟩
          rcases hkind with rfl | rfl
          all_goals rfl
        · rw [scanFrom, hlexeme]
          simp only [List.take_zero, List.drop_zero, hscan]
          rfl

namespace Reading

variable {r : Reading} {tail : List Char}

/-- The ends of lines and statements are skipped. -/
theorem outcome_fillers {ts : List Token} (h : areFillers ts = true) (us : List Token) :
    r.outcome tail (ts ++ us) = r.outcome tail us := by
  induction ts with
  | nil => rfl
  | cons t ts ih =>
      obtain ⟨hkind, hts⟩ := areFillers_cons h
      have hstep : r.step tail t (ts ++ us) = .next r 0 [] := by
        by_cases hframes : r.frames = []
        · rw [step_topLevel hframes, topLevel, if_pos hkind]
        · exact (HasForm.ending hkind).step hframes tail
      rw [List.cons_append, outcome_next hstep, List.drop_zero, ih hts]

/-- What was skipped before a token does not matter to its statement. -/
theorem step_gap (t : Token) (gap : List Char) (ts : List Token) :
    r.step tail { t with gap := gap } ts = r.step tail t ts := by
  have hlength : valueLength 0 ({ t with gap := gap } :: ts) = valueLength 0 (t :: ts) := rfl
  by_cases hframes : r.frames = []
  · rw [step_topLevel hframes, step_topLevel hframes]
    rfl
  · rcases hasForm t ts with ⟨form, hform⟩
    have hother : HasForm { t with gap := gap } ts form := by
      cases hform with
      | closing h => exact .closing h
      | ending h => exact .ending h
      | nameless hcloses hends hname => exact .nameless hcloses hends hname
      | widget hname hopens hcapital => exact .widget hname hopens hcapital
      | group hname hopens hcapital => exact .group hname hopens hcapital
      | value hname hcolon => exact .value hname hcolon
      | declaration hname hopens hcolon hdeclares =>
          exact .declaration hname hopens hcolon hdeclares
      | unused hname hopens hcolon hdeclares => exact .unused hname hopens hcolon hdeclares
    rw [hform.step hframes, hother.step hframes]
    cases hform with
    | declaration hname =>
        obtain ⟨kind, _, body⟩ := t
        obtain rfl : kind = .name := hname
        rfl
    | _ => rfl

theorem outcome_gap (t : Token) (gap : List Char) (ts : List Token) :
    r.outcome tail ({ t with gap := gap } :: ts) = r.outcome tail (t :: ts) := by
  have hgap : r.step tail { t with gap := gap } ts = r.step tail t ts := r.step_gap t gap ts
  cases hstep : r.step tail t ts with
  | stop s => rw [outcome_stop hstep, outcome_stop (hgap.trans hstep)]
  | next s used remarks => rw [outcome_next hstep, outcome_next (hgap.trans hstep)]

/-- No object opens when others are taken for its tokens. -/
theorem inObject_extended (rest : List Token) : (r.extended rest).inObject = r.inObject := by
  rw [inObject, extended, List.any_map, inObject]
  congr 1
  funext frame
  cases frame with
  | _ => rfl

end Reading

/-- The reader is about to take a statement at a position of the text, or is at its end, and no
    object is open. -/
inductive Between (s : Settings) (source : String) : Nat → Prop where
  | before (st : Statement) (h : st ∈ statements s source) (hplain : st.before.inObject = false) :
      Between s source (positionOf (scan source.toList).tokens (st.rest.length + 1))
  | ending : Between s source source.toList.length

/-- At the end of a text no value is open, and no object that will be kept as its source text. -/
structure SettledEnd (s : Settings) (source : String) : Prop where
  values : ∀ st ∈ statements s source, st.unclosed = false
  objects : isStopped s source = false →
    (lastReading s source).keeps (fun _ => true) = false

/-- The text with something put into it at a position. -/
def withFiller (source : String) (position : Nat) (filler : String) : String :=
  String.ofList (source.toList.take position ++ filler.toList ++ source.toList.drop position)

section Filler

variable {s : Settings} {source : String} {filler : List Char}

theorem takeWhile_length_le {p : Char → Bool} {x : Char} (hx : p x = false)
    (cs rest : List Char) : ((cs ++ x :: rest).takeWhile p).length ≤ cs.length := by
  rw [takeWhile_stop hx]
  exact length_takeWhile_le p cs

/-- A separator closes no quote, so a quote that is covered in front of it is not closed in front of
    such characters. -/
theorem quotedLength?_covered {c : Char} {ds : List Char} (hstop : isStop c = true)
    (hfiller : ∀ d ∈ filler, isFiller d = true) (hne : filler ≠ []) {q : Char}
    (hq : q = '"' ∨ q = '\'') (hnone : quotedLength? q 0 ds = none) :
    quotedLength? q 0 ((filler ++ c :: ds).drop 1) = none := by
  have hspec := (isStop_spec hstop).2
  cases filler with
  | nil => exact absurd rfl hne
  | cons d filler =>
      refine quotedLength?_harmless hq (fun e he => ?_) ?_
      · exact isHarmless_of_isFiller (hfiller e (List.mem_cons_of_mem d he))
      · have hback : c ≠ '\\' := by
          rintro rfl
          exact absurd hspec (by decide)
        have hquote : c ≠ q := by
          rintro rfl
          rcases hq with rfl | rfl
          all_goals exact absurd hspec (by decide)
        rw [quotedLength?_cons _ _ hback, if_neg hquote]
        by_cases hline : c = '\n'
        · rw [if_pos hline]
        · rw [if_neg hline, quotedLength?_shift, hnone, Option.map_none]

theorem stops_filler (hfiller : ∀ d ∈ filler, isFiller d = true) (hne : filler ≠ [])
    (rest : List Char) : stops (filler ++ rest) = true := by
  cases filler with
  | nil => exact absurd rfl hne
  | cons d filler => exact isStop_of_isFiller (hfiller d List.mem_cons_self)

/-- What a text is cut into with such characters before a statement. -/
theorem scan_filler {cs : List Char} {ts us : List Token} {t : Token}
    (hfiller : ∀ c ∈ filler, isFiller c = true) (hne : filler ≠ [])
    (h : (scan cs).tokens = ts ++ t :: us) (hseparated : isSeparated ts (t :: us) = true) :
    ∃ as bs gap ks, cs = as ++ bs ∧ as.length = (withGaps ts).length + t.gap.length ∧
      areFillers ks = true ∧
      scan (as ++ filler ++ bs)
        = ⟨ts ++ ks ++ { t with gap := gap } :: us, (scan cs).tail⟩ := by
  obtain ⟨as, bs, hsource, hlength, hscan, ⟨c, ds, n, rfl, hlexeme, hbody⟩, hreplace⟩ :=
    scan_replace h hseparated
  have hharmless : ∀ d ∈ filler, isHarmless d = true := fun d hd =>
    isHarmless_of_isFiller (hfiller d hd)
  have hspace : isSpace c = false := by
    rw [Bool.eq_false_iff]
    intro hspace
    rw [lexeme_isSpace hspace] at hlexeme
    exact Lexeme.noConfusion (Prod.mk.inj hlexeme).1
  obtain ⟨m, behind, hm, hnew⟩ := hreplace (filler ++ c :: ds) (Follows.harmless hharmless hne)
    fun hends => ⟨stops_filler hfiller hne _, fun q hq hnone =>
      quotedLength?_covered (stops_of_endsValue hlexeme hends) hfiller hne hq hnone⟩
  -- Something may be taken by what was skipped before, but nothing of the statement.
  have hle : m ≤ filler.length := by
    rcases hm with rfl | hm
    · exact Nat.zero_le _
    · cases hm with
      | blanks => exact takeWhile_length_le hspace filler ds
      | comment hline =>
          obtain rfl := hline c rfl
          exact takeWhile_length_le (by decide) filler ds
  rw [List.drop_append_of_le_length hle] at hnew
  obtain ⟨gap, ks, hks, hfillers⟩ := scanFrom_filler behind
    (fun d hd => hfiller d (List.mem_of_mem_drop (i := m) hd)) (c :: ds)
  refine ⟨as, c :: ds, gap, ks, hsource, hlength, hks, ?_⟩
  rw [hfillers, Scan.after_after] at hnew
  -- Behind the first token of the statement nothing is different.
  have hfirst : ∀ gap, scanFrom gap (c :: ds)
      = (scan (ds.drop n)).after [{ t with gap := gap }] := by
    intro gap
    rw [scanFrom, hlexeme, hbody]
    rfl
  rw [hfirst] at hscan hnew
  have hus : (scan (ds.drop n)).tokens = us := by
    have htokens := congrArg Scan.tokens hscan
    rw [h] at htokens
    exact (List.cons.inj (List.append_cancel_left htokens)).2.symm
  have htail : (scan (ds.drop n)).tail = (scan cs).tail := (congrArg Scan.tail hscan).symm
  rw [List.append_assoc, hnew, Scan.after_after, Scan.after, hus, htail]
  simp

/-- What ends lines and statements may stand in front of a statement. -/
theorem seam_fillers {ks us : List Token} {t u : Token} (hks : areFillers ks = true)
    (hkind : u.kind = t.kind) : Seam (t :: us) (ks ++ u :: us) ks.length where
  value hends := by
    refine valueEnds_fillers hks ?_
    have hends : t.endsValue = true := hends
    rwa [valueEnds, Token.endsValue, hkind]
  line hends := by
    have hline : (u.kind != .newline) = false := by
      rw [hkind]
      simpa [lineEnds] using hends
    have htake := @takeWhile_stop Token (fun v => v.kind != .newline) u hline ks us
    rw [htake]
    exact (List.takeWhile_prefix _).length_le

/-- What a text is cut into with such characters behind it. -/
theorem scan_filler_behind (cs : List Char) (hfiller : ∀ c ∈ filler, isFiller c = true)
    (hne : filler ≠ []) : ∃ gap ks, areFillers ks = true ∧
      scan (cs ++ filler) = ⟨(scan cs).tokens ++ ks, gap⟩ := by
  have hstops := stops_filler hfiller hne []
  rw [List.append_nil] at hstops
  obtain ⟨m, behind, -, hscan⟩ := scanFrom_behind [] cs hstops fun c hc =>
    isHarmless_of_isFiller (hfiller c hc)
  obtain ⟨gap, ks, hks, hfillers⟩ := scanFrom_filler behind
    (fun c hc => hfiller c (List.mem_of_mem_drop (i := m) hc)) []
  rw [List.append_nil, scanFrom] at hfillers
  refine ⟨gap, ks, hks, ?_⟩
  rw [scan, hscan, hfillers, Scan.after, Scan.after, List.append_nil]
  rfl

/-- Where the reader is about to take a statement, it takes it behind such characters. -/
theorem filler_before {st : Statement} (hst : st ∈ statements s source)
    (hplain : st.before.inObject = false) (hfiller : ∀ c ∈ filler, isFiller c = true)
    (hne : filler ≠ []) :
    ∃ as bs, source.toList = as ++ bs ∧
      positionOf (scan source.toList).tokens (st.rest.length + 1) = as.length ∧
      (Reading.initial s).outcome (scan (as ++ filler ++ bs)).tail (scan (as ++ filler ++ bs)).tokens
        = (Reading.initial s).outcome (scan source.toList).tail (scan source.toList).tokens := by
  obtain ⟨ts, htokens, hreaches, hseparated⟩ := exists_place hst
  obtain ⟨as, bs, gap, ks, hsource, hlength, hks, hscan⟩ :=
    scan_filler hfiller hne htokens hseparated
  refine ⟨as, bs, hsource, by rw [htokens, positionOf_append, hlength], ?_⟩
  rw [hscan, htokens, hreaches.outcome]
  generalize (scan source.toList).tail = tail at hreaches ⊢
  have hseam : Seam (st.first :: st.rest) (ks ++ { st.first with gap := gap } :: st.rest)
      ks.length := seam_fillers hks rfl
  obtain ⟨q, j, hj, hq, hother⟩ := Reading.Reaches.alike (r := Reading.initial s) hseam
    (List.cons_ne_nil _ _) tail hreaches
  -- No object is open, so none has kept what follows.
  rw [hq, Reading.inObject_extended] at hplain
  rw [Reading.extended_of_inObject hplain] at hq hother
  have hother := hother.outcome
  rw [List.drop_append_of_le_length hj, Reading.outcome_fillers (areFillers_drop hks j),
    Reading.outcome_gap, ← hq] at hother
  rw [← hother, List.append_assoc]
  rfl

/-- At the end of a text there is nothing that goes on over such characters and is kept. -/
theorem filler_behind (hend : SettledEnd s source) (hfiller : ∀ c ∈ filler, isFiller c = true)
    (hne : filler ≠ []) :
    (Reading.initial s).outcome (scan (source.toList ++ filler)).tail
        (scan (source.toList ++ filler)).tokens
      = (Reading.initial s).outcome (scan source.toList).tail (scan source.toList).tokens := by
  obtain ⟨gap, ks, hks, hscan⟩ := scan_filler_behind source.toList hfiller hne
  have hvalue : valueEnds (ks ++ []) = true := valueEnds_fillers hks rfl
  rw [List.append_nil] at hvalue
  rw [hscan]
  refine Reading.outcome_behind (r := Reading.initial s) hvalue gap hend.values
    fun hstopped j => ?_
  have hskip : ∀ r : Reading, r.outcome gap (ks.drop j ++ []) = r.outcome gap [] := fun r =>
    Reading.outcome_fillers (areFillers_drop hks j) []
  rw [List.append_nil] at hskip
  -- Nothing is closed but objects that do not keep their source text.
  have hclose := Reading.closeAll_sourced (f := fun source => source ++ ks)
    (fun _ hnone => absurd hnone (by simp)) (hend.objects hstopped)
  rw [hskip, Reading.outcome_nil, Reading.extended_eq]
  exact congrArg (·, false) hclose

end Filler

/-- Layout between statements does not matter: blanks, ends of lines and semicolons may be put
    wherever the reader is about to take a statement outside of objects. At the end of the text,
    nothing must be open that goes on over them and is kept as source text. -/
theorem filler_immaterial (s : Settings) {source : String} {position : Nat}
    (hplace : Between s source position)
    (hend : position = source.toList.length → SettledEnd s source) {filler : String}
    (hfiller : ∀ c ∈ filler.toList, isFiller c = true) :
    (readDocument s (withFiller source position filler)).1 = (readDocument s source).1 := by
  by_cases hne : filler.toList = []
  · rw [withFiller, hne, List.append_nil, List.take_append_drop, String.ofList_toList]
  refine readDocument_congr ?_
  rw [withFiller, String.toList_ofList]
  cases hplace with
  | before st hst hplain =>
      obtain ⟨as, bs, hsource, hlength, houtcome⟩ := filler_before hst hplain hfiller hne
      rw [hlength, hsource, List.take_left, List.drop_left, houtcome, hsource]
  | ending =>
      rw [List.take_length, List.drop_length, List.append_nil]
      exact filler_behind (hend rfl) hfiller hne

/-- A text with an import, a comment at the end of a line and a block that is not closed. -/
def sampleLayout : String :=
  "import A\nButton \x7b x: 5 // five\n a: 1; C \x7b"

theorem sampleLayout_filled :
    (Between {} sampleLayout 30 ∧
      (readDocument {} (withFiller sampleLayout 30 "\t;\n; ")).1
        = (readDocument {} sampleLayout).1) ∧
    Between {} sampleLayout 41 ∧ SettledEnd {} sampleLayout ∧
      (readDocument {} (withFiller sampleLayout 41 "\t;\n; ")).1
        = (readDocument {} sampleLayout).1 := by
  have hinside : Between {} sampleLayout 30 := by
    have hmet : (statements {} sampleLayout).any (fun st => !st.before.inObject &&
        positionOf (scan sampleLayout.toList).tokens (st.rest.length + 1) == 30) = true := by
      decide +kernel
    obtain ⟨st, hst, hplace⟩ := List.any_eq_true.mp hmet
    rw [Bool.and_eq_true, Bool.not_eq_true', beq_iff_eq] at hplace
    rw [← hplace.2]
    exact .before st hst hplace.1
  have hlength : sampleLayout.toList.length = 41 := by decide +kernel
  have hend : SettledEnd {} sampleLayout := by
    have hvalues : (statements {} sampleLayout).all (fun st => !st.unclosed) = true := by
      decide +kernel
    refine ⟨fun st hst => ?_, fun _ => by decide +kernel⟩
    simpa only [Bool.not_eq_true'] using List.all_eq_true.mp hvalues st hst
  have hfiller : "\t;\n; ".toList.all isFiller = true := by decide +kernel
  have hfiller := List.all_eq_true.mp hfiller
  exact ⟨⟨hinside, filler_immaterial {} hinside (fun _ => hend) hfiller⟩, hlength ▸ .ending, hend,
    filler_immaterial {} (hlength ▸ .ending) (fun _ => hend) hfiller⟩

/-- A text that ends inside a value with a bracket open. -/
def openBracket : String :=
  "Button \x7b a: (1"

/-- There a semicolon is no layout. It belongs to the value. -/
theorem openBracket_filled : Between {} openBracket 14 ∧ isFiller ';' = true ∧
    (readDocument {} (withFiller openBracket 14 ";")).1 ≠ (readDocument {} openBracket).1 := by
  have hlength : openBracket.toList.length = 14 := by decide +kernel
  refine ⟨hlength ▸ .ending, rfl, fun hsame => ?_⟩
  have hvalues := congrArg (fun d : Document =>
    d.nodes.map fun n => n.properties.map fun f => (f.1, f.2.plain)) hsame
  revert hvalues
  decide +kernel

end Markup

end WidgetSync
