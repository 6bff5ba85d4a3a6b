import WidgetSync.Proofs.Indentation
import WidgetSync.Proofs.Margins

/-!
# The Tokens of a Text

What is known about tokens that were cut from some text.

Whatever the text, a name among its tokens is a name by itself, and every end of
the tokens is the tokens of a text again. So a reader that has used up some tokens
still works on the tokens of a text.

An object is kept as the text from its type to its last token. That text is cut
from the middle of another, but its first two tokens are found again in it: the
gap between them ends at a brace, and what is skipped there does not depend on what
follows the brace.

## Main definitions

* `Scanned`: The tokens are those of some text.

## Theorems

* `Scanned.name`: Names are names by themselves.
* `Scanned.opens`: The text of an object starts like the object.
-/

namespace WidgetSync

namespace Markup

-- What is skipped in front of a character is skipped whatever follows that character.
theorem lexeme_skipped_front {c d : Char} {cs es : List Char} {n : Nat}
    (h : lexeme c cs = (.skipped, n)) (hd : cs.drop n = d :: es) (os : List Char) :
    lexeme c (cs.take n ++ d :: os) = (.skipped, n) := by
  have hwhile : ∀ (p : Char → Bool) (ds es : List Char),
      ds.drop (ds.takeWhile p).length = d :: es →
      (ds.take (ds.takeWhile p).length ++ d :: os).takeWhile p = ds.takeWhile p := by
    intro p ds es hrest
    rw [drop_takeWhile] at hrest
    rw [← List.prefix_iff_eq_take.mp (List.takeWhile_prefix p)]
    refine takeWhile_append_of_forall (fun c hc => ?_) fun c hc => ?_
    · exact List.all_eq_true.mp (List.all_takeWhile (p := p) (l := ds)) c hc
    · rw [List.head?_cons, Option.mem_some_iff] at hc
      subst hc
      have hnot := List.head?_dropWhile_not p ds
      rw [hrest, List.head?_cons] at hnot
      simpa only [Bool.not_eq_true'] using hnot
  cases found_of_lexeme h with
  | line hc hcs =>
      subst hc hcs
      rw [List.drop_succ_cons] at hd
      rw [List.take_succ_cons, List.cons_append, lexeme_comment_line, hwhile _ _ _ hd, Nat.add_comm]
  | @block ds k hc hcs hk hline =>
      subst hc hcs
      have hfront := commentLength?_front hk (d :: os)
      rw [List.drop_succ_cons] at hd
      have hlength : k = (ds.take k).length := by
        rw [List.length_take, Nat.min_eq_left]
        refine Nat.le_of_not_lt fun hlt => ?_
        rw [List.drop_eq_nil_of_le (Nat.le_of_lt hlt)] at hd
        exact absurd hd (by simp only [reduceCtorEq, not_false_eq_true])
      rw [List.take_succ_cons, List.cons_append, lexeme_comment_closed hfront,
        List.take_append_of_le_length (Nat.le_of_eq hlength), List.take_take, Nat.min_self,
        List.contains_eq_mem, decide_eq_false hline]
      rfl
  | blanks hspace => rw [lexeme_isSpace hspace, hwhile _ _ _ hd]

-- What follows a name goes on with it only at a point that no name follows.
theorem not_continuesName_drop (cs : List Char) :
    ∀ c ∈ (cs.drop (nameLength cs)).head?, continuesName c = false := by
  induction cs using nameLength_induction with
  | ended cs hzero =>
      intro c hc
      rw [hzero, List.drop_zero] at hc
      obtain ⟨ds, rfl⟩ := List.head?_eq_some_iff.mp hc
      rw [Bool.eq_false_iff]
      intro hcontinues
      rw [nameLength_cons ds hcontinues] at hzero
      exact Nat.succ_ne_zero _ hzero
  | continues c cs hc ih => rwa [nameLength_cons cs hc, List.drop_succ_cons]
  | point d ds hd ih => rwa [nameLength_point ds hd, List.drop_succ_cons, List.drop_succ_cons]

theorem lexeme_name_inv {c : Char} {cs : List Char} {n : Nat}
    (h : lexeme c cs = (.token .name, n)) : startsName c = true ∧ n = nameLength cs := by
  cases found_of_lexeme h with
  | name hc => exact ⟨hc, rfl⟩

theorem lexeme_opening_inv {c : Char} {cs : List Char} {n : Nat}
    (h : lexeme c cs = (.token .opening, n)) : c = '\x7b' ∧ n = 0 := by
  cases found_of_lexeme h with
  | opening hc => exact ⟨hc, rfl⟩

/-- The tokens are those of some text. -/
def Scanned (ts : List Token) : Prop :=
  ∃ cs, (scan cs).tokens = ts

-- The first token, and what was skipped to get to it.
theorem scanFrom_cons {gap cs : List Char} {t : Token} {ts : List Token}
    (h : (scanFrom gap cs).tokens = t :: ts) :
    ∃ skipped c ds n, cs = skipped ++ c :: ds ∧ lexeme c ds = (.token t.kind, n) ∧
      t.gap = gap ++ skipped ∧ t.body = c :: ds.take n ∧ ts = (scan (ds.drop n)).tokens ∧
      (∀ d ∈ skipped.head?, d = '/' ∨ isSpace d = true) ∧
      ∀ os before,
        scanFrom before (skipped ++ c :: os) = scanFrom (before ++ skipped) (c :: os) := by
  induction gap, cs using scanFrom_induction with
  | nil gap =>
      rw [scanFrom] at h
      exact absurd h (List.cons_ne_nil t ts).symm
  | token gap c cs kind n hlexeme =>
      rw [scanFrom, hlexeme] at h
      simp only [List.cons.injEq] at h
      obtain ⟨rfl, rfl⟩ := h
      refine ⟨[], c, cs, n, rfl, hlexeme, by rw [List.append_nil], rfl, rfl,
        fun d hd => ?_, fun os before => ?_⟩
      · exact absurd hd (by simp only [List.head?_nil, Option.mem_def, reduceCtorEq,
          not_false_eq_true])
      · rw [List.nil_append, List.append_nil]
  | skipped gap c cs n hlexeme ih =>
      rw [scanFrom, hlexeme] at h
      rcases ih h with ⟨skipped, d, ds, k, hcs, hd, hgap, hbody, hts, -, hagain⟩
      have hsplit : c :: cs = (c :: cs.take n ++ skipped) ++ d :: ds := by
        rw [List.append_assoc, ← hcs, List.cons_append, List.take_append_drop]
      refine ⟨c :: cs.take n ++ skipped, d, ds, k, hsplit, hd, ?_, hbody, hts,
        fun e he => ?_, fun os before => ?_⟩
      · rw [hgap, List.append_assoc]
      · rw [List.cons_append, List.head?_cons, Option.mem_some_iff] at he
        subst he
        cases found_of_lexeme hlexeme with
        | line hc => exact .inl hc
        | block hc => exact .inl hc
        | blanks hc => exact .inr hc
      · -- The skipped text ends at a character that is the same in front of others.
        have hskipped : lexeme c (cs.take n ++ (skipped ++ d :: os))
            = (.skipped, (cs.take n).length) := by
          have hlength : (cs.take n).length = n := by
            have hle := lexeme_length_le c cs
            rw [hlexeme] at hle
            rw [List.length_take, Nat.min_eq_left hle]
          rw [hlength]
          cases skipped with
          | nil => exact lexeme_skipped_front hlexeme hcs os
          | cons e es => exact lexeme_skipped_front hlexeme hcs (es ++ d :: os)
        rw [List.append_assoc, scanFrom_skipped before hskipped, hagain, List.append_assoc]

theorem Scanned.tail {t : Token} {ts : List Token} (h : Scanned (t :: ts)) : Scanned ts := by
  rcases h with ⟨cs, hcs⟩
  rcases scanFrom_cons hcs with ⟨_, _, ds, n, _, _, _, _, hts, _, _⟩
  exact ⟨ds.drop n, hts.symm⟩

theorem Scanned.drop {ts : List Token} (h : Scanned ts) (n : Nat) : Scanned (ts.drop n) := by
  induction n generalizing ts with
  | zero => exact h
  | succ n ih =>
      cases ts with
      | nil => exact h
      | cons t ts => exact ih h.tail

/-- Names are names by themselves. -/
theorem Scanned.name {t : Token} {ts : List Token} (h : Scanned (t :: ts))
    (hkind : t.kind = .name) :
    isName t.body = true := by
  rcases h with ⟨cs, hcs⟩
  rcases scanFrom_cons hcs with ⟨_, c, ds, n, _, hlexeme, _, hbody, _, _, _⟩
  rw [hkind] at hlexeme
  rcases lexeme_name_inv hlexeme with ⟨hstart, rfl⟩
  rw [hbody, isName, hstart, nameLength_take, List.length_take, Nat.min_eq_left (nameLength_le ds),
    beq_self_eq_true]
  rfl

theorem Scanned.names {ts : List Token} (h : Scanned ts) :
    ∀ t ∈ ts, t.kind = .name → isName t.body = true := by
  induction ts with
  | nil => exact fun t ht => absurd ht List.not_mem_nil
  | cons u ts ih =>
      intro t ht hkind
      rcases List.mem_cons.mp ht with rfl | ht
      · exact h.name hkind
      · exact ih h.tail t ht hkind

-- A name and a brace behind it are found again in front of any text.
theorem Scanned.opens {t u : Token} {ts : List Token} (h : Scanned (t :: u :: ts))
    (hname : t.kind = .name) (hopening : u.kind = .opening) (os : List Char) :
    u.body = ['\x7b'] ∧ scan (t.body ++ (u.gap ++ '\x7b' :: os))
      = (scan os).after [⟨.name, [], t.body⟩, ⟨.opening, u.gap, ['\x7b']⟩] := by
  have hbody := h.name hname
  rcases h with ⟨cs, hcs⟩
  rcases scanFrom_cons hcs with ⟨_, c, ds, n, _, hlexeme, _, hname', hrest, _, _⟩
  rw [hname] at hlexeme
  rcases lexeme_name_inv hlexeme with ⟨-, rfl⟩
  rcases scanFrom_cons hrest.symm with
    ⟨gap, d, es, m, hdrop, hbrace, hgap, hopen, -, hfirst, hagain⟩
  rw [hopening] at hbrace
  rcases lexeme_opening_inv hbrace with ⟨rfl, rfl⟩
  rw [List.nil_append] at hgap
  have hends : endsName (u.gap ++ '\x7b' :: os) := by
    intro e he
    cases hskipped : u.gap with
    | nil =>
        rw [hskipped, List.nil_append, List.head?_cons, Option.mem_some_iff] at he
        rw [← he]
        decide
    | cons f fs =>
        rw [hskipped, List.cons_append, List.head?_cons, Option.mem_some_iff] at he
        subst he
        rw [← hgap, hskipped] at hdrop
        have hstops := not_continuesName_drop ds f (by
          rw [hdrop, List.cons_append, List.head?_cons, Option.mem_some_iff])
        refine ⟨hstops, ?_⟩
        rintro rfl
        rcases hfirst '.'
          (by rw [← hgap, hskipped, List.head?_cons, Option.mem_some_iff]) with h | h
        · exact absurd h (by decide)
        · exact absurd h (by decide)
  refine ⟨hopen, ?_⟩
  rw [scan_name hbody hends, scan, hgap, hagain, List.nil_append]
  have htoken := @scanFrom_token .opening '\x7b' [] os gap (lexeme_mark _ rfl)
  rw [List.cons_append, List.nil_append] at htoken
  rw [htoken, Scan.after_after]
  rfl

theorem trimEnd_append_of_trimmed {as : List Char} (h : Text.trimEnd as = as) (bs : List Char) :
    Text.trimEnd (as ++ bs) = as ++ Text.trimEnd bs := by
  rw [Text.trimEnd, ← List.reverse_inj, List.reverse_reverse] at h
  rw [Text.trimEnd, Text.trimEnd, List.reverse_append, List.dropWhile_append]
  by_cases hempty : (bs.reverse.dropWhile Text.isBlank).isEmpty = true
  · rw [if_pos hempty, h, List.isEmpty_iff.mp hempty, List.reverse_reverse, List.reverse_nil,
      List.append_nil]
  · rw [if_neg hempty, List.reverse_append, List.reverse_reverse]

/-- Trimming the text of an object leaves alone what it starts with. -/
theorem Scanned.trim_object {t u : Token} {ts : List Token} (h : Scanned (t :: u :: ts))
    (hname : t.kind = .name) (hopening : u.kind = .opening) (us : List Token) :
    Text.trim (covered (t :: u :: us))
      = t.body ++ (u.gap ++ '\x7b' :: Text.trimEnd (withGaps us)) := by
  have hfront : Text.trimEnd (t.body ++ (u.gap ++ ['\x7b'])) = t.body ++ (u.gap ++ ['\x7b']) := by
    rw [← List.append_assoc, Text.trimEnd_eq_self_iff, List.getLast?_concat]
    intro c hc
    rw [← Option.mem_some_iff.mp hc]
    decide
  have hstart : ∀ os, Text.trimStart (t.body ++ os) = t.body ++ os := by
    intro os
    cases hbody : t.body with
    | nil =>
        have hnamed := h.name hname
        rw [hbody] at hnamed
        exact absurd hnamed (by decide)
    | cons c cs =>
        have hblank := not_isBlank_of_isName (h.name hname) (c := c) (by
          rw [hbody]
          exact List.mem_cons_self)
        rw [List.cons_append, Text.trimStart, List.dropWhile_cons,
          if_neg (by rw [hblank]; decide)]
  have hcovered : covered (t :: u :: us) = t.body ++ (u.gap ++ ['\x7b']) ++ withGaps us := by
    rw [covered, withGaps_cons, (h.opens hname hopening []).1, List.append_assoc t.body]
  rw [hcovered, Text.trim, List.append_assoc, hstart, ← List.append_assoc,
    trimEnd_append_of_trimmed hfront]
  simp only [List.append_assoc, List.singleton_append]

/-- The text of an object starts like the object. -/
theorem Scanned.objectText {t u : Token} {ts : List Token} (h : Scanned (t :: u :: ts))
    (hcapital : t.isCapital = true) (hopening : u.kind = .opening) {rest : List Token}
    (hrest : rest.length ≤ ts.length) :
    startsPlain (scan (Reading.objectText (t :: u :: ts) rest).toList).tokens = false := by
  have hname : t.kind = .name := by
    rw [Token.isCapital, Bool.and_eq_true, beq_iff_eq] at hcapital
    exact hcapital.1
  have htake : (t :: u :: ts).take ((t :: u :: ts).length - rest.length)
      = t :: u :: ts.take (ts.length - rest.length) := by
    rw [List.length_cons, List.length_cons,
      show ts.length + 1 + 1 - rest.length = ts.length - rest.length + 1 + 1 by omega,
      List.take_succ_cons, List.take_succ_cons]
  rw [Reading.objectText, String.toList_ofList, htake, h.trim_object hname hopening,
    (h.opens hname hopening _).2, Scan.after]
  have hcap : Token.isCapital ⟨.name, [], t.body⟩ = true := by
    rw [Token.isCapital, hname] at hcapital
    exact hcapital
  simp only [List.cons_append, startsPlain, hcap, starts, beq_self_eq_true, Bool.and_self,
    Bool.not_true, Bool.and_false]

end Markup

end WidgetSync
