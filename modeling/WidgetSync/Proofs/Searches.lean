import Mathlib.Data.List.TakeWhile
import WidgetSync.Proofs.Lexing

/-!
# Where Comments and Quoted Texts End

The searches for the end of a comment and for a closing quote, without the counting.

Both searches go through a text and count on the way. A count to start with is only added to the
result (`commentLength?_shift`, `quotedLength?_shift`), so it may be nothing. What is found without
it can be said of the characters: a comment goes to the first star with a slash behind it, and a
text in quotes to the first quote that no backslash covers. How long a result can be, and that the
search does not see what follows its end, are then facts about lists.

## Main definitions

* `Quotable`: The text can stand between two quotes.

## Theorems

* `commentLength?_eq_some_iff`, `commentLength?_eq_none_iff`: Where a comment ends, and when it does
  not.
* `commentLength?_closed`, `commentLength?_front`, `commentLength?_inside`: The end is found in
  front of any text.
* `commentLength?_open`: A text behind an open comment that does not close it.
* `quotedLength?_eq_some_iff`: Where a text in quotes ends.
-/

namespace WidgetSync

namespace Markup

theorem drop_takeWhile {α : Type} (p : α → Bool) (cs : List α) :
    cs.drop (cs.takeWhile p).length = cs.dropWhile p := by
  induction cs with
  | nil => rfl
  | cons c cs ih =>
      by_cases hc : p c = true
      · rw [List.takeWhile_cons, if_pos hc, List.dropWhile_cons, if_pos hc, List.length_cons,
          List.drop_succ_cons, ih]
      · rw [List.takeWhile_cons, if_neg hc, List.dropWhile_cons, if_neg hc, List.length_nil,
          List.drop_zero]

theorem take_takeWhile {α : Type} (p : α → Bool) (cs : List α) :
    cs.take (cs.takeWhile p).length = cs.takeWhile p :=
  (List.prefix_iff_eq_take.mp (List.takeWhile_prefix p)).symm

theorem length_takeWhile_le (p : Char → Bool) (cs : List Char) :
    (cs.takeWhile p).length ≤ cs.length :=
  (List.takeWhile_prefix p).length_le

/-! ### Comments -/

theorem commentLength?_nil (n : Nat) : commentLength? n [] = none :=
  rfl

theorem commentLength?_ends (n : Nat) (cs : List Char) :
    commentLength? n ('*' :: '/' :: cs) = some (n + 2) :=
  rfl

theorem commentLength?_cons_succ {c : Char} {cs : List Char} (n : Nat)
    (h : ¬(c = '*' ∧ cs.head? = some '/')) :
    commentLength? n (c :: cs) = commentLength? (n + 1) cs := by
  rw [commentLength?.eq_def]
  split
  · rename_i heq
    obtain ⟨rfl, rfl⟩ := List.cons.inj heq
    exact absurd ⟨rfl, rfl⟩ h
  · rename_i heq
    obtain ⟨rfl, rfl⟩ := List.cons.inj heq
    rfl
  · rename_i heq
    exact absurd heq (by simp only [reduceCtorEq, not_false_eq_true])

theorem commentLength?_shift (n : Nat) (cs : List Char) :
    commentLength? n cs = (commentLength? 0 cs).map (· + n) := by
  induction cs generalizing n with
  | nil => rfl
  | cons c cs ih =>
      by_cases hends : c = '*' ∧ cs.head? = some '/'
      · obtain ⟨rfl, hslash⟩ := hends
        obtain ⟨rest, rfl⟩ := List.head?_eq_some_iff.mp hslash
        rw [commentLength?_ends, commentLength?_ends, Option.map_some, Option.some.injEq]
        omega
      · rw [commentLength?_cons_succ n hends, commentLength?_cons_succ 0 hends, ih (n + 1),
          ih (0 + 1), Option.map_map]
        congr 1
        funext k
        rw [Function.comp_apply]
        omega

theorem commentLength?_cons {c : Char} {cs : List Char} (h : ¬(c = '*' ∧ cs.head? = some '/')) :
    commentLength? 0 (c :: cs) = (commentLength? 0 cs).map (· + 1) := by
  rw [commentLength?_cons_succ 0 h, commentLength?_shift]

theorem end_prefix_iff {c : Char} {cs : List Char} :
    ['*', '/'] <+: c :: cs ↔ c = '*' ∧ cs.head? = some '/' := by
  constructor
  · rintro ⟨rest, heq⟩
    obtain ⟨hc, hcs⟩ := List.cons.inj heq
    exact ⟨hc.symm, by rw [← hcs]; rfl⟩
  · rintro ⟨rfl, hslash⟩
    obtain ⟨rest, rfl⟩ := List.head?_eq_some_iff.mp hslash
    exact ⟨rest, rfl⟩

/-- A comment goes to the first star with a slash behind it. -/
theorem commentLength?_eq_some_iff {cs : List Char} {n : Nat} : commentLength? 0 cs = some n ↔
    ∃ text rest, cs = text ++ '*' :: '/' :: rest ∧ n = text.length + 2 ∧
      ¬['*', '/'] <:+: text ++ ['*'] := by
  induction cs generalizing n with
  | nil =>
      rw [commentLength?_nil]
      refine iff_of_false (Option.some_ne_none n).symm ?_
      rintro ⟨text, rest, heq, -⟩
      exact List.append_ne_nil_of_right_ne_nil text (List.cons_ne_nil _ _) heq.symm
  | cons c cs ih =>
      by_cases hends : c = '*' ∧ cs.head? = some '/'
      · obtain ⟨rfl, hslash⟩ := hends
        obtain ⟨rest, rfl⟩ := List.head?_eq_some_iff.mp hslash
        refine ⟨fun h => ⟨[], rest, rfl, (Option.some.inj h).symm, by decide⟩, ?_⟩
        rintro ⟨text, others, heq, rfl, hopen⟩
        -- A longer comment would have the end of this one in it.
        rcases text with _ | ⟨d, _ | ⟨e, text⟩⟩
        · rfl
        · exact absurd (List.cons.inj (List.cons.inj heq).2).1 (by decide)
        · have hd := (List.cons.inj heq).1
          have he := (List.cons.inj (List.cons.inj heq).2).1
          subst hd he
          exact absurd ⟨[], text ++ ['*'], rfl⟩ hopen
      · rw [commentLength?_cons hends, Option.map_eq_some_iff]
        constructor
        · rintro ⟨m, hm, rfl⟩
          obtain ⟨text, rest, rfl, rfl, hopen⟩ := ih.mp hm
          refine ⟨c :: text, rest, rfl, by rw [List.length_cons], ?_⟩
          rw [List.cons_append, List.infix_cons_iff, end_prefix_iff, not_or]
          refine ⟨fun h => hends ⟨h.1, ?_⟩, hopen⟩
          cases text with
          | nil => exact absurd h.2 (by decide)
          | cons d text => exact h.2
        · rintro ⟨text, rest, heq, rfl, hopen⟩
          cases text with
          | nil =>
              obtain ⟨rfl, rfl⟩ := List.cons.inj heq
              exact absurd ⟨rfl, rfl⟩ hends
          | cons d text =>
              obtain ⟨rfl, rfl⟩ := List.cons.inj heq
              rw [List.cons_append, List.infix_cons_iff, not_or] at hopen
              exact ⟨_, ih.mpr ⟨text, rest, rfl, rfl, hopen.2⟩, by rw [List.length_cons]⟩

/-- A comment does not end where no star has a slash behind it. -/
theorem commentLength?_eq_none_iff {cs : List Char} :
    commentLength? 0 cs = none ↔ ¬['*', '/'] <:+: cs := by
  induction cs with
  | nil => exact iff_of_true rfl (by decide)
  | cons c cs ih =>
      rw [List.infix_cons_iff, end_prefix_iff, not_or, ← ih]
      by_cases hends : c = '*' ∧ cs.head? = some '/'
      · obtain ⟨rfl, hslash⟩ := hends
        obtain ⟨rest, rfl⟩ := List.head?_eq_some_iff.mp hslash
        rw [commentLength?_ends]
        exact iff_of_false (Option.some_ne_none 2) fun hopen => hopen.1 ⟨rfl, rfl⟩
      · rw [commentLength?_cons hends, Option.map_eq_none_iff]
        exact (and_iff_right hends).symm

theorem commentLength?_closed {cs : List Char} {n m : Nat} (rest : List Char)
    (h : commentLength? n cs = some m) : commentLength? n (cs ++ rest) = some m := by
  rw [commentLength?_shift] at h ⊢
  obtain ⟨k, hk, rfl⟩ := Option.map_eq_some_iff.mp h
  obtain ⟨text, others, rfl, rfl, hopen⟩ := commentLength?_eq_some_iff.mp hk
  rw [List.append_assoc, List.cons_append, List.cons_append,
    commentLength?_eq_some_iff.mpr ⟨text, others ++ rest, rfl, rfl, hopen⟩, Option.map_some]

theorem commentLength?_le {cs : List Char} {n m : Nat} (h : commentLength? n cs = some m) :
    m ≤ n + cs.length := by
  rw [commentLength?_shift] at h
  obtain ⟨k, hk, rfl⟩ := Option.map_eq_some_iff.mp h
  obtain ⟨text, rest, rfl, rfl, -⟩ := commentLength?_eq_some_iff.mp hk
  simp only [List.length_append, List.length_cons]
  omega

-- The end of a comment is found in front of any text.
theorem commentLength?_front {cs : List Char} {m : Nat} (h : commentLength? 0 cs = some m)
    (os : List Char) : commentLength? 0 (cs.take m ++ os) = some m := by
  obtain ⟨text, rest, rfl, rfl, hopen⟩ := commentLength?_eq_some_iff.mp h
  refine commentLength?_eq_some_iff.mpr ⟨text, os, ?_, rfl, hopen⟩
  rw [List.take_length_add_append, List.append_assoc]
  rfl

theorem commentLength?_inside {as bs : List Char} {m : Nat}
    (h : commentLength? 0 (as ++ bs) = some m) (hm : m ≤ as.length) :
    commentLength? 0 as = some m := by
  obtain ⟨text, rest, heq, rfl, hopen⟩ := commentLength?_eq_some_iff.mp h
  have hprefix : text ++ ['*', '/'] <+: as := by
    refine List.prefix_of_prefix_length_le ⟨rest, ?_⟩ (List.prefix_append as bs) ?_
    · rw [heq, List.append_assoc]
      rfl
    · rw [List.length_append]
      exact hm
  obtain ⟨others, rfl⟩ := hprefix
  exact commentLength?_eq_some_iff.mpr ⟨text, others, List.append_assoc .., rfl, hopen⟩

theorem commentLength?_behind {as bs : List Char} (h : commentLength? 0 (as ++ bs) = none) :
    commentLength? 0 bs = none :=
  commentLength?_eq_none_iff.mpr fun hends =>
    commentLength?_eq_none_iff.mp h (List.infix_append_of_infix_right hends)

theorem commentLength?_open {as bs : List Char} (has : commentLength? 0 as = none)
    (hbs : commentLength? 0 bs = none) (hhead : bs.head? ≠ some '/') :
    commentLength? 0 (as ++ bs) = none := by
  rw [commentLength?_eq_none_iff] at has hbs ⊢
  induction as with
  | nil => exact hbs
  | cons c as ih =>
      rw [List.infix_cons_iff, end_prefix_iff, not_or] at has
      rw [List.cons_append, List.infix_cons_iff, end_prefix_iff, not_or]
      refine ⟨fun hends => ?_, ih has.2⟩
      -- The slash of an end would have to be the first character behind.
      cases as with
      | nil => exact hhead hends.2
      | cons d as => exact has.1 hends

/-! ### Texts in quotes -/

theorem quotedLength?_shift (quote : Char) (n : Nat) (cs : List Char) :
    quotedLength? quote n cs = (quotedLength? quote 0 cs).map (· + n) := by
  have hshift : ∀ (m k : Nat) (found : Option Nat),
      found.map (· + (m + k)) = (found.map (· + (0 + k))).map (· + m) := by
    intro m k found
    rw [Option.map_map]
    congr 1
    funext j
    rw [Function.comp_apply]
    omega
  induction cs using quoted_induction generalizing n with
  | nil => rfl
  | backslash => rfl
  | pair d ds ih =>
      rw [quotedLength?_backslash, quotedLength?_backslash, ih (n + 2), ih (0 + 2), hshift]
  | char c cs hback ih =>
      rw [quotedLength?_cons _ _ hback, quotedLength?_cons _ _ hback]
      by_cases hquote : c = quote
      · rw [if_pos hquote, if_pos hquote, Option.map_some, Option.some.injEq]
        omega
      · rw [if_neg hquote, if_neg hquote]
        by_cases hline : c = '\n'
        · rw [if_pos hline, if_pos hline, Option.map_none]
        · rw [if_neg hline, if_neg hline, ih (n + 1), ih (0 + 1), hshift]

/-- The text can stand between two quotes: a backslash covers the next character, and what is not
    covered is neither a quote nor a line feed. -/
inductive Quotable (quote : Char) : List Char → Prop where
  /-- Nothing. -/
  | nil : Quotable quote []
  /-- A character behind a backslash. -/
  | covered (c : Char) {cs : List Char} (h : Quotable quote cs) : Quotable quote ('\\' :: c :: cs)
  /-- A character by itself. -/
  | bare {c : Char} {cs : List Char} (hback : c ≠ '\\') (hquote : c ≠ quote) (hline : c ≠ '\n')
      (h : Quotable quote cs) : Quotable quote (c :: cs)

theorem quotable_of_quotedLength? {quote : Char} {cs : List Char} {n m : Nat}
    (h : quotedLength? quote n cs = some m) : ∃ text rest,
      cs = text ++ quote :: rest ∧ m = n + text.length + 1 ∧ Quotable quote text := by
  fun_induction quotedLength? quote n cs with
  | case1 => exact absurd h (by simp only [reduceCtorEq, not_false_eq_true])
  | case2 n c cs ih =>
      obtain ⟨text, rest, rfl, rfl, htext⟩ := ih h
      refine ⟨'\\' :: c :: text, rest, rfl, ?_, htext.covered c⟩
      simp only [List.length_cons]
      omega
  | case3 => exact absurd h (by simp only [reduceCtorEq, not_false_eq_true])
  | case4 n cs _ => exact ⟨[], cs, rfl, (Option.some.inj h).symm, .nil⟩
  | case5 => exact absurd h (by simp only [reduceCtorEq, not_false_eq_true])
  | case6 n c cs hback hend hline ih =>
      obtain ⟨text, rest, rfl, rfl, htext⟩ := ih h
      refine ⟨c :: text, rest, rfl, ?_, htext.bare hback hend hline⟩
      rw [List.length_cons]
      omega

/-- A text in quotes goes to the first quote that no backslash covers. -/
theorem quotedLength?_eq_some_iff {quote : Char} (hquote : quote ≠ '\\') {cs : List Char}
    {n : Nat} : quotedLength? quote 0 cs = some n ↔
      ∃ text rest, cs = text ++ quote :: rest ∧ n = text.length + 1 ∧ Quotable quote text := by
  constructor
  · intro h
    simpa only [Nat.zero_add] using quotable_of_quotedLength? h
  · rintro ⟨text, rest, rfl, rfl, htext⟩
    induction htext with
    | nil => rw [List.nil_append, quotedLength?_cons _ _ hquote, if_pos rfl, List.length_nil]
    | covered c h ih =>
        rw [List.cons_append, List.cons_append, quotedLength?_backslash, quotedLength?_shift, ih]
        rfl
    | bare hback hend hline h ih =>
        rw [List.cons_append, quotedLength?_cons _ _ hback, if_neg hend, if_neg hline,
          quotedLength?_shift, ih]
        rfl

theorem quotedLength?_le {quote : Char} {cs : List Char} {n m : Nat}
    (h : quotedLength? quote n cs = some m) : m ≤ n + cs.length := by
  obtain ⟨text, rest, rfl, rfl, -⟩ := quotable_of_quotedLength? h
  rw [List.length_append, List.length_cons]
  omega

theorem quotedLength?_pos {quote : Char} {cs : List Char} {m : Nat}
    (h : quotedLength? quote 0 cs = some m) : 0 < m := by
  obtain ⟨text, rest, rfl, rfl, -⟩ := quotable_of_quotedLength? h
  omega

end Markup

end WidgetSync
