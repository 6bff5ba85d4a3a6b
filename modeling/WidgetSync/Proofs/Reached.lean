import WidgetSync.Proofs.Borders
import WidgetSync.Proofs.Seams

/-!
# The Way to a Statement

The reader gets to the same statement in a text that goes on differently.

A statement of a text is met with what was read before it. In another text with the same front the
reader meets the place where the texts part with the same, apart from the tokens that objects keep,
and it does not matter what stands behind. This is `step_alike` along the way to the place. At the
end of a text there is no next statement, and then the question is where a run with more tokens
behind the text comes to.

## Main definitions

* `Reading.Reaches`: The reader gets to a place in the text.

## Theorems

* `Reading.mem_statements_iff`: The reader meets the statements that it gets to.
* `Reading.Reaches.alike`: The reader gets to the same place in front of other tokens.
* `Reading.outcome_behind`: What is put behind a text makes no difference.
-/

namespace WidgetSync

namespace Markup

namespace Reading

/-- The reader gets to a place in the text, with what it has read by then. -/
inductive Reaches (tail : List Char) : Reading → List Token → Reading → List Token → Prop where
  | here (r : Reading) (ts : List Token) : Reaches tail r ts r ts
  | step {r s q : Reading} {t : Token} {ts us : List Token} {used : Nat} {remarks : List Remark}
      (hstep : r.step tail t ts = .next s used remarks)
      (hrest : Reaches tail s (ts.drop used) q us) : Reaches tail r (t :: ts) q us

variable {tail : List Char} {r s q : Reading} {ts us vs : List Token} {k : Nat}

theorem Reaches.length_le (h : Reaches tail r ts q us) : us.length ≤ ts.length := by
  induction h with
  | here => exact Nat.le_refl _
  | step hstep hrest ih =>
      rw [List.length_drop] at ih
      rw [List.length_cons]
      omega

theorem Reaches.suffix (h : Reaches tail r ts q us) : ∃ before, ts = before ++ us := by
  induction h with
  | here => exact ⟨[], rfl⟩
  | @step r s q t ts us used remarks hstep hrest ih =>
      obtain ⟨before, hbefore⟩ := ih
      refine ⟨t :: ts.take used ++ before, ?_⟩
      rw [List.append_assoc, ← hbefore, List.cons_append, List.take_append_drop]

/-- The reader gets nowhere without taking a token. -/
theorem Reaches.eq_of_length (h : Reaches tail r ts q us) (hlength : ts.length ≤ us.length) :
    r = q ∧ ts = us := by
  cases h with
  | here => exact ⟨rfl, rfl⟩
  | step hstep hrest =>
      have hle := hrest.length_le
      rw [List.length_drop] at hle
      rw [List.length_cons] at hlength
      omega

theorem Reaches.trans {p : Reading} {ws : List Token} (h : Reaches tail r ts s us)
    (hrest : Reaches tail s us p ws) : Reaches tail r ts p ws := by
  induction h with
  | here => exact hrest
  | step hstep _ ih => exact .step hstep (ih hrest)

theorem Reaches.outcome (h : Reaches tail r ts q us) :
    r.outcome tail ts = q.outcome tail us := by
  induction h with
  | here => rfl
  | step hstep _ ih => rw [outcome_next hstep, ih]

/-- The reader meets a statement where it gets to one. -/
theorem mem_statements_iff {st : Statement} :
    st ∈ r.statements tail ts ↔ Reaches tail r ts st.before (st.first :: st.rest) := by
  induction r, ts using run_induction tail with
  | finished r =>
      rw [statements]
      refine ⟨fun h => absurd h List.not_mem_nil, fun h => ?_⟩
      exact absurd h.length_le (Nat.not_succ_le_zero _)
  | stopped r t ts s hstop =>
      rw [statements, hstop, List.mem_singleton]
      constructor
      · rintro rfl
        exact .here r _
      · intro hreaches
        cases hreaches with
        | here => rfl
        | step hstep _ =>
            rw [hstop] at hstep
            exact absurd hstep Step.noConfusion
  | next r t ts s used remarks hnext ih =>
      rw [statements, hnext, List.mem_cons, ih]
      constructor
      · rintro (rfl | hrest)
        · exact .here r _
        · exact .step hnext hrest
      · intro hreaches
        cases hreaches with
        | here => exact .inl rfl
        | step hstep hrest =>
            rw [hnext] at hstep
            obtain ⟨rfl, rfl, -⟩ := Step.next.inj hstep
            exact .inr hrest

/-- Where the reader gets to, it gets to in front of other tokens. -/
theorem Reaches.alike (hseam : Seam us vs k) (hne : us ≠ []) (others : List Char)
    (h : Reaches tail (r.extended us) (ts ++ us) q us) :
    ∃ (p : Reading) (j : Nat), j ≤ k ∧ q = p.extended us ∧
      Reaches others (r.extended vs) (ts ++ vs) (p.extended vs) (vs.drop j) := by
  induction hn : ts.length using Nat.strongRecOn generalizing r ts with
  | _ n ih =>
      cases ts with
      | nil =>
          obtain ⟨rfl, -⟩ := h.eq_of_length (Nat.le_refl _)
          exact ⟨r, 0, Nat.zero_le k, rfl, .here _ _⟩
      | cons t ts =>
          rw [List.cons_append] at h ⊢
          rw [List.length_cons] at hn
          generalize hstart : t :: (ts ++ us) = start at h
          cases h with
          | here =>
              have hlength := congrArg List.length hstart
              rw [List.length_cons, List.length_append] at hlength
              omega
          | step hstep hrest =>
              obtain ⟨rfl, rfl⟩ := List.cons.inj hstart
              -- What is left reaches back to the place, so the step ends before it.
              have hle := hrest.length_le
              have hpos := List.length_pos_iff.mpr hne
              rw [List.length_drop, List.length_append] at hle
              have halike := step_alike hseam tail others t
                (fun _ => by rw [hstep, Step.Within]; omega) (fun hus => absurd hus hne)
              rw [hstep] at halike
              generalize hover : (r.extended vs).step others t (ts ++ vs) = step at halike
              cases halike with
              | next s remarks others hused =>
                  rw [List.drop_append_of_le_length hused] at hrest
                  obtain ⟨p, j, hj, hq, hreaches⟩ :=
                    ih _ (by rw [List.length_drop]; omega) hrest rfl
                  refine ⟨p, j, hj, hq, .step hover ?_⟩
                  rw [List.drop_append_of_le_length hused]
                  exact hreaches
              | passed s remarks others hused hfurther hj =>
                  rw [Nat.le_antisymm (by omega) hused, List.drop_left] at hrest
                  obtain ⟨rfl, -⟩ := hrest.eq_of_length (Nat.le_refl _)
                  refine ⟨s, _, hj.resolve_left hne, rfl, .step hover ?_⟩
                  rw [hfurther, List.drop_length_add_append]
                  exact .here _ _

/-- If no value is left open, what is put behind a text makes no difference to the statements in
    it. Behind them, it has to do what the end of the text does. -/
theorem outcome_behind (hvalue : valueEnds vs = true) (others : List Char)
    (hvalues : ∀ st ∈ r.statements tail ts, st.unclosed = false)
    (hend : (r.run tail ts).stopped = false → ∀ j,
      ((r.last tail ts).extended vs).outcome others (vs.drop j)
        = ((r.last tail ts).closeAll false, false)) :
    (r.extended vs).outcome others (ts ++ vs) = r.outcome tail ts := by
  have hseam : Seam [] vs vs.length :=
    ⟨fun _ => hvalue, fun _ => (List.takeWhile_prefix _).length_le⟩
  have hbehind : ∀ {r t ts}, (⟨r, t, ts⟩ : Statement).unclosed = false →
      Step.Alike [] vs vs.length ts (r.step tail t ts)
        ((r.extended vs).step others t (ts ++ vs)) := by
    intro r t ts hclosed
    have halike := step_alike (r := r) hseam tail others t (fun hne => absurd rfl hne)
      fun _ => hclosed
    rwa [extended_nil, List.append_nil] at halike
  induction r, ts using run_induction tail with
  | finished r =>
      rw [run, last] at hend
      have hend := hend rfl 0
      rwa [List.drop_zero, ← outcome_nil r tail] at hend
  | stopped r t ts s hstop =>
      rw [statements] at hvalues
      have halike := hbehind (hvalues _ List.mem_cons_self)
      rw [hstop] at halike
      rw [List.cons_append]
      generalize hover : (r.extended vs).step others t (ts ++ vs) = step at halike
      cases halike with
      | stop s =>
          rw [outcome_stop hover, outcome_stop hstop, extended_nil, extended_eq, closeAll_stopped]
  | next r t ts s used remarks hnext ih =>
      rw [statements, hnext] at hvalues
      rw [run, last, hnext] at hend
      have hend : (s.run tail (ts.drop used)).stopped = false → ∀ j,
          ((s.last tail (ts.drop used)).extended vs).outcome others (vs.drop j)
            = ((s.last tail (ts.drop used)).closeAll false, false) := hend
      have halike := hbehind (hvalues _ List.mem_cons_self)
      rw [hnext] at halike
      rw [List.cons_append, outcome_next hnext]
      generalize hover : (r.extended vs).step others t (ts ++ vs) = step at halike
      cases halike with
      | next s _ _ hused =>
          rw [extended_nil] at hvalues hend ih ⊢
          rw [outcome_next hover, List.drop_append_of_le_length hused]
          exact ih (fun st hst => hvalues st (List.mem_cons_of_mem _ hst)) hend
      | passed s _ _ hused hfurther =>
          -- The tokens are used up.
          rw [extended_nil, List.drop_eq_nil_of_le hused] at hend ⊢
          rw [run, last] at hend
          rw [outcome_next hover, hfurther, List.drop_length_add_append, hend rfl, outcome_nil]

end Reading

-- What stands in front of a statement

/-- A value ends in front of something that ends it. -/
theorem valueEnds_drop (depth : Nat) (ts : List Token) :
    valueEnds (ts.drop (valueLength depth ts)) = true := by
  induction ts generalizing depth with
  | nil => rfl
  | cons t ts ih =>
      by_cases hends : depth = 0 ∧ t.endsValue = true
      · rw [valueLength_stop hends]
        exact hends.2
      · rw [valueLength_go hends]
        exact ih _

/-- Some tokens are taken up to where a value ends, or up to a separator. -/
def EndsStatement (ts us : List Token) : Prop :=
  valueEnds us = true ∨ ∃ u, ts.getLast? = some u ∧ u.separates = true

theorem EndsStatement.isSeparated {ts us : List Token} {t : Token}
    (h : EndsStatement ts (t :: us)) : Markup.isSeparated ts (t :: us) = true := by
  rcases h with hends | ⟨u, hlast, hseparates⟩
  · have hends : t.endsValue = true := hends
    simp [Markup.isSeparated, hends]
  · simp [Markup.isSeparated, hlast, hseparates]

namespace Reading

section Separated

variable {r s : Reading} {tail : List Char} {t : Token} {ts : List Token} {used : Nat}
  {remarks : List Remark}

theorem endsStatement_skip (h : r.skip t ts = .next s used remarks) :
    EndsStatement (t :: ts.take used) (ts.drop used) := by
  obtain ⟨-, rfl, -⟩ := Step.next.inj h
  have hends := valueEnds_drop 0 (t :: ts)
  by_cases hzero : valueLength 0 (t :: ts) = 0
  · -- Nothing is taken but the first token, and that ends a value.
    rw [hzero] at hends ⊢
    refine .inr ⟨t, rfl, ?_⟩
    have hends : t.endsValue = true := hends
    rw [Token.separates, hends, Bool.true_or]
  · obtain ⟨m, hm⟩ := Nat.exists_eq_succ_of_ne_zero hzero
    rw [hm] at hends ⊢
    exact .inl hends

theorem endsStatement_valued {key raw : String} {m : Nat} {v : Token}
    (hm : m = valueLength 0 ts + 1) (h : r.valued key raw m = .next s used remarks) :
    EndsStatement (t :: (v :: ts).take used) ((v :: ts).drop used) := by
  have hsettles := valued_settles r key raw m
  rw [h] at hsettles
  rw [hsettles.2, hm]
  exact .inl (valueEnds_drop 0 ts)

theorem endsStatement_property {key : String} {c : Token}
    (h : r.property tail key ts = .next s used remarks) :
    EndsStatement (t :: (c :: ts).take used) ((c :: ts).drop used) := by
  cases ts using value_cases with
  | missing =>
      obtain ⟨-, rfl, -⟩ := Step.next.inj h
      exact .inl rfl
  | unclosed v vs hopens hblock =>
      rw [property_open _ tail key hopens hblock] at h
      obtain ⟨-, rfl, -⟩ := Step.next.inj h
      refine .inl ?_
      rw [List.drop_eq_nil_of_le (show (c :: v :: vs).length ≤ vs.length + 2 from Nat.le_refl _)]
      rfl
  | block v vs n hopens hblock =>
      rw [property_block _ tail key hopens hblock] at h
      obtain ⟨-, rfl, -⟩ := Step.next.inj h
      -- The last token is the brace that closes the block.
      obtain ⟨u, us, hdrop, hkind⟩ := blockLength?_closing hblock
      refine .inr ⟨u, ?_, by simp [Token.separates, Token.endsValue, hkind]⟩
      have htake : vs.take (n + 1) = vs.take n ++ [u] := by
        rw [List.take_add, hdrop]
        rfl
      have hall : t :: (c :: v :: vs).take (n + 3) = t :: c :: v :: vs.take n ++ [u] := by
        rw [List.take_succ_cons, List.take_succ_cons, htake]
        rfl
      rw [hall, List.getLast?_concat]
  | object v vs hopens hobject =>
      rw [property_object _ tail key hopens hobject] at h
      obtain ⟨-, rfl, -⟩ := Step.next.inj h
      -- It is the brace that opens the object.
      cases vs with
      | nil => simp [starts] at hobject
      | cons u us =>
          have hkind : u.kind = .opening := by
            rw [Bool.and_eq_true] at hobject
            simpa [starts] using hobject.2
          exact .inr ⟨u, rfl, by simp [Token.separates, hkind]⟩
  | plain v vs hopens hobject =>
      rw [property_value _ tail key hopens hobject] at h
      exact endsStatement_valued rfl h

theorem endsStatement_declaration (h : r.declaration (t :: ts) = .next s used remarks)
    (ht : t.kind = .name) : EndsStatement (t :: ts.take used) (ts.drop used) := by
  rcases names_split (t :: ts) with hall | ⟨words, c, cs, hsplit, hwords, hc⟩
  · rw [declaration_names _ hall] at h
    obtain ⟨-, rfl, -⟩ := Step.next.inj h
    refine .inl ?_
    rw [List.length_cons, Nat.add_sub_cancel, List.drop_length]
    rfl
  · cases words with
    | nil => exact absurd ((List.cons.inj hsplit).1 ▸ ht) hc
    | cons w words =>
        rw [List.cons_append] at hsplit
        obtain ⟨rfl, rfl⟩ := List.cons.inj hsplit
        have hdrop : ∀ n, (words ++ c :: cs).drop (words.length + n) = (c :: cs).drop n := by
          intro n
          rw [List.drop_length_add_append]
        have h : (r.declaration ((t :: words) ++ c :: cs)) = .next s used remarks := h
        rw [declaration_split _ cs hwords hc] at h
        refine .inl ?_
        split at h
        · unfold declaredValue at h
          have hused : used = words.length + (valueLength 0 cs + 1) := by
            split at h
            all_goals
              obtain ⟨-, rfl, -⟩ := Step.next.inj h
              rw [List.length_cons]
              omega
          rw [hused, hdrop]
          exact valueEnds_drop 0 cs
        · obtain ⟨-, rfl, -⟩ := Step.next.inj h
          rw [List.length_cons, Nat.add_sub_cancel, hdrop]
          exact valueEnds_drop 0 (c :: cs)

/-- The line of an import ends in front of the end of the line. -/
theorem valueEnds_line (ts : List Token) :
    valueEnds (ts.drop (ts.takeWhile fun u => u.kind != .newline).length) = true := by
  rw [drop_takeWhile]
  have hhead := List.head?_dropWhile_not (fun u : Token => u.kind != .newline) ts
  cases hdrop : ts.dropWhile fun u => u.kind != .newline with
  | nil => rfl
  | cons u us =>
      rw [hdrop] at hhead
      have hkind : u.kind = .newline := by simpa using hhead
      simp [valueEnds, Token.endsValue, hkind]

/-- A token that ends values is a separator. -/
theorem endsStatement_of_kind (hkind : t.kind = .newline ∨ t.kind = .semicolon ∨ t.kind = .closing)
    (ts : List Token) : EndsStatement (t :: ts.take 0) (ts.drop 0) := by
  refine .inr ⟨t, rfl, ?_⟩
  rcases hkind with hkind | hkind | hkind
  all_goals simp [Token.separates, Token.endsValue, hkind]

/-- So is the brace that opens a block. -/
theorem endsStatement_opened (hopens : starts .opening ts = true) (t : Token) :
    EndsStatement (t :: ts.take 1) (ts.drop 1) := by
  cases ts with
  | nil => exact absurd hopens Bool.false_ne_true
  | cons u us =>
      have hkind : u.kind = .opening := by simpa [starts] using hopens
      exact .inr ⟨u, rfl, by simp [Token.separates, hkind]⟩

theorem topLevel_ends (h : r.topLevel t ts = .next s used remarks) :
    EndsStatement (t :: ts.take used) (ts.drop used) := by
  unfold topLevel at h
  split at h
  · rename_i hkind
    obtain ⟨-, rfl, -⟩ := Step.next.inj h
    exact endsStatement_of_kind (hkind.imp_right .inl) ts
  split at h
  · obtain ⟨-, rfl, -⟩ := Step.next.inj h
    exact .inl (valueEnds_line ts)
  split at h
  · rename_i hopens
    obtain ⟨-, rfl, -⟩ := Step.next.inj h
    exact endsStatement_opened hopens.2 t
  split at h
  · rename_i hkind
    obtain ⟨-, rfl, -⟩ := Step.next.inj h
    exact endsStatement_of_kind (.inr (.inr hkind)) ts
  · exact endsStatement_skip h

/-- A statement ends with a separator, or in front of the end of a value. -/
theorem step_ends (h : r.step tail t ts = .next s used remarks) :
    EndsStatement (t :: ts.take used) (ts.drop used) := by
  by_cases hframes : r.frames = []
  · rw [step_topLevel hframes] at h
    exact topLevel_ends h
  rcases hasForm t ts with ⟨form, hform⟩
  rw [hform.step hframes] at h
  cases hform with
  | closing hkind =>
      obtain ⟨-, rfl, -⟩ := Step.next.inj h
      exact endsStatement_of_kind (.inr (.inr hkind)) ts
  | ending hkind =>
      obtain ⟨-, rfl, -⟩ := Step.next.inj h
      exact endsStatement_of_kind (hkind.imp_right .inl) ts
  | nameless => exact endsStatement_skip h
  | widget _ hopens =>
      obtain ⟨-, rfl, -⟩ := Step.next.inj h
      exact endsStatement_opened hopens t
  | group _ hopens =>
      obtain ⟨-, rfl, -⟩ := Step.next.inj h
      exact endsStatement_opened hopens t
  | value _ hcolon =>
      cases ts with
      | nil => exact absurd hcolon Bool.false_ne_true
      | cons c cs => exact endsStatement_property h
  | declaration hname => exact endsStatement_declaration h hname
  | unused => exact endsStatement_skip h

/-- There is a separator on one side of each statement. -/
theorem Reaches.isSeparated {q : Reading} {before us : List Token}
    (h : Reaches tail r (before ++ t :: us) q (t :: us)) :
    Markup.isSeparated before (t :: us) = true := by
  generalize hstart : before ++ t :: us = start at h
  generalize hrest : t :: us = rest at h
  induction h generalizing before with
  | here =>
      have hnil : before = [] := List.append_left_eq_self.mp (hstart.trans hrest.symm)
      rw [hnil]
      rfl
  | @step r s q w ts us' used remarks hstep hreaches ih =>
      subst hrest
      cases before with
      | nil => rfl
      | cons b before =>
          rw [List.cons_append] at hstart
          obtain ⟨rfl, rfl⟩ := List.cons.inj hstart
          have hle := hreaches.length_le
          rw [List.length_drop, List.length_append] at hle
          have hused : used ≤ before.length := by
            have hlength : (t :: us).length = us.length + 1 := List.length_cons
            omega
          have hends := step_ends hstep
          rw [List.drop_append_of_le_length hused] at hends ih
          rw [List.take_append_of_le_length hused] at hends
          cases hdrop : before.drop used with
          | nil =>
              rw [List.take_of_length_le (List.drop_eq_nil_iff.mp hdrop), hdrop] at hends
              exact hends.isSeparated
          | cons d ds =>
              -- What is taken in the end is taken by a later statement.
              have hlater := @ih (d :: ds) (by rw [hdrop]) rfl
              have hlast : (b :: before).getLast? = (d :: ds).getLast? := by
                have hsplit : b :: before = (b :: before.take used) ++ d :: ds := by
                  rw [← hdrop, List.cons_append, List.take_append_drop]
                rw [hsplit, List.getLast?_append_of_ne_nil _ (List.cons_ne_nil d ds)]
              simpa [Markup.isSeparated, hlast] using hlater

end Separated

end Reading

-- The places of statements in a text

theorem spansFrom_append (position : Nat) (ts us : List Token) :
    spansFrom position (ts ++ us)
      = spansFrom position ts ++ spansFrom (position + (withGaps ts).length) us := by
  induction ts generalizing position with
  | nil => rfl
  | cons t ts ih =>
      have hposition : position + t.gap.length + t.body.length + (withGaps ts).length
          = position + (withGaps (t :: ts)).length := by
        rw [withGaps_cons, List.length_append, List.length_append]
        omega
      rw [List.cons_append, spansFrom, spansFrom, ih, hposition, List.cons_append]

theorem length_spansFrom (position : Nat) (ts : List Token) :
    (spansFrom position ts).length = ts.length := by
  induction ts generalizing position with
  | nil => rfl
  | cons t ts ih => rw [spansFrom, List.length_cons, List.length_cons, ih]

/-- A token stands behind those before it and what was skipped. -/
theorem positionOf_append (ts us : List Token) (t : Token) :
    positionOf (ts ++ t :: us) (us.length + 1) = (withGaps ts).length + t.gap.length := by
  have hbefore : (ts ++ t :: us).length - (us.length + 1) = (spansFrom 0 ts).length := by
    rw [List.length_append, List.length_cons, length_spansFrom]
    omega
  rw [positionOf, hbefore, spans, spansFrom_append, List.drop_left, spansFrom, Nat.zero_add]

/-- Nothing has been read. -/
def Reading.initial (s : Settings) : Reading :=
  { window := .usual s }

/-- Two texts describe the same document if the reader comes to the same with their tokens. -/
theorem readDocument_congr {s : Settings} {source other : String}
    (h : (Reading.initial s).outcome (scan source.toList).tail (scan source.toList).tokens
      = (Reading.initial s).outcome (scan other.toList).tail (scan other.toList).tokens) :
    (readDocument s source).1 = (readDocument s other).1 := by
  have hreading := congrArg Prod.fst h
  simp only [Reading.outcome, Reading.initial] at hreading
  simp only [readDocument, hreading]

/-- The reader gets to each statement of a text, and the text can be replaced from there on. -/
theorem exists_place {s : Settings} {source : String} {st : Statement}
    (h : st ∈ statements s source) :
    ∃ ts, (scan source.toList).tokens = ts ++ st.first :: st.rest ∧
      (Reading.initial s).Reaches (scan source.toList).tail (ts ++ st.first :: st.rest) st.before
        (st.first :: st.rest) ∧
      isSeparated ts (st.first :: st.rest) = true := by
  have hreaches := Reading.mem_statements_iff.mp h
  obtain ⟨ts, hts⟩ := hreaches.suffix
  rw [hts] at hreaches
  exact ⟨ts, hts, hreaches, hreaches.isSeparated⟩

end Markup

end WidgetSync
