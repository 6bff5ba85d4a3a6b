import WidgetSync.Proofs.Braces
import WidgetSync.Proofs.Declarations
import WidgetSync.Proofs.Giving

/-!
# Inner Blocks Are Read for Themselves

What is read inside a block does not depend on where the block stands.

An object in which a widget is declared is kept as source text, and the reader finds
out only while it reads the object. To read that source text again means to read the
same statements again, in another place: other blocks are open around the object,
and other tokens follow it. Neither is looked at. A statement works on the innermost
block only, and it looks ahead no further than the next statement starts, unless it
runs out of tokens. So a reading of the object alone says what happens in every
place, as long as each statement ends before the tokens of the object do.

The tokens that an object keeps do include all that follows. They are the one part
of a block that differs from place to place, and `Reading.atop` puts them right.

## Main definitions

* `Reading.atop`: A reading with other blocks around its blocks, and other tokens
  behind its tokens.
* `Reading.within`: Reads up to the last of some tokens, and nothing behind it.
* `KeptObject`: The source text of an object in which a widget is declared.

## Theorems

* `Reading.value_cases`: What can stand behind a colon.
* `Reading.step_atop`: A statement does the same in every place.
* `Reading.within_atop`: So do several statements.
* `shows_kept`: An object that holds a widget is read as its source text.
-/

namespace WidgetSync

namespace Markup

/-- The block with more tokens behind those it keeps. -/
def Frame.extended (rest : List Token) : Frame → Frame
  | .object key type properties holds source =>
    .object key type properties holds (source ++ rest)
  | f => f

namespace Reading

/-- The blocks of one reading inside the blocks of another, in front of some tokens. -/
def atop (r base : Reading) (rest : List Token) : Reading :=
  { base with frames := r.frames.map (Frame.extended rest) ++ base.frames }

/-- Some block is open, and none of them is that of the window. -/
def Inner (r : Reading) : Prop :=
  ∃ f fs, r.frames = f :: fs ∧ ∀ g ∈ f :: fs, g ≠ .window

theorem bag_atop {r : Reading} (h : r.Inner) (base : Reading) (rest : List Token) :
    (r.atop base rest).bag = r.bag := by
  obtain ⟨window, roots, declared, frames⟩ := r
  obtain ⟨f, fs, rfl, hf⟩ := h
  cases f with
  | window => exact absurd rfl (hf _ List.mem_cons_self)
  | _ => rfl

theorem setBag_atop {r : Reading} (h : r.Inner) (base : Reading) (rest : List Token)
    (fields : Fields) : (r.atop base rest).setBag fields = (r.setBag fields).atop base rest := by
  obtain ⟨window, roots, declared, frames⟩ := r
  obtain ⟨f, fs, rfl, hf⟩ := h
  cases f with
  | window => exact absurd rfl (hf _ List.mem_cons_self)
  | _ => rfl

theorem Inner.setBag {r : Reading} (h : r.Inner) (fields : Fields) : (r.setBag fields).Inner := by
  obtain ⟨window, roots, declared, frames⟩ := r
  obtain ⟨f, fs, rfl, hf⟩ := h
  cases f with
  | window => exact absurd rfl (hf _ List.mem_cons_self)
  | _ =>
      refine ⟨_, fs, rfl, fun g hg => ?_⟩
      rcases List.mem_cons.mp hg with rfl | hg
      · exact Frame.noConfusion
      · exact hf g (List.mem_cons_of_mem _ hg)

theorem store_atop {r : Reading} (h : r.Inner) (base : Reading) (rest : List Token) (key : String)
    (v : Value) : (r.atop base rest).store key v = (r.store key v).atop base rest := by
  rw [store, bag_atop h, setBag_atop h, store]

theorem Inner.store {r : Reading} (h : r.Inner) (key : String) (v : Value) :
    (r.store key v).Inner :=
  h.setBag _

theorem groupFields_atop {r : Reading} (h : r.Inner) (base : Reading) (rest : List Token)
    (name : String) : (r.atop base rest).groupFields name = r.groupFields name := by
  rw [groupFields, bag_atop h, groupFields]

theorem Inner.push {r : Reading} (h : r.Inner) {f : Frame} (hf : f ≠ .window) :
    (r.push f).Inner := by
  obtain ⟨g, gs, hgs, hnone⟩ := h
  refine ⟨f, g :: gs, by rw [Reading.push, hgs], fun k hk => ?_⟩
  rcases List.mem_cons.mp hk with rfl | hk
  · exact hf
  · exact hnone k hk

/-- The text of an object is measured from the end of its source, so tokens behind it count on
    both sides. -/
theorem objectText_append (source ts rest : List Token) :
    objectText (source ++ rest) (ts ++ rest) = objectText source ts := by
  rw [objectText, objectText, List.length_append, List.length_append, Nat.add_sub_add_right,
    List.take_append_of_le_length (Nat.sub_le _ _)]

/-- A complete block is handed to the block below, which is inner as well. -/
theorem close_atop {r : Reading} (h : r.Inner) (base : Reading) (ts rest : List Token)
    (hne : (r.close false ts).frames ≠ []) :
    (r.atop base rest).close false (ts ++ rest) = (r.close false ts).atop base rest ∧
      (r.close false ts).Inner := by
  obtain ⟨window, roots, declared, frames⟩ := r
  obtain ⟨f, fs, rfl, hf⟩ := h
  -- The block below is inner as well, because the last one does not close here.
  have hbelow : fs ≠ [] → (⟨window, roots, declared, fs⟩ : Reading).Inner := by
    intro hfs
    cases fs with
    | nil => exact absurd rfl hfs
    | cons g gs => exact ⟨g, gs, rfl, fun k hk => hf k (List.mem_cons_of_mem f hk)⟩
  have hfs : fs ≠ [] := by
    rintro rfl
    cases f with
    | window => exact hne rfl
    | node n => exact hne rfl
    | group name fields => exact hne rfl
    | object key type properties holds source => exact hne rfl
  have hinner := hbelow hfs
  cases f with
  | window => exact absurd rfl (hf _ List.mem_cons_self)
  | node n =>
      cases fs with
      | nil => exact absurd rfl hfs
      | cons g gs =>
          cases g with
          | window => exact absurd rfl (hf _ (List.mem_cons_of_mem _ List.mem_cons_self))
          | group name fields => exact ⟨rfl, hinner⟩
          | _ =>
              refine ⟨rfl, _, gs, rfl, fun k hk => ?_⟩
              rcases List.mem_cons.mp hk with rfl | hk
              · exact Frame.noConfusion
              · exact hf k (List.mem_cons_of_mem _ (List.mem_cons_of_mem _ hk))
  | group name fields =>
      exact ⟨store_atop hinner base rest name (.group fields), hinner.store _ _⟩
  | object key type properties holds source =>
      refine ⟨?_, hinner.store _ _⟩
      rw [close, atop, List.map_cons, Frame.extended, List.cons_append]
      simp only [objectText_append]
      exact store_atop hinner base rest key _

theorem given_next {value : Except Fault Value} {stopped s : Reading} {used n : Nat}
    {keep : Value → Reading} {remarks : List Remark}
    (h : Step.given value stopped used keep = .next s n remarks) :
    ∃ v, value = .ok v ∧ s = keep v ∧ n = used ∧ remarks = [] := by
  -- A conversion that fails stops the reader, so it has not failed.
  cases value with
  | error e => exact absurd h (by simp only [Step.given, reduceCtorEq, not_false_eq_true])
  | ok v =>
      simp only [Step.given, Step.next.injEq] at h
      exact ⟨v, rfl, h.1.symm, h.2.1.symm, h.2.2.symm⟩

theorem group?_atop {r : Reading} (h : r.Inner) (base : Reading) (rest : List Token) :
    (r.atop base rest).group? = r.group? := by
  obtain ⟨window, roots, declared, frames⟩ := r
  obtain ⟨f, fs, rfl, -⟩ := h
  cases f with
  | _ => rfl

/-- The window is not the innermost block, and a widget takes a value in every place. -/
theorem absorb_atop {r : Reading} (h : r.Inner) (base : Reading) (rest : List Token)
    (key raw : String) :
    (r.atop base rest).absorb key raw
      = (r.absorb key raw).map fun found => found.map fun s => s.atop base rest := by
  obtain ⟨window, roots, declared, frames⟩ := r
  obtain ⟨f, fs, rfl, hf⟩ := h
  cases f with
  | window => exact absurd rfl (hf _ List.mem_cons_self)
  | node n =>
      simp only [absorb, atop, List.map_cons, Frame.extended, List.cons_append]
      rcases nodeAttribute n key raw with fault | _ | m
      all_goals rfl
  | _ => rfl

theorem Inner.absorb {r s : Reading} (h : r.Inner) {key raw : String}
    (habsorb : r.absorb key raw = .ok (some s)) : s.Inner := by
  rcases absorb_some habsorb with ⟨n, m, fs, hframes, -, rfl⟩ | ⟨fs, w, -, -, rfl⟩
  · obtain ⟨g, gs, hgs, hnone⟩ := h
    rw [hframes] at hgs
    obtain ⟨rfl, rfl⟩ := List.cons.inj hgs
    refine ⟨_, fs, rfl, fun k hk => ?_⟩
    rcases List.mem_cons.mp hk with rfl | hk
    · exact Frame.noConfusion
    · exact hnone k (List.mem_cons_of_mem _ hk)
  · exact h

/-- The value of a literal or binding goes to the innermost block. -/
theorem assign_atop {r s : Reading} (h : r.Inner) (base : Reading) (rest : List Token)
    {key raw : String} {used n : Nat} {remarks : List Remark}
    (hstep : r.assign key raw used = .next s n remarks) :
    (r.atop base rest).assign key raw used = .next (s.atop base rest) n remarks ∧ s.Inner ∧
      n = used := by
  rcases pointed_cases r key with ⟨head, field, hgroup, hsplit⟩ | hpoints
  · rw [assign_pointed hgroup hsplit] at hstep
    rcases given_next hstep with ⟨v, hv, rfl, rfl, rfl⟩
    rw [assign_pointed ((group?_atop h base rest).trans hgroup) hsplit, groupFields_atop h, hv,
      Step.given, store_atop h]
    exact ⟨rfl, h.store _ _, rfl⟩
  · rw [assign_unpointed hpoints] at hstep
    rw [← group?_atop h base rest] at hpoints
    rw [assign_unpointed hpoints, group?_atop h]
    have hinner := fun u => @Inner.absorb r u h key raw
    rw [absorb_atop h]
    generalize r.absorb key raw = found at hstep hinner ⊢
    rcases found with fault | _ | u
    · exact absurd hstep (by simp only [Step.absorbed, reduceCtorEq, not_false_eq_true])
    · rcases given_next hstep with ⟨v, hv, rfl, rfl, rfl⟩
      refine ⟨?_, h.store _ _, rfl⟩
      rw [hv, ← store_atop h]
      rfl
    · simp only [Step.absorbed, Step.next.injEq] at hstep
      obtain ⟨rfl, rfl, rfl⟩ := hstep
      exact ⟨rfl, hinner u rfl, rfl⟩

end Reading

/-- A value that ends before the tokens do ends there in front of other tokens too. -/
theorem valueLength_inside {depth : Nat} {ts : List Token} (h : valueLength depth ts < ts.length)
    (rest : List Token) : valueLength depth (ts ++ rest) = valueLength depth ts := by
  -- By induction on the tokens: the value ends at one of them, so those behind are never
  -- looked at.
  induction ts generalizing depth with
  | nil => exact absurd h (Nat.not_lt_zero _)
  | cons t ts ih =>
      rw [List.cons_append]
      by_cases hends : depth = 0 ∧ t.endsValue = true
      · rw [valueLength_stop hends, valueLength_stop hends]
      · rw [valueLength_go hends, List.length_cons] at h
        rw [valueLength_go hends, valueLength_go hends, ih (by omega)]

theorem valueText_inside {ts : List Token} (h : valueLength 0 ts < ts.length) (rest : List Token) :
    valueText (ts ++ rest) = valueText ts := by
  rw [valueText, valueText, valueLength_inside h,
    List.take_append_of_le_length (valueLength_le 0 ts)]

theorem starts_append {kind : Kind} {ts : List Token} (h : ts ≠ []) (rest : List Token) :
    starts kind (ts ++ rest) = starts kind ts := by
  cases ts with
  | nil => exact absurd rfl h
  | cons t ts => rfl

namespace Reading

theorem skip_atop {r s : Reading} (h : r.Inner) (base : Reading) {t : Token} {ts : List Token}
    (rest : List Token) {used : Nat} {remarks : List Remark}
    (hstep : r.skip t ts = .next s used remarks) (hused : used < ts.length) :
    ∃ others, (r.atop base rest).skip t (ts ++ rest) = .next (s.atop base rest) used others ∧
      s.Inner := by
  simp only [skip, Step.next.injEq] at hstep
  obtain ⟨rfl, rfl, -⟩ := hstep
  have hlength : valueLength 0 (t :: ts) < (t :: ts).length := by
    rw [List.length_cons]
    omega
  refine ⟨[.skipped ((ts ++ rest).length + 1)], ?_, h⟩
  rw [skip, ← List.cons_append, valueLength_inside hlength]

/-- What can stand behind a colon: nothing, a block that may be left open, an object, or a value of
    another kind. -/
@[elab_as_elim]
theorem value_cases {motive : List Token → Prop} (ts : List Token) (missing : motive [])
    (unclosed : ∀ v vs, v.kind = .opening → blockLength? 0 vs = none → motive (v :: vs))
    (block : ∀ v vs n, v.kind = .opening → blockLength? 0 vs = some n → motive (v :: vs))
    (object : ∀ v vs, v.kind ≠ .opening → (v.isCapital && starts .opening vs) = true →
      motive (v :: vs))
    (plain : ∀ v vs, v.kind ≠ .opening → (v.isCapital && starts .opening vs) = false →
      motive (v :: vs)) : motive ts := by
  cases ts with
  | nil => exact missing
  | cons v vs =>
      by_cases hopens : v.kind = .opening
      · cases hblock : blockLength? 0 vs with
        | none => exact unclosed v vs hopens hblock
        | some n => exact block v vs n hopens hblock
      · by_cases hobject : (v.isCapital && starts .opening vs) = true
        · exact object v vs hopens hobject
        · exact plain v vs hopens (Bool.eq_false_iff.mpr hobject)

/-- What a value that is neither a block nor an object does to the innermost block. -/
def valued (r : Reading) (key raw : String) (used : Nat) : Step :=
  if raw.isEmpty then .next r used [.noValue key]
  else if Catalog.isHandlerName key then
    .next (r.store key (.handler (.text raw) (.bool false))) used []
  else r.assign key raw used

theorem property_value {v : Token} {vs : List Token} (r : Reading) (tail : List Char) (key : String)
    (hopens : v.kind ≠ .opening) (hobject : (v.isCapital && starts .opening vs) = false) :
    r.property tail key (v :: vs)
      = r.valued key (valueText (v :: vs)) (valueLength 0 (v :: vs) + 1) := by
  unfold property valued
  simp only [if_neg hopens, hobject, Bool.false_eq_true, if_false]

theorem property_object {v : Token} {vs : List Token} (r : Reading) (tail : List Char)
    (key : String) (hopens : v.kind ≠ .opening)
    (hobject : (v.isCapital && starts .opening vs) = true) :
    r.property tail key (v :: vs)
      = .next (r.push (.object key v.text [] false (v :: vs))) 3 [] := by
  unfold property
  simp only [if_neg hopens, if_pos hobject]

/-- The text between the braces of a block with some tokens. -/
def insideText (vs : List Token) (n : Nat) : List Char :=
  withGaps (vs.take n) ++ match vs.drop n with
    | closing :: _ => closing.gap
    | [] => []

theorem property_block {v : Token} {vs : List Token} {n : Nat} (r : Reading) (tail : List Char)
    (key : String) (hopens : v.kind = .opening) (hblock : blockLength? 0 vs = some n) :
    r.property tail key (v :: vs)
      = .next (r.store key (bracedValue key (insideText vs n))) (n + 3) [] := by
  unfold property
  simp only [if_pos hopens, hblock]
  rfl

theorem property_open {v : Token} {vs : List Token} (r : Reading) (tail : List Char)
    (key : String) (hopens : v.kind = .opening) (hblock : blockLength? 0 vs = none) :
    r.property tail key (v :: vs)
      = .next (r.store key (bracedValue key (withGaps vs ++ tail))) (vs.length + 2)
          [.openBrace (v :: vs).length] := by
  unfold property
  simp only [if_pos hopens, hblock]
  rfl

theorem insideText_append {vs : List Token} {n : Nat} (h : n < vs.length) (rest : List Token) :
    insideText (vs ++ rest) n = insideText vs n := by
  rw [insideText, insideText, List.take_append_of_le_length (Nat.le_of_lt h),
    List.drop_append_of_le_length (Nat.le_of_lt h)]
  cases hdrop : vs.drop n with
  | nil =>
      rw [List.drop_eq_nil_iff] at hdrop
      exact absurd h (Nat.not_lt.mpr hdrop)
  | cons c cs => rfl

theorem valued_atop {r s : Reading} (h : r.Inner) (base : Reading) (rest : List Token)
    {key raw : String} {used n : Nat} {remarks : List Remark}
    (hstep : r.valued key raw used = .next s n remarks) :
    (r.atop base rest).valued key raw used = .next (s.atop base rest) n remarks ∧ s.Inner ∧
      n = used := by
  unfold valued at hstep ⊢
  by_cases hempty : raw.isEmpty = true
  · rw [if_pos hempty] at hstep ⊢
    simp only [Step.next.injEq] at hstep
    obtain ⟨rfl, rfl, rfl⟩ := hstep
    exact ⟨rfl, h, rfl⟩
  · rw [if_neg hempty] at hstep ⊢
    by_cases hhandler : Catalog.isHandlerName key = true
    · rw [if_pos hhandler] at hstep ⊢
      simp only [Step.next.injEq] at hstep
      obtain ⟨rfl, rfl, rfl⟩ := hstep
      rw [store_atop h]
      exact ⟨rfl, h.store _ _, rfl⟩
    · rw [if_neg hhandler] at hstep ⊢
      exact assign_atop h base rest hstep

/-- A capital in front of the end of a value cannot start an object. -/
theorem isCapital_eq_false {v : Token} (h : valueLength 0 [v] < 1) : v.isCapital = false := by
  have hends : v.endsValue = true := by
    by_cases hends : v.endsValue = true
    · exact hends
    · rw [valueLength_go fun hstop => hends hstop.2] at h
      omega
  have hkind : v.kind ≠ .name := by
    intro hname
    rw [Token.endsValue, hname] at hends
    exact absurd hends (by decide)
  rw [Token.isCapital, beq_eq_false_iff_ne.mpr hkind, Bool.false_and]

theorem property_atop {r s : Reading} (h : r.Inner) (base : Reading) {tail : List Char}
    (others : List Char) {key : String} {ts : List Token} (rest : List Token) {used : Nat}
    {remarks : List Remark} (hstep : r.property tail key ts = .next s used remarks)
    (hused : used ≤ ts.length) :
    ∃ remarks', (r.atop base rest).property others key (ts ++ rest)
      = .next (s.atop base rest) used remarks' ∧ s.Inner := by
  cases ts using value_cases with
  | missing =>
      simp only [property, Step.next.injEq] at hstep
      obtain ⟨-, rfl, -⟩ := hstep
      exact absurd hused (by decide)
  | unclosed v vs hopens hblock =>
      -- A brace that is not closed would take all the tokens.
      rw [property_open r tail key hopens hblock] at hstep
      simp only [Step.next.injEq] at hstep
      rw [List.length_cons] at hused
      omega
  | block v vs m hopens hblock =>
      rw [property_block r tail key hopens hblock] at hstep
      simp only [Step.next.injEq] at hstep
      obtain ⟨rfl, rfl, -⟩ := hstep
      refine ⟨[], ?_, h.store _ _⟩
      rw [List.cons_append, property_block _ _ _ hopens (blockLength?_append hblock rest),
        insideText_append (blockLength?_lt hblock), store_atop h]
  | object v vs hopens hobject =>
      rw [property_object r tail key hopens hobject] at hstep
      simp only [Step.next.injEq] at hstep
      obtain ⟨rfl, rfl, -⟩ := hstep
      have hvs : vs ≠ [] := by
        rintro rfl
        exact absurd hobject (by simp only [starts, Bool.and_false, Bool.false_eq_true,
          not_false_eq_true])
      refine ⟨[], ?_, h.push Frame.noConfusion⟩
      rw [List.cons_append, property_object _ _ _ hopens (by rw [starts_append hvs, hobject])]
      rfl
  | plain v vs hopens hobject =>
      rw [property_value r tail key hopens hobject] at hstep
      rcases valued_atop h base rest hstep with ⟨hover, hinner, rfl⟩
      -- The next statement starts inside, so the value ends inside.
      have hlength : valueLength 0 (v :: vs) < (v :: vs).length := by
        rw [List.length_cons] at hused ⊢
        omega
      have hplain : (v.isCapital && starts .opening (vs ++ rest)) = false := by
        by_cases hvs : vs = []
        · subst hvs
          rw [isCapital_eq_false hlength, Bool.false_and]
        · rw [starts_append hvs, hobject]
      refine ⟨remarks, ?_, hinner⟩
      rw [List.cons_append, property_value _ _ _ hopens hplain, ← List.cons_append,
        valueText_inside hlength, valueLength_inside hlength, hover]

theorem declaration_atop {r s : Reading} (h : r.Inner) (base : Reading) {ts : List Token}
    (rest : List Token) {used : Nat} {remarks : List Remark}
    (hstep : r.declaration ts = .next s used remarks) (hused : used + 1 < ts.length) :
    ∃ others, (r.atop base rest).declaration (ts ++ rest)
      = .next (s.atop base rest) used others ∧ s.Inner := by
  rcases names_split ts with hall | ⟨words, c, cs, rfl, hwords, hc⟩
  · -- Nothing but names would use up all the tokens.
    rw [declaration_names r hall] at hstep
    simp only [Step.next.injEq] at hstep
    omega
  · rw [declaration_split r cs hwords hc] at hstep
    rw [List.length_append, List.length_cons] at hused
    rw [List.append_assoc, List.cons_append, declaration_split _ _ hwords hc]
    by_cases hcolon : c.kind = .colon ∧ 2 ≤ words.length
    · rw [if_pos hcolon] at hstep ⊢
      unfold declaredValue at hstep ⊢
      by_cases hempty : (valueText cs).isEmpty = true
      · rw [if_pos hempty] at hstep
        simp only [Step.next.injEq] at hstep
        obtain ⟨rfl, rfl, -⟩ := hstep
        have hlength : valueLength 0 cs < cs.length := by omega
        rw [valueText_inside hlength, valueLength_inside hlength, if_pos hempty]
        exact ⟨[], rfl, h⟩
      · rw [if_neg hempty] at hstep
        simp only [Step.next.injEq] at hstep
        obtain ⟨rfl, rfl, -⟩ := hstep
        have hlength : valueLength 0 cs < cs.length := by omega
        rw [valueText_inside hlength, valueLength_inside hlength, if_neg hempty, store_atop h]
        exact ⟨[], rfl, h.store _ _⟩
    · rw [if_neg hcolon] at hstep ⊢
      simp only [Step.next.injEq] at hstep
      obtain ⟨rfl, rfl, -⟩ := hstep
      have hlength : valueLength 0 (c :: cs) < (c :: cs).length := by
        rw [List.length_cons]
        omega
      rw [← List.cons_append, valueLength_inside hlength]
      exact ⟨_, rfl, h⟩

/-- A statement that ends before the tokens do does the same in every place. -/
theorem step_atop {r s : Reading} (h : r.Inner) (base : Reading) {tail : List Char}
    (others : List Char) {t : Token} {ts : List Token} (rest : List Token) {used : Nat}
    {remarks : List Remark} (hstep : r.step tail t ts = .next s used remarks)
    (hused : used < ts.length) (hne : s.frames ≠ []) :
    ∃ remarks', (r.atop base rest).step others t (ts ++ rest)
      = .next (s.atop base rest) used remarks' ∧ s.Inner := by
  have hopen : r.frames ≠ [] ∧ (r.atop base rest).frames ≠ [] := by
    obtain ⟨f, fs, hfs, -⟩ := h
    rw [atop, hfs]
    exact ⟨List.cons_ne_nil _ _, List.cons_ne_nil _ _⟩
  -- Something is left of the tokens, so the token behind the first is the same in both
  -- places, and with it the form of the statement.
  have hts : ts ≠ [] := List.ne_nil_of_length_pos (Nat.zero_lt_of_lt hused)
  rcases hasForm t ts with ⟨form, hform⟩
  rw [hform.step hopen.1] at hstep
  rw [(hform.congr (starts_append hts rest) (starts_append hts rest)).step hopen.2]
  cases form with
  | closing =>
      simp only [Form.act, Step.next.injEq] at hstep
      obtain ⟨rfl, rfl, -⟩ := hstep
      rcases close_atop h base ts rest hne with ⟨hover, hinner⟩
      exact ⟨[], by rw [Form.act, hover], hinner⟩
  | ending =>
      simp only [Form.act, Step.next.injEq] at hstep
      obtain ⟨rfl, rfl, -⟩ := hstep
      exact ⟨[], rfl, h⟩
  | widget =>
      simp only [Form.act, Step.next.injEq] at hstep
      obtain ⟨rfl, rfl, -⟩ := hstep
      exact ⟨[], rfl, h.push Frame.noConfusion⟩
  | group =>
      simp only [Form.act, Step.next.injEq] at hstep
      obtain ⟨rfl, rfl, -⟩ := hstep
      rw [Form.act, groupFields_atop h]
      exact ⟨[], rfl, h.push Frame.noConfusion⟩
  | value =>
      cases ts with
      | nil => exact absurd rfl hts
      | cons c cs => exact property_atop h base others rest hstep (Nat.le_of_lt_succ hused)
  | declaration => exact declaration_atop h base rest hstep (Nat.succ_lt_succ hused)
  | stray => exact skip_atop h base rest hstep hused

/-- Reads up to the last of some tokens, and nothing behind it. -/
def within (r : Reading) : List Token → Option Reading
  | [] => none
  | t :: ts =>
    if ts.isEmpty then some r
    else
      match r.step [] t ts with
      | .next s used _ =>
        if used < ts.length ∧ s.frames.isEmpty = false then s.within (ts.drop used) else none
      | .stop _ => none
termination_by ts => ts.length
decreasing_by simp only [List.length_cons, List.length_drop]; omega

/-- Several statements that end before the tokens do do the same in every place. -/
theorem within_atop {r s : Reading} (h : r.Inner) (base : Reading) (tail : List Char)
    {ts : List Token} (rest : List Token) (hwithin : r.within ts = some s) :
    s.Inner ∧ ∃ last, ts.getLast? = some last ∧
      (r.atop base rest).outcome tail (ts ++ rest)
        = (s.atop base rest).outcome tail (last :: rest) := by
  induction r, ts using within.induct with
  | case1 r => exact absurd hwithin (by simp only [within, reduceCtorEq, not_false_eq_true])
  | case2 r t ts hempty =>
      -- The last token is left to the block below.
      rw [within, if_pos hempty, Option.some.injEq] at hwithin
      rw [List.isEmpty_iff] at hempty
      subst hwithin hempty
      exact ⟨h, t, rfl, rfl⟩
  | case3 r t ts hmore u used remarks hstep hinside ih =>
      simp only [within, if_neg hmore, hstep, if_pos hinside] at hwithin
      rcases step_atop h base tail rest hstep hinside.1
          (List.isEmpty_eq_false_iff.mp hinside.2) with ⟨_, hover, hinner⟩
      rcases ih hinner hwithin with ⟨hs, last, hlast, houtcome⟩
      refine ⟨hs, last, ?_, ?_⟩
      · rw [List.getLast?_drop, if_neg (Nat.not_le.mpr hinside.1)] at hlast
        rw [List.getLast?_cons, hlast, Option.getD_some]
      · rw [List.cons_append, Reading.outcome_next hover,
          List.drop_append_of_le_length (Nat.le_of_lt hinside.1), houtcome]
  | case4 r t ts hmore u used remarks hstep houtside =>
      simp only [within, if_neg hmore, hstep, if_neg houtside, reduceCtorEq] at hwithin
  | case5 r t ts hmore u hstep =>
      simp only [within, if_neg hmore, hstep, reduceCtorEq] at hwithin

end Reading

/-- The block of an object, alone and still empty. -/
def Reading.ofObject (key type : String) (source : List Token) : Reading where
  window := default
  frames := [.object key type [] false source]

/-- The source text of an object that is the value of a property and in which, read
    alone, a widget is declared. -/
structure KeptObject (key : String) (r : List Char) : Prop where
  /-- Its tokens do not depend on what follows. -/
  lexes : Lexes (r ++ ['\n']) ((scan r).tokens ++ [lineEnd])
  /-- It starts and ends with a token, and there are no blanks around it. -/
  covers : covered (scan r).tokens = r
  trimmed : Text.trim r = r
  /-- It is a type and a block, and the block is closed by the last brace with a
      widget in it. -/
  holds : ∃ type gap inner closing, isCapitalized type = true ∧
    (scan r).tokens
      = ⟨.name, [], type⟩ :: ⟨.opening, gap, ['\x7b']⟩ :: (inner ++ [closingBrace closing]) ∧
    ∃ s properties,
      (Reading.ofObject key (String.ofList type) (delayed [' '] (scan r).tokens)).within
        (inner ++ [closingBrace closing]) = some s ∧
      s.frames = [.object key (String.ofList type) properties true (delayed [' '] (scan r).tokens)]

/-- An object that holds a widget is read as its source text. -/
theorem shows_kept {r : Reading} {key : String} {cs : List Char} (depth : Nat)
    (hframes : r.frames ≠ []) (hkey : isName key.toList = true) (h : KeptObject key cs) :
    Shows (valueLine depth key cs) r (r.store key (.raw (String.ofList cs))) := by
  rcases h.holds with ⟨type, gap, inner, closing, hcapital, htokens, s, properties, hwithin, hs⟩
  have hnonempty : (scan cs).tokens ≠ [] := by
    rw [htokens]
    exact List.cons_ne_nil _ _
  have hkept : delayed [' '] (scan cs).tokens
      = ⟨.name, [' '], type⟩ :: ⟨.opening, gap, ['\x7b']⟩ :: (inner ++ [closingBrace closing]) := by
    rw [htokens]
    rfl
  generalize hsource : delayed [' '] (scan cs).tokens = source at *
  refine @Shows.of_tokens _ (⟨.name, (indent depth).toList, key.toList⟩ ::
    ⟨.colon, [], [':']⟩ :: (source ++ [lineEnd])) r _ ?_ fun tail rest => ?_
  · rw [← hsource]
    exact Lexes.nameLine depth hkey ⟨':', _, rfl, by decide⟩
      (lexes_value h.lexes hnonempty)
  · generalize hbehind : lineEnd :: rest = behind
    have htext : Reading.objectText (source ++ behind) behind = String.ofList cs := by
      rw [Reading.objectText, List.length_append, Nat.add_sub_cancel, List.take_left, ← hsource,
        covered_delayed, h.covers, h.trimmed]
    -- The statements inside do the same here as in the object alone.
    have hinner : (Reading.ofObject key (String.ofList type) source).Inner :=
      ⟨_, [], rfl, fun g hg => by rw [List.mem_singleton.mp hg]; exact Frame.noConfusion⟩
    rcases Reading.within_atop hinner r tail behind hwithin with ⟨-, last, hlast, houtcome⟩
    rw [List.getLast?_concat, Option.some.injEq] at hlast
    subst hlast
    have hopen : r.step tail ⟨.name, (indent depth).toList, key.toList⟩
        (⟨.colon, [], [':']⟩ :: (source ++ behind))
        = .next ((Reading.ofObject key (String.ofList type) source).atop r behind) 3 [] := by
      have hobject : (Token.isCapital ⟨.name, [' '], type⟩ && starts .opening
          (⟨.opening, gap, ['\x7b']⟩ :: (inner ++ [closingBrace closing]) ++ behind)) = true := by
        rw [isCapital_name, hcapital]
        rfl
      rw [Reading.step_property _ hframes rfl rfl, text_name, hkept, List.cons_append,
        Reading.property_object _ _ _ Kind.noConfusion hobject, ← List.cons_append, ← hkept]
      rfl
    -- Since a widget was declared inside, the last brace makes source text of the object.
    have hclose : (s.atop r behind).step tail (closingBrace closing) behind
        = .next (r.store key (.raw (String.ofList cs))) 0 [] := by
      rw [← htext]
      unfold Reading.step
      rw [Reading.atop, hs]
      rfl
    have hbody := Reading.outcome_next hopen
    have hdrop : (⟨.colon, [], [':']⟩ :: (source ++ behind)).drop 3
        = inner ++ [closingBrace closing] ++ behind := by
      rw [hkept]
      rfl
    have hend := Reading.outcome_next hclose
    rw [List.cons_append, List.cons_append, List.append_assoc, List.singleton_append, hbehind,
      hbody, hdrop, houtcome, hend, List.drop_zero, ← hbehind]
    exact reads_lineEnd _ tail rest

/-- Source text that is taken over as it stands: a block, or an object with a widget. -/
inductive Verbatim (key : String) : String → Prop where
  /-- A block. -/
  | block {inner : String} (hhandler : Catalog.isHandlerName key = false)
      (h : Enclosed inner.toList) : Verbatim key (braced inner)
  /-- An object in which a widget is declared. -/
  | object {r : String} (h : KeptObject key r.toList) : Verbatim key r

theorem braced_toList (inner : String) :
    (braced inner).toList = '\x7b' :: (inner.toList ++ ['\x7d']) := by
  have hopen : "\x7b".toList = ['\x7b'] := by decide
  have hclose : "\x7d".toList = ['\x7d'] := by decide
  rw [braced, String.toList_append, String.toList_append, hopen, hclose]
  rfl

/-- Source text that is taken over is read as it stands, whatever the block does with
    other values. -/
theorem Verbatim.shows {r : Reading} {key text : String} (h : Verbatim key text) (depth : Nat)
    (hframes : r.frames ≠ []) (hkey : isName key.toList = true) :
    Shows (valueLine depth key text.toList) r (r.store key (.raw text)) := by
  cases h with
  | @block inner hhandler henclosed =>
      have hshows := shows_braces depth hframes hkey henclosed
      rw [bracedValue, hhandler, if_neg (by decide), String.ofList_toList] at hshows
      rw [braced_toList]
      exact hshows
  | object hkept =>
      have hshows := shows_kept depth hframes hkey hkept
      rwa [String.ofList_toList] at hshows

end Markup

end WidgetSync
