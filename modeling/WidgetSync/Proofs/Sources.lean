import WidgetSync.Proofs.Descent
import WidgetSync.Proofs.Sequence

/-!
# What Objects Keep

The tokens that an object keeps matter only if it is kept as its source text.

An object may turn out to hold a widget, and then its value is its source text. So every object
that is opened keeps the tokens that follow, up to the end of the text, and they are looked at only
when the object is closed and holds a widget. Whatever stands in the text behind an object that
holds none can therefore not be told from the document. Here the tokens that some objects keep are
replaced by others (`Reading.sourced`), and each operation of the reader is seen to do the same.

An object holds a widget once the widget is complete, but it is bound to from the moment that the
widget is opened in it. `Reading.keeps` counts both, and then it is left as it is by every statement
that does not itself open a widget in such an object.

## Main definitions

* `Reading.sourced`: A reading with other tokens in its objects.
* `Reading.keeps`: Some objects will be kept as source text.
* `Statement.addsTo`: A statement that opens a widget in an object.

## Theorems

* `Reading.step_sourced`: A statement does the same with other tokens in the objects.
* `Reading.keeps_step`: No object will be kept unless a widget is opened in it.
* `Reading.outcome_sourced`: The text that is left leads to the same document.
-/

namespace WidgetSync

namespace Markup

/-- The block with other tokens, if it keeps some. -/
def Frame.sourced (f : List Token → List Token) : Frame → Frame
  | .object key type properties holds source => .object key type properties holds (f source)
  | frame => frame

namespace Reading

/-- The reading with other tokens in its objects. -/
def sourced (r : Reading) (f : List Token → List Token) : Reading :=
  { r with frames := r.frames.map (Frame.sourced f) }

section Sourced

variable (r : Reading) (f : List Token → List Token)

theorem bag_sourced : (r.sourced f).bag = r.bag := by
  obtain ⟨window, roots, declared, frames⟩ := r
  rcases frames with _ | ⟨frame, frames⟩
  · rfl
  · cases frame with
    | _ => rfl

theorem setBag_sourced (fields : Fields) :
    (r.sourced f).setBag fields = (r.setBag fields).sourced f := by
  obtain ⟨window, roots, declared, frames⟩ := r
  rcases frames with _ | ⟨frame, frames⟩
  · rfl
  · cases frame with
    | _ => rfl

theorem store_sourced (key : String) (v : Value) :
    (r.sourced f).store key v = (r.store key v).sourced f := by
  rw [store, bag_sourced, setBag_sourced, store]

theorem groupFields_sourced (name : String) :
    (r.sourced f).groupFields name = r.groupFields name := by
  rw [groupFields, bag_sourced, groupFields]

theorem adopt_sourced (n : Node) : (r.sourced f).adopt n = (r.adopt n).sourced f := by
  obtain ⟨window, roots, declared, frames⟩ := r
  rcases frames with _ | ⟨frame, frames⟩
  · rfl
  · cases frame with
    | _ => rfl

theorem group?_sourced : (r.sourced f).group? = r.group? := by
  obtain ⟨window, roots, declared, frames⟩ := r
  rcases frames with _ | ⟨frame, frames⟩
  · rfl
  · cases frame with
    | _ => rfl

theorem absorb_sourced (key raw : String) :
    (r.sourced f).absorb key raw
      = (r.absorb key raw).map fun found => found.map fun s => s.sourced f := by
  obtain ⟨window, roots, declared, frames⟩ := r
  rcases frames with _ | ⟨frame, frames⟩
  · rfl
  · cases frame with
    | window =>
        simp only [absorb, sourced, List.map_cons, Frame.sourced]
        rcases windowAttribute window key raw with fault | _ | w
        all_goals rfl
    | node n =>
        simp only [absorb, sourced, List.map_cons, Frame.sourced]
        rcases nodeAttribute n key raw with fault | _ | m
        all_goals rfl
    | _ => rfl

end Sourced

end Reading

/-- The step with other tokens in the objects. -/
def Step.sourced (f : List Token → List Token) : Step → Step
  | .next r used remarks => .next (r.sourced f) used remarks
  | .stop r => .stop (r.sourced f)

theorem given_sourced {value : Except Fault Value} {stopped stopped' : Reading} {used : Nat}
    {keep keep' : Value → Reading} {f : List Token → List Token}
    (hstopped : stopped' = stopped.sourced f) (hkeep : ∀ v, keep' v = (keep v).sourced f) :
    Step.given value stopped' used keep' = (Step.given value stopped used keep).sourced f := by
  cases value with
  | error fault => rw [Step.given, Step.given, Step.sourced, hstopped]
  | ok v => rw [Step.given, Step.given, Step.sourced, hkeep]

namespace Reading

section Sourced

variable (r : Reading) (f : List Token → List Token)

/-- Where a literal or binding goes does not depend on the tokens that objects keep. -/
theorem assign_sourced (key raw : String) (used : Nat) :
    (r.sourced f).assign key raw used = (r.assign key raw used).sourced f := by
  rcases r.pointed_cases key with ⟨head, field, hgroup, hsplit⟩ | hpoints
  · rw [assign_pointed hgroup hsplit,
      assign_pointed ((group?_sourced r f).trans hgroup) hsplit, groupFields_sourced]
    exact given_sourced (store_sourced r f head _) fun v => store_sourced r f head _
  · rw [assign_unpointed hpoints]
    rw [← group?_sourced r f] at hpoints
    rw [assign_unpointed hpoints, group?_sourced, absorb_sourced]
    rcases r.absorb key raw with fault | _ | s
    · rfl
    · exact given_sourced rfl fun v => store_sourced r f key v
    · rfl

theorem valued_sourced (key raw : String) (used : Nat) :
    (r.sourced f).valued key raw used = (r.valued key raw used).sourced f := by
  unfold valued
  split
  · rfl
  · split
    · rw [store_sourced, Step.sourced]
    · exact assign_sourced r f key raw used

theorem push_sourced (frame : Frame) :
    (r.sourced f).push (frame.sourced f) = (r.push frame).sourced f :=
  rfl

/-- A reader that was stopped closes its blocks without looking at the tokens. -/
theorem close_stopped (ts us : List Token) :
    (r.sourced f).close true ts = (r.close true us).sourced f := by
  obtain ⟨window, roots, declared, frames⟩ := r
  rcases frames with _ | ⟨frame, frames⟩
  · rfl
  · cases frame with
    | window => rfl
    | node n => exact adopt_sourced ⟨window, roots, declared, frames⟩ f n
    | group name fields => exact store_sourced ⟨window, roots, declared, frames⟩ f name _
    | object key type properties holds source =>
        have hkept : (holds && !true) = false := Bool.and_false holds
        simp only [close, sourced, List.map_cons, Frame.sourced, hkept, Bool.false_eq_true,
          if_false]
        exact store_sourced ⟨window, roots, declared, frames⟩ f key _

theorem closeMany_stopped (k : Nat) :
    (r.sourced f).closeMany true k = (r.closeMany true k).sourced f := by
  induction k generalizing r with
  | zero => rfl
  | succ k ih => rw [closeMany, closeMany, close_stopped r f [] [], ih]

theorem closeMany_nil {stopped : Bool} {k : Nat} (h : r.frames.length = k) :
    (r.closeMany stopped k).frames = [] := by
  induction k generalizing r with
  | zero => exact List.length_eq_zero_iff.mp h
  | succ k ih =>
      cases hframes : r.frames with
      | nil =>
          rw [hframes] at h
          exact absurd h.symm (Nat.succ_ne_zero k)
      | cons f fs =>
          rw [hframes, List.length_cons] at h
          exact ih _ ((close_length hframes stopped []).trans (Nat.succ.inj h))

/-- So it makes no difference which tokens its objects keep. -/
theorem closeAll_stopped : (r.sourced f).closeAll true = r.closeAll true := by
  have hlength : (r.sourced f).frames.length = r.frames.length := List.length_map _
  have hnone : (r.closeMany true r.frames.length).frames = [] := r.closeMany_nil rfl
  rw [closeAll, closeAll, hlength, closeMany_stopped, sourced, hnone, List.map_nil, ← hnone]

end Sourced

end Reading

/-- Among the objects whose tokens are of some sort, there is one that holds a widget, or a widget
    is open in it. The flag says whether the block inside of the blocks is a widget. -/
def keepsAny (p : List Token → Bool) : Bool → List Frame → Bool
  | _, [] => false
  | inside, .object _ _ _ holds source :: frames =>
    (holds || inside) && p source || keepsAny p false frames
  | _, .node _ :: frames => keepsAny p true frames
  | _, .window :: frames => keepsAny p false frames
  | _, .group .. :: frames => keepsAny p false frames

/-- Among the objects that are open and whose tokens are of some sort, there is one that will be
    kept as its source text. -/
def Reading.keeps (r : Reading) (p : List Token → Bool) : Bool :=
  keepsAny p false r.frames

/-- The statement opens a widget in an object whose tokens are of some sort. -/
def Statement.addsTo (p : List Token → Bool) (st : Statement) : Bool :=
  st.first.isCapital && starts .opening st.rest && match st.before.frames with
    | .object _ _ _ _ source :: _ => p source
    | _ => false

namespace Reading

section Keeps

variable (p : List Token → Bool)

theorem keeps_setBag (r : Reading) (fields : Fields) : (r.setBag fields).keeps p = r.keeps p := by
  obtain ⟨window, roots, declared, frames⟩ := r
  rcases frames with _ | ⟨frame, frames⟩
  · rfl
  · cases frame with
    | _ => rfl

theorem keeps_store (r : Reading) (key : String) (v : Value) :
    (r.store key v).keeps p = r.keeps p :=
  keeps_setBag p r _

/-- A complete widget is held by what it was open in. -/
theorem keeps_adopt (r : Reading) (n : Node) :
    (r.adopt n).keeps p = keepsAny p true r.frames := by
  obtain ⟨window, roots, declared, frames⟩ := r
  rcases frames with _ | ⟨frame, frames⟩
  · rfl
  · cases frame with
    | object key type properties holds source =>
        simp [adopt, keeps, keepsAny]
    | _ => rfl

theorem keeps_given {r s stopped : Reading} {value : Except Fault Value} {used n : Nat}
    {remarks : List Remark} {keep : Value → Reading}
    (h : Step.given value stopped used keep = .next s n remarks)
    (hkeep : ∀ v, (keep v).keeps p = r.keeps p) : s.keeps p = r.keeps p := by
  cases value with
  | error fault => exact Step.noConfusion h
  | ok v =>
      obtain ⟨rfl, -, -⟩ := Step.next.inj h
      exact hkeep v

theorem keeps_assign {r s : Reading} {key raw : String} {used n : Nat} {remarks : List Remark}
    (h : r.assign key raw used = .next s n remarks) : s.keeps p = r.keeps p := by
  rcases r.pointed_cases key with ⟨head, field, hgroup, hsplit⟩ | hpoints
  · rw [assign_pointed hgroup hsplit] at h
    exact keeps_given p h fun v => keeps_store p r head _
  · rw [assign_unpointed hpoints] at h
    rcases habsorb : r.absorb key raw with fault | _ | found
    · rw [habsorb] at h
      exact Step.noConfusion h
    · rw [habsorb] at h
      exact keeps_given p h fun v => keeps_store p r key v
    · rw [habsorb] at h
      obtain ⟨rfl, -, -⟩ := Step.next.inj h
      rcases absorb_some habsorb with ⟨n, m, fs, hframes, -, rfl⟩ | ⟨fs, w, -, -, rfl⟩
      · rw [keeps, keeps, hframes]
        rfl
      · rfl

theorem keeps_valued {r s : Reading} {key raw : String} {used n : Nat} {remarks : List Remark}
    (h : r.valued key raw used = .next s n remarks) : s.keeps p = r.keeps p := by
  unfold valued at h
  split at h
  · obtain ⟨rfl, -, -⟩ := Step.next.inj h
    rfl
  · split at h
    · obtain ⟨rfl, -, -⟩ := Step.next.inj h
      exact keeps_store p r key _
    · exact keeps_assign p h

end Keeps

section Closing

variable {p : List Token → Bool} {f : List Token → List Token} {r : Reading}

/-- A block that is closed leaves no object to be kept that would not have been. -/
theorem keeps_close (h : r.keeps p = false) (stopped : Bool) (ts : List Token) :
    (r.close stopped ts).keeps p = false := by
  obtain ⟨window, roots, declared, frames⟩ := r
  rcases frames with _ | ⟨frame, frames⟩
  · exact h
  · cases frame with
    | window => exact h
    | node n => exact (keeps_adopt p ⟨window, roots, declared, frames⟩ n).trans h
    | group name fields => exact (keeps_store p ⟨window, roots, declared, frames⟩ name _).trans h
    | object key type properties holds source =>
        have h : ((holds || false) && p source || keepsAny p false frames) = false := h
        refine (keeps_store p ⟨window, roots, declared, frames⟩ key _).trans ?_
        exact (Bool.or_eq_false_iff.mp h).2

/-- A block closes in the same way with other tokens in objects that are not kept. -/
theorem close_sourced (hf : ∀ source, p source = false → f source = source)
    (h : r.keeps p = false) (stopped : Bool) (ts : List Token) :
    (r.sourced f).close stopped ts = (r.close stopped ts).sourced f := by
  obtain ⟨window, roots, declared, frames⟩ := r
  rcases frames with _ | ⟨frame, frames⟩
  · rfl
  · cases frame with
    | window => rfl
    | node n => exact adopt_sourced ⟨window, roots, declared, frames⟩ f n
    | group name fields => exact store_sourced ⟨window, roots, declared, frames⟩ f name _
    | object key type properties holds source =>
        have h : ((holds || false) && p source || keepsAny p false frames) = false := h
        have hclose : (Reading.sourced ⟨window, roots, declared,
              .object key type properties holds source :: frames⟩ f).close stopped ts
            = (Reading.sourced ⟨window, roots, declared, frames⟩ f).store key
              (if holds && !stopped then .raw (objectText (f source) ts)
               else .object (.text type) properties) := rfl
        rw [hclose, store_sourced]
        cases holds with
        | false => rfl
        | true =>
            -- The object is kept, so it is none of those.
            have hsource : p source = false := by
              rw [Bool.or_false, Bool.true_and] at h
              exact (Bool.or_eq_false_iff.mp h).1
            rw [hf source hsource]
            rfl

theorem closeAll_sourced (hf : ∀ source, p source = false → f source = source)
    (h : r.keeps p = false) : (r.sourced f).closeAll false = r.closeAll false := by
  have hmany : ∀ k, ∀ r : Reading, r.keeps p = false →
      (r.sourced f).closeMany false k = (r.closeMany false k).sourced f := by
    intro k
    induction k with
    | zero => intro r _; rfl
    | succ k ih =>
        intro r h
        rw [closeMany, closeMany, close_sourced hf h, ih _ (keeps_close h false [])]
  have hlength : (r.sourced f).frames.length = r.frames.length := List.length_map _
  have hnone : (r.closeMany false r.frames.length).frames = [] := r.closeMany_nil rfl
  rw [closeAll, closeAll, hlength, hmany _ r h, sourced, hnone, List.map_nil, ← hnone]

end Closing

section Steps

variable {p : List Token → Bool} {f : List Token → List Token} {r s : Reading} {tail : List Char}
  {t : Token} {ts : List Token}

theorem property_sourced (hf : ∀ source, p source = false → f source = source)
    (hnew : p ts = false) (r : Reading) (tail : List Char) (key : String) :
    (r.sourced f).property tail key ts = (r.property tail key ts).sourced f := by
  cases ts using value_cases with
  | missing => rfl
  | unclosed v vs hopens hblock =>
      rw [property_open _ tail key hopens hblock, property_open _ tail key hopens hblock,
        store_sourced, Step.sourced]
  | block v vs n hopens hblock =>
      rw [property_block _ tail key hopens hblock, property_block _ tail key hopens hblock,
        store_sourced, Step.sourced]
  | object v vs hopens hobject =>
      -- The tokens that a new object keeps are not replaced.
      rw [property_object _ tail key hopens hobject, property_object _ tail key hopens hobject,
        Step.sourced, ← push_sourced, Frame.sourced, hf _ hnew]
  | plain v vs hopens hobject =>
      rw [property_value _ tail key hopens hobject, property_value _ tail key hopens hobject,
        valued_sourced]

theorem declaration_sourced (r : Reading) (f : List Token → List Token) (ts : List Token) :
    (r.sourced f).declaration ts = (r.declaration ts).sourced f := by
  rcases names_split ts with hall | ⟨words, c, cs, rfl, hwords, hc⟩
  · rw [declaration_names _ hall, declaration_names _ hall, Step.sourced]
  · rw [declaration_split _ cs hwords hc, declaration_split _ cs hwords hc]
    split
    · unfold declaredValue
      split
      · rfl
      · rw [store_sourced, Step.sourced]
    · rfl

theorem topLevel_sourced (r : Reading) (f : List Token → List Token) (t : Token)
    (ts : List Token) : (r.sourced f).topLevel t ts = (r.topLevel t ts).sourced f := by
  have hpush : ∀ opened : Frame, opened.sourced f = opened →
      ({ r.sourced f with declared := true } : Reading).push opened
        = (({ r with declared := true } : Reading).push opened).sourced f := by
    intro opened hopened
    rw [← push_sourced, hopened]
    rfl
  unfold topLevel
  split
  · rfl
  split
  · rfl
  split
  · refine congrArg (Step.next · 1 []) (hpush _ ?_)
    split
    all_goals rfl
  split
  · rfl
  · rfl

/-- A statement does the same with other tokens in objects that are not kept. -/
theorem step_sourced (hf : ∀ source, p source = false → f source = source)
    (h : r.keeps p = false) (hnew : p (ts.drop 1) = false) :
    (r.sourced f).step tail t ts = (r.step tail t ts).sourced f := by
  by_cases hframes : r.frames = []
  · rw [step_topLevel hframes, step_topLevel (List.map_eq_nil_iff.mpr hframes), topLevel_sourced]
  · have hsourced : (r.sourced f).frames ≠ [] := fun hnil => hframes (List.map_eq_nil_iff.mp hnil)
    rcases hasForm t ts with ⟨form, hform⟩
    rw [hform.step hframes, hform.step hsourced]
    cases hform with
    | closing => rw [Form.act, Form.act, close_sourced hf h, Step.sourced]
    | group =>
        rw [Form.act, Form.act, groupFields_sourced, Step.sourced, ← push_sourced]
        rfl
    | value => exact property_sourced hf hnew r tail t.text
    | declaration => exact declaration_sourced r f (t :: ts)
    | _ => rfl

/-- No value opens a widget. -/
theorem keeps_property {key : String} {used : Nat} {remarks : List Remark}
    (hstep : r.property tail key ts = .next s used remarks) : s.keeps p = r.keeps p := by
  cases ts using value_cases with
  | missing =>
      rw [← (Step.next.inj hstep).1]
  | unclosed v vs hopens hblock =>
      rw [property_open _ tail key hopens hblock] at hstep
      rw [← (Step.next.inj hstep).1, keeps_store]
  | block v vs n hopens hblock =>
      rw [property_block _ tail key hopens hblock] at hstep
      rw [← (Step.next.inj hstep).1, keeps_store]
  | object v vs hopens hobject =>
      -- The object that is opened holds nothing yet.
      rw [property_object _ tail key hopens hobject] at hstep
      rw [← (Step.next.inj hstep).1]
      rfl
  | plain v vs hopens hobject =>
      rw [property_value _ tail key hopens hobject] at hstep
      exact keeps_valued p hstep

theorem keeps_declaration {used : Nat} {remarks : List Remark}
    (hstep : r.declaration ts = .next s used remarks) : s.keeps p = r.keeps p := by
  rcases names_split ts with hall | ⟨words, c, cs, rfl, hwords, hc⟩
  · rw [declaration_names _ hall] at hstep
    rw [← (Step.next.inj hstep).1]
  · rw [declaration_split _ cs hwords hc] at hstep
    split at hstep
    · unfold declaredValue at hstep
      split at hstep
      · rw [← (Step.next.inj hstep).1]
      · rw [← (Step.next.inj hstep).1, keeps_store]
    · rw [← (Step.next.inj hstep).1]

theorem keeps_topLevel (hframes : r.frames = []) {used : Nat} {remarks : List Remark}
    (hstep : r.topLevel t ts = .next s used remarks) : s.keeps p = r.keeps p := by
  have hnone : r.keeps p = false := by rw [keeps, hframes, keepsAny]
  unfold topLevel at hstep
  split at hstep
  · rw [← (Step.next.inj hstep).1]
  split at hstep
  · rw [← (Step.next.inj hstep).1]
  split at hstep
  · -- A widget is opened, or the window, but in no object.
    rw [← (Step.next.inj hstep).1, hnone, keeps, push]
    simp only [hframes]
    split
    all_goals rfl
  split at hstep
  all_goals rw [← (Step.next.inj hstep).1]

/-- A widget is opened in the innermost block, and that is no such object. -/
theorem keeps_widget (h : r.keeps p = false) (hopens : starts .opening ts = true)
    (hcapital : t.isCapital = true) (hadds : Statement.addsTo p ⟨r, t, ts⟩ = false) (n : Node) :
    (r.push (.node n)).keeps p = false := by
  rw [Statement.addsTo, hcapital, hopens, Bool.true_and, Bool.true_and] at hadds
  obtain ⟨window, roots, declared, frames⟩ := r
  rcases frames with _ | ⟨frame, frames⟩
  · rfl
  · cases frame with
    | object key type properties holds source =>
        have h : ((holds || false) && p source || keepsAny p false frames) = false := h
        have hadds : p source = false := hadds
        have hwidget : ((holds || true) && p source || keepsAny p false frames) = false := by
          rw [hadds, Bool.and_false, Bool.false_or]
          exact (Bool.or_eq_false_iff.mp h).2
        exact hwidget
    | _ => exact h

/-- A statement leaves no object to be kept, unless it opens a widget in it. -/
theorem keeps_step (h : r.keeps p = false) (hadds : Statement.addsTo p ⟨r, t, ts⟩ = false)
    {used : Nat} {remarks : List Remark} (hstep : r.step tail t ts = .next s used remarks) :
    s.keeps p = false := by
  by_cases hframes : r.frames = []
  · rw [step_topLevel hframes] at hstep
    exact (keeps_topLevel hframes hstep).trans h
  · rcases hasForm t ts with ⟨form, hform⟩
    rw [hform.step hframes] at hstep
    cases hform with
    | closing =>
        rw [← (Step.next.inj hstep).1]
        exact keeps_close h false ts
    | ending => exact (Step.next.inj hstep).1 ▸ h
    | nameless => exact (Step.next.inj hstep).1 ▸ h
    | unused => exact (Step.next.inj hstep).1 ▸ h
    | group =>
        rw [← (Step.next.inj hstep).1]
        exact h
    | widget _ hopens hcapital =>
        rw [← (Step.next.inj hstep).1]
        exact keeps_widget h hopens hcapital hadds _
    | value => exact (keeps_property hstep).trans h
    | declaration => exact (keeps_declaration hstep).trans h

/-- What is left of a text leads to the same document with other tokens in objects that are open,
    if no widget is opened in them. -/
theorem outcome_sourced (hf : ∀ source, p source = false → f source = source)
    (h : r.keeps p = false) (hnew : ∀ n, p (ts.drop n) = false)
    (hadds : ∀ st ∈ r.statements tail ts, st.addsTo p = false) :
    (r.sourced f).outcome tail ts = r.outcome tail ts := by
  induction r, ts using run_induction tail with
  | finished r => rw [outcome_nil, outcome_nil, closeAll_sourced hf h]
  | stopped r t ts s hstop =>
      have hstep : (r.sourced f).step tail t ts = (r.step tail t ts).sourced f :=
        step_sourced hf h (hnew 2)
      rw [hstop, Step.sourced] at hstep
      rw [outcome_stop hstep, outcome_stop hstop, closeAll_stopped]
  | next r t ts s used remarks hnext ih =>
      have hstep : (r.sourced f).step tail t ts = (r.step tail t ts).sourced f :=
        step_sourced hf h (hnew 2)
      rw [statements, hnext] at hadds
      have hkeeps := keeps_step h (hadds _ List.mem_cons_self) hnext
      rw [hnext, Step.sourced] at hstep
      rw [outcome_next hstep, outcome_next hnext]
      refine ih hkeeps (fun m => ?_) fun st hst => hadds st (List.mem_cons_of_mem _ hst)
      have hdrop := hnew (used + m + 1)
      rwa [List.drop_succ_cons, ← List.drop_drop] at hdrop

end Steps

end Reading

end Markup

end WidgetSync
