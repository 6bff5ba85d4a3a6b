import WidgetSync.Markup.Reader

/-!
# The Forms of a Statement

What kinds of statements stand inside a block, and how the reader tells them apart.

Inside a block the reader looks at one token, and at the kind of the one behind it. That decides
which of seven things it does, and it does not matter what has been read so far: the token closes
the block, or ends a line, or opens a widget or a group, or is the name of a value or the start of
a declaration, or else the statement is skipped. So the form belongs to the tokens, and the action
to the form. `HasForm` gives one case for each way the tests can come out, with what is known about
the tokens there, and proofs about the statements of a block are by cases on it. Where two readings
are compared, on tokens that start alike, the form is found once for both.

## Main definitions

* `Form`: The forms of a statement inside a block.
* `Form.act`: What the reader does about a statement of the form.
* `HasForm`: The tokens start a statement of the form.

## Theorems

* `hasForm`: Every statement has a form.
* `HasForm.member`: The form decides what is done.
* `HasForm.congr`: The form is the same in front of tokens that start alike.
-/

namespace WidgetSync

namespace Markup

/-- The forms of a statement inside a block. -/
inductive Form where
  /-- The brace that closes the block. -/
  | closing
  /-- The end of a line, or a semicolon. -/
  | ending
  /-- A widget is opened. -/
  | widget
  /-- A group is opened. -/
  | group
  /-- A value is assigned. -/
  | value
  /-- Something is declared, as far as the first word tells. -/
  | declaration
  /-- Nothing that means anything. -/
  | stray

/-- What the reader does about a statement of the form. -/
def Form.act (r : Reading) (tail : List Char) (t : Token) (ts : List Token) : Form → Step
  | .closing => .next (r.close false ts) 0 []
  | .ending => .next r 0 []
  | .widget => .next (r.push (.node (Node.ofType t.text))) 1 []
  | .group => .next (r.push (.group t.text (r.groupFields t.text))) 1 []
  | .value => r.property tail t.text (ts.drop 1)
  | .declaration => r.declaration (t :: ts)
  | .stray => r.skip t ts

/-- A token in front of others starts a statement of the form. -/
inductive HasForm (t : Token) (ts : List Token) : Form → Prop
  | closing (h : t.kind = .closing) : HasForm t ts .closing
  | ending (h : t.kind = .newline ∨ t.kind = .semicolon) : HasForm t ts .ending
  /-- It starts with no name. -/
  | nameless (hcloses : t.kind ≠ .closing) (hends : ¬(t.kind = .newline ∨ t.kind = .semicolon))
      (hname : t.kind ≠ .name) : HasForm t ts .stray
  | widget (hname : t.kind = .name) (hopens : starts .opening ts = true)
      (hcapital : t.isCapital = true) : HasForm t ts .widget
  | group (hname : t.kind = .name) (hopens : starts .opening ts = true)
      (hcapital : t.isCapital = false) : HasForm t ts .group
  | value (hname : t.kind = .name) (hcolon : starts .colon ts = true) : HasForm t ts .value
  | declaration (hname : t.kind = .name) (hopens : starts .opening ts = false)
      (hcolon : starts .colon ts = false) (hdeclares : declarationWords.contains t.text = true) :
      HasForm t ts .declaration
  /-- It starts with a name, and what follows makes nothing of it. -/
  | unused (hname : t.kind = .name) (hopens : starts .opening ts = false)
      (hcolon : starts .colon ts = false) (hdeclares : declarationWords.contains t.text = false) :
      HasForm t ts .stray

variable {r : Reading} {t : Token} {ts us : List Token} {form : Form}

/-- A token is of one kind. -/
theorem starts_of_ne {kind another : Kind} (h : starts kind ts = true) (hne : kind ≠ another) :
    starts another ts = false := by
  cases ts with
  | nil => rfl
  | cons t ts =>
      rw [starts, beq_iff_eq] at h
      rw [starts, h, beq_eq_false_iff_ne]
      exact hne

/-- Every statement has a form. -/
theorem hasForm (t : Token) (ts : List Token) : ∃ form, HasForm t ts form := by
  by_cases hcloses : t.kind = .closing
  · exact ⟨_, .closing hcloses⟩
  by_cases hends : t.kind = .newline ∨ t.kind = .semicolon
  · exact ⟨_, .ending hends⟩
  by_cases hname : t.kind = .name
  · cases hopens : starts .opening ts with
    | true =>
        cases hcapital : t.isCapital with
        | true => exact ⟨_, .widget hname hopens hcapital⟩
        | false => exact ⟨_, .group hname hopens hcapital⟩
    | false =>
        cases hcolon : starts .colon ts with
        | true => exact ⟨_, .value hname hcolon⟩
        | false =>
            cases hdeclares : declarationWords.contains t.text with
            | true => exact ⟨_, .declaration hname hopens hcolon hdeclares⟩
            | false => exact ⟨_, .unused hname hopens hcolon hdeclares⟩
  · exact ⟨_, .nameless hcloses hends hname⟩

/-- Behind a name, what follows it tells the forms apart, and then the name itself. -/
theorem Reading.member_name (hname : t.kind = .name) (tail : List Char) :
    r.member tail t ts =
      if starts .opening ts then
        if t.isCapital then .next (r.push (.node (Node.ofType t.text))) 1 []
        else .next (r.push (.group t.text (r.groupFields t.text))) 1 []
      else if starts .colon ts then r.property tail t.text (ts.drop 1)
      else if declarationWords.contains t.text then r.declaration (t :: ts)
      else r.skip t ts := by
  simp only [member, hname, reduceCtorEq, or_self, if_false, ne_eq, not_true_eq_false]

/-- The form decides what is done. -/
theorem HasForm.member (h : HasForm t ts form) (r : Reading) (tail : List Char) :
    r.member tail t ts = form.act r tail t ts := by
  cases h with
  | closing h => rw [Reading.member, if_pos h, Form.act]
  | ending h =>
      have hcloses : t.kind ≠ .closing := by
        rcases h with h | h
        all_goals
          rw [h]
          exact Kind.noConfusion
      rw [Reading.member, if_neg hcloses, if_pos h, Form.act]
  | nameless hcloses hends hname =>
      rw [Reading.member, if_neg hcloses, if_neg hends, if_pos hname, Form.act]
  | widget hname hopens hcapital =>
      rw [Reading.member_name hname, if_pos hopens, if_pos hcapital, Form.act]
  | group hname hopens hcapital =>
      rw [Reading.member_name hname, if_pos hopens, if_neg (Bool.eq_false_iff.mp hcapital),
        Form.act]
  | value hname hcolon =>
      have hopens : starts .opening ts = false := starts_of_ne hcolon Kind.noConfusion
      rw [Reading.member_name hname, if_neg (Bool.eq_false_iff.mp hopens), if_pos hcolon, Form.act]
  | declaration hname hopens hcolon hdeclares =>
      rw [Reading.member_name hname, if_neg (Bool.eq_false_iff.mp hopens),
        if_neg (Bool.eq_false_iff.mp hcolon), if_pos hdeclares, Form.act]
  | unused hname hopens hcolon hdeclares =>
      rw [Reading.member_name hname, if_neg (Bool.eq_false_iff.mp hopens),
        if_neg (Bool.eq_false_iff.mp hcolon), if_neg (Bool.eq_false_iff.mp hdeclares), Form.act]

theorem Reading.step_member (hframes : r.frames ≠ []) (tail : List Char) (t : Token)
    (ts : List Token) : r.step tail t ts = r.member tail t ts := by
  rw [step, if_neg (by rw [List.isEmpty_iff]; exact hframes)]

theorem Reading.step_topLevel (hframes : r.frames = []) (tail : List Char) (t : Token)
    (ts : List Token) : r.step tail t ts = r.topLevel t ts := by
  rw [step, if_pos (by rw [hframes]; rfl)]

theorem HasForm.step (h : HasForm t ts form) (hframes : r.frames ≠ []) (tail : List Char) :
    r.step tail t ts = form.act r tail t ts := by
  rw [Reading.step_member hframes, h.member]

/-- Of what stands behind the token, only the start matters. -/
theorem HasForm.congr (h : HasForm t ts form)
    (hopens : starts .opening us = starts .opening ts)
    (hcolon : starts .colon us = starts .colon ts) : HasForm t us form := by
  cases h with
  | closing h => exact .closing h
  | ending h => exact .ending h
  | nameless hcloses hends hname => exact .nameless hcloses hends hname
  | widget hname h hcapital => exact .widget hname (hopens.trans h) hcapital
  | group hname h hcapital => exact .group hname (hopens.trans h) hcapital
  | value hname h => exact .value hname (hcolon.trans h)
  | declaration hname h hno hdeclares =>
      exact .declaration hname (hopens.trans h) (hcolon.trans hno) hdeclares
  | unused hname h hno hdeclares =>
      exact .unused hname (hopens.trans h) (hcolon.trans hno) hdeclares

end Markup

end WidgetSync
