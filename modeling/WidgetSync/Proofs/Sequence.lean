import WidgetSync.Markup.Reader

/-!
# The Sequence of Statements

A text as the statements that the reader meets in it.

`Reading.run` takes one statement after the other and keeps what it has read. Where a
statement stands is known only from that: whether a name is a property of the window or a
widget in a group depends on the blocks that are open there. So a statement is kept together
with what was read before it. `Reading.statements` lists them in order, and `Reading.last` is
what they lead to. The run itself is the last reading with its blocks closed.

A statement about all that has been read so far holds at the end if it holds at the start and
each statement keeps it. `Reading.last_keeps` says so for statements that also speak of those
that were met, which is how the end of a run is compared to what stands in the text.

## Main definitions

* `Statement`: A statement and what has been read before it.
* `Reading.statements`: The statements that the reader meets.
* `Reading.last`: What has been read after the last one.

## Theorems

* `Reading.run_induction`: The induction over the statements of a text.
* `Reading.run_last`: A run ends with the last reading, closed.
* `Reading.last_keeps`: What every statement keeps holds at the end.
-/

namespace WidgetSync

namespace Markup

/-- What has been read when a step is over. -/
def Step.reading : Step → Reading
  | .next r _ _ => r
  | .stop r => r

/-- A statement where the reader meets it. -/
structure Statement where
  /-- What has been read before it. -/
  before : Reading
  /-- Its first token. -/
  first : Token
  /-- The tokens behind that one, up to the end of the text. -/
  rest : List Token

namespace Reading

variable {r : Reading} {tail : List Char} {ts : List Token}

/-- Statement by statement, as the reader goes through the tokens. -/
theorem run_induction (tail : List Char) {motive : Reading → List Token → Prop}
    (finished : ∀ r, motive r [])
    (stopped : ∀ r t ts s, r.step tail t ts = .stop s → motive r (t :: ts))
    (next : ∀ r t ts s used remarks, r.step tail t ts = .next s used remarks →
      motive s (ts.drop used) → motive r (t :: ts)) (r : Reading) (ts : List Token) :
    motive r ts :=
  run.induct tail motive finished stopped next r ts

/-- The statements that the reader meets, in order. The last may be one that stops it. -/
def statements (r : Reading) (tail : List Char) : List Token → List Statement
  | [] => []
  | t :: ts =>
    ⟨r, t, ts⟩ :: match r.step tail t ts with
      | .stop _ => []
      | .next s used _ => statements s tail (ts.drop used)
termination_by ts => ts.length
decreasing_by simp only [List.length_cons, List.length_drop]; omega

/-- What has been read when the tokens are used up or the reader is stopped. The blocks that are
    open then have not been closed. -/
def last (r : Reading) (tail : List Char) : List Token → Reading
  | [] => r
  | t :: ts =>
    match r.step tail t ts with
    | .stop s => s
    | .next s used _ => last s tail (ts.drop used)
termination_by ts => ts.length
decreasing_by simp only [List.length_cons, List.length_drop]; omega

/-- A run ends with the last reading, closed. -/
theorem run_last : (r.run tail ts).reading
    = (r.last tail ts).closeAll (r.run tail ts).stopped := by
  induction r, ts using run_induction tail with
  | finished r => rw [run, last]
  | stopped r t ts s hstop => rw [run, last, hstop]
  | next r t ts s used remarks hnext ih =>
      rw [run, last, hnext]
      exact ih

/-- What every statement keeps, of the statements so far and of what has been read, holds at the
    end. -/
theorem last_keeps {P : List Statement → Reading → Prop}
    (hstep : ∀ past r t ts, P past r → P (past ++ [⟨r, t, ts⟩]) (r.step tail t ts).reading)
    {past : List Statement} (h : P past r) :
    P (past ++ r.statements tail ts) (r.last tail ts) := by
  induction r, ts using run_induction tail generalizing past with
  | finished r => rwa [statements, last, List.append_nil]
  | stopped r t ts s hstop =>
      have hkept := hstep past r t ts h
      rw [hstop] at hkept
      rwa [statements, last, hstop]
  | next r t ts s used remarks hnext ih =>
      have hkept := hstep past r t ts h
      rw [hnext] at hkept
      rw [statements, last, hnext, List.append_cons]
      exact ih hkept

end Reading

/-- The tokens start an object. -/
def opensObject : List Token → Bool
  | [] => false
  | v :: us => v.isCapital && starts .opening us

/-- The statements that the reader meets in a text. -/
def statements (s : Settings) (source : String) : List Statement :=
  Reading.statements { window := .usual s } (scan source.toList).tail (scan source.toList).tokens

end Markup

end WidgetSync
