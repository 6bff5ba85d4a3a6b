import WidgetSync.Text.Blank

/-!
# Lines and Margins

A text as the list of its lines, and the margin that lines share.

Only the line feed ends a line here. The margin of some lines is the longest
run of spaces and tabs that every line with content starts with; a tab and a
space are different characters, so lines that are indented in different ways
share only the part in which they agree.

## Main definitions

* `lines`, `unlines`: A text and its lines.
* `margin`: The indentation that all lines with content share.
* `dedent`: Lines without their margin.
* `unifyLineEnds`: A text in which every line ends in a line feed.

## Theorems

* `unlines_lines`: The lines of a text, joined again, are the text.
-/

namespace WidgetSync

namespace Text

/-- The lines of a text: the stretches between its line feeds. -/
def lines : List Char → List (List Char)
  | [] => [[]]
  | c :: cs =>
    if c = '\n' then [] :: lines cs
    else
      match lines cs with
      | [] => [[c]]
      | l :: ls => (c :: l) :: ls

/-- The text with the given lines. -/
def unlines : List (List Char) → List Char
  | [] => []
  | [l] => l
  | l :: ls => l ++ '\n' :: unlines ls

/-- A text has at least one line. -/
theorem lines_ne_nil (cs : List Char) : lines cs ≠ [] := by
  cases cs with
  | nil => simp [lines]
  | cons c cs =>
      simp only [lines]
      split
      · simp
      · split <;> simp

/-- Joining the lines of a text gives the text. -/
theorem unlines_lines (cs : List Char) : unlines (lines cs) = cs := by
  induction cs with
  | nil => rfl
  | cons c cs ih =>
      simp only [lines]
      split
      · rename_i h
        subst h
        cases hl : lines cs with
        | nil => exact absurd hl (lines_ne_nil cs)
        | cons l ls =>
            have step : unlines ([] :: l :: ls) = '\n' :: unlines (l :: ls) := by simp [unlines]
            rw [step, ← hl, ih]
      · split
        · rename_i hl
          exact absurd hl (lines_ne_nil cs)
        · rename_i l ls hl
          rw [hl] at ih
          cases ls with
          | nil => simpa [unlines] using ih
          | cons m ms => simpa [unlines] using ih

/-- The characters that indentation consists of. -/
def isIndent (c : Char) : Bool :=
  c == ' ' || c == '\t'

/-- The longest text that two texts both start with. -/
def commonStart : List Char → List Char → List Char
  | a :: as, b :: bs => if a = b then a :: commonStart as bs else []
  | _, _ => []

/-- The indentation shared by all lines that hold more than indentation. -/
def margin (ls : List (List Char)) : List Char :=
  match (ls.filter fun l => !l.all isIndent).map fun l => l.takeWhile isIndent with
  | [] => []
  | i :: is => is.foldl commonStart i

/-- The lines without their margin. A line of indentation only becomes empty. -/
def dedent (ls : List (List Char)) : List (List Char) :=
  ls.map fun l => if l.all isIndent then [] else l.drop (margin ls).length

/-- The text with a line feed for every line end, be it a line feed, a carriage
    return or both. -/
def unifyLineEnds : List Char → List Char
  | '\r' :: '\n' :: cs => '\n' :: unifyLineEnds cs
  | c :: cs => (if c = '\r' then '\n' else c) :: unifyLineEnds cs
  | [] => []

end Text

end WidgetSync
