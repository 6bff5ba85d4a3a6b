import WidgetSync.Text.CharClass

/-!
# Blank Characters

White space, and removing it from the ends of a text.

A character is blank when the standard gives it the property of white space or
when it is one of the four separators from U+001C to U+001F: twenty-nine
characters in all. The same class decides what is trimmed, what counts as a
blank line and where a text stops being indentation.

## Main definitions

* `isBlank`: The class.
* `trimStart`, `trimEnd`, `trim`: A text without blanks at its ends.

## Theorems

* `isBlank_of_isWhitespace`: The class contains the four characters that the
  standard library calls white space.
-/

namespace WidgetSync

namespace Text

/-- White space: the property of the standard and the four separators. -/
def blank : CharClass where
  changes :=
   [0x9, 0xE, 0x1C, 0x21, 0x85, 0x86, 0xA0, 0xA1, 0x1680, 0x1681, 0x2000, 0x200B, 0x2028, 0x202A,
   0x202F, 0x2030, 0x205F, 0x2060, 0x3000, 0x3001]

/-- The character is white space. -/
def isBlank (c : Char) : Bool :=
  blank.contains c

/-- What the standard library calls white space is blank. -/
theorem isBlank_of_isWhitespace (c : Char) (h : c.isWhitespace = true) :
    isBlank c = true := by
  simp only [Char.isWhitespace, Bool.or_eq_true, decide_eq_true_eq] at h
  rcases h with ((h | h) | h) | h <;> subst h <;> decide

/-- The text without the blanks it starts with. -/
def trimStart (cs : List Char) : List Char :=
  cs.dropWhile isBlank

/-- The text without the blanks it ends with. -/
def trimEnd (cs : List Char) : List Char :=
  (cs.reverse.dropWhile isBlank).reverse

/-- The text without blanks at either end. -/
def trim (cs : List Char) : List Char :=
  trimEnd (trimStart cs)

end Text

end WidgetSync
