import WidgetSync.Proofs.Literals
import WidgetSync.Text.Replace

/-!
# Texts in Quotes

A quoted text ends where it ends, and is read as the text.

The escapes of a literal can be put in one after the other, each over the whole text: backslashes
first, then quotes, line feeds, carriage returns and tabs. Each of these turns also sees what the
turns before it wrote. They write backslashes, quotes and letters, and the only turns that would
change these again are over by then, so all turns together do what one pass over the characters
does. The order matters for the backslash alone.

What reads a literal is another matter. The scanner looks for the closing quote and steps over each
backslash together with the character behind it; the reader of literals goes the same way and
decodes. Both are in step with the pass that wrote the escapes, character by character, so neither
is misled by what the text contains or by what stands behind the literal.

## Main definitions

* `escapes`: The characters that are escaped, and how.
* `escapedInTurn`: A text with one escape put in after the other.

## Theorems

* `Text.replaceAll_singleton`: Replacing a character is done character by character.
* `escapedInTurn_eq`: The turns are one pass.
* `quote_delimits`: A quoted text is one token and stands for the text.
-/

namespace WidgetSync

namespace Text

/-- Replacing a character is done character by character. -/
theorem replaceAll_singleton (c : Char) (new cs : List Char) :
    replaceAll [c] new cs = cs.flatMap fun d => if d = c then new else [d] := by
  simp only [replaceAll]
  induction cs with
  | nil => simp only [replacePart, List.flatMap_nil]
  | cons d cs ih =>
      rw [replacePart, List.flatMap_cons]
      by_cases h : d = c
      · subst h
        simp [ih]
      · have hcd : ¬c = d := fun heq => h heq.symm
        simp [h, hcd, ih]

end Text

namespace Markup

/-- The characters that are escaped in a literal, in the order of their turns, and what stands
    for each of them. -/
def escapes : List (Char × List Char) :=
  [('\\', ['\\', '\\']), ('"', ['\\', '"']), ('\n', ['\\', 'n']), ('\r', ['\\', 'r']),
    ('\t', ['\\', 't'])]

/-- The characters of a text with one escape put in after the other. -/
def escapedInTurn (cs : List Char) : List Char :=
  escapes.foldl (fun text e => Text.replaceAll [e.1] e.2 text) cs

/-- The turns are one pass. -/
theorem escapedInTurn_eq (cs : List Char) : escapedInTurn cs = cs.flatMap escaped := by
  simp only [escapedInTurn, escapes, List.foldl_cons, List.foldl_nil, Text.replaceAll_singleton,
    List.flatMap_assoc]
  -- What is left is a statement about one character and the turns it goes through.
  congr 1
  funext c
  by_cases hbackslash : c = '\\'
  · subst hbackslash
    decide
  by_cases hquote : c = '"'
  · subst hquote
    decide
  by_cases hline : c = '\n'
  · subst hline
    decide
  by_cases hreturn : c = '\r'
  · subst hreturn
    decide
  by_cases htab : c = '\t'
  · subst htab
    decide
  simp [escaped, hbackslash, hquote, hline, hreturn, htab]

/-- A quoted text is one token that spans it exactly, whatever follows. It stands for the text,
    by itself and marked as localized. -/
theorem quote_delimits (text behind : String) :
    (quote text).toList = '"' :: (escapedInTurn text.toList ++ ['"']) ∧
      (spans (scan (quote text ++ behind).toList).tokens).head?
        = some (⟨.string, [], (quote text).toList⟩, 0, (quote text).length) ∧
      stringLiteral? (quote text) = some text ∧
      stringLiteral? ("qsTr(" ++ quote text ++ ")") = some text := by
  have hscan : (scan (quote text ++ behind).toList).tokens
      = ⟨.string, [], (quote text).toList⟩ :: (scan behind.toList).tokens := by
    rw [String.toList_append, quote_toList, lexes_quoted]
    rfl
  refine ⟨?_, ?_, stringLiteral?_quote text, stringLiteral?_localized text⟩
  · rw [escapedInTurn_eq, quote_toList, quotedText]
  · rw [hscan, spans, spansFrom, List.head?_cons]
    simp [String.length_toList]

/-- What looks like an escape in the text gets a backslash more, and so is none in quotes. -/
example : quote "\\u0041" = "\"\\\\u0041\"" := by decide

end Markup

end WidgetSync
