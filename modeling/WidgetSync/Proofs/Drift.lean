import WidgetSync.Proofs.Braces

/-!
# Code Does Not Drift

The code of a handler stays where it is however often it is written and read.

Written in a block, code moves to the right by the indentation of the place where it
stands. It does not move back by that amount when it is read: the reader does not know the
place, and takes off what all lines have in common. That the two come to the same is
due to the normal form. Code in normal form has nothing in common at the start of its
lines, so what they have in common in a block is the indentation of the block, and
tabs, deeper lines and empty lines in between stay as they are.

Each round of writing and reading may be at another depth. None of them changes the
code, so no number of them does.

## Main definitions

* `reread`: Code that was written in a block at a depth and read again.

## Theorems

* `reread_handlerCode`: One round leaves code in normal form as it is.
* `code_stays_put`: So does every run of rounds, and this is what the writer does.
-/

namespace WidgetSync

namespace Markup

/-- The code that is read of a block at a depth with some code in it. -/
def reread (code : List Char) (depth : Nat) : List Char :=
  handlerCode (blockBody depth code)

/-- Code in normal form is read as it was written. -/
theorem reread_handlerCode (inner : List Char) (depth : Nat) :
    reread (handlerCode inner) depth = handlerCode inner := by
  rcases handlerCode_normal inner with ⟨ls, hls, hnormal⟩
  rw [reread, hls, blockBody_eq_blockInside depth hnormal.trimmed_lines, handlerCode_block hnormal]

/-- Every run of rounds leaves it as it is. -/
theorem foldl_reread (inner : List Char) (depths : List Nat) :
    depths.foldl reread (handlerCode inner) = handlerCode inner := by
  induction depths with
  | nil => rfl
  | cons depth depths ih => rw [List.foldl_cons, reread_handlerCode, ih]

/-- The code of a handler, whatever stood between the braces, is its own normal form, and it
    is so again when it is written at any depth and read, once or any number of times. What is
    read then is what the writer writes between the braces of a handler in a block. -/
theorem code_stays_put (inner : List Char) :
    handlerCode (handlerCode inner) = handlerCode inner ∧
    (∀ depth, handlerCode (blockBody depth (handlerCode inner)) = handlerCode inner) ∧
    (∀ depths : List Nat, depths.foldl reread (handlerCode inner) = handlerCode inner) ∧
    ∀ (depth : Nat) (name : String) (block : Value),
      block.truth = true ∨ '\n' ∈ handlerCode inner →
      ∃ lines, handlerLines depth name (.text (String.ofList (handlerCode inner))) block = .ok lines ∧
        linesText lines
          = valueLine depth name ('\x7b' :: (blockBody depth (handlerCode inner) ++ ['\x7d'])) := by
  refine ⟨?_, reread_handlerCode inner, foldl_reread inner, fun depth name block hblock => ?_⟩
  · rcases handlerCode_normal inner with ⟨ls, hls, hnormal⟩
    rw [hls, handlerCode_unlines hnormal]
  · refine ⟨_, handlerLines_block depth name _ (hblock.imp id fun hline => ?_), ?_⟩
    · rwa [String.toList_ofList]
    · rw [linesText_codeLines, String.toList_ofList]

/-- Lines that begin with a tab and with spaces, with an empty line and a deeper one among them,
    blanks at their ends and blank lines around them. -/
def sampleCode : List Char :=
  " \n\t  if (a) \x7b \n\n\t      b()\n\t  \x7d\t\n   \n".toList

/-- The sample loses its margin, and nothing more at depth two. -/
theorem sampleCode_stays :
    handlerCode sampleCode = "if (a) \x7b\n\n    b()\n\x7d".toList ∧
    handlerCode (blockBody 2 (handlerCode sampleCode)) = handlerCode sampleCode ∧
    ∃ lines, handlerLines 2 "onClicked" (.text (String.ofList (handlerCode sampleCode)))
        (.bool false) = .ok lines ∧
      linesText lines = valueLine 2 "onClicked"
        ('\x7b' :: (blockBody 2 (handlerCode sampleCode) ++ ['\x7d'])) := by
  have hform : handlerCode sampleCode = "if (a) \x7b\n\n    b()\n\x7d".toList := by decide +kernel
  have hline : '\n' ∈ handlerCode sampleCode := by
    rw [hform]
    decide
  have h := code_stays_put sampleCode
  exact ⟨hform, h.2.1 2, h.2.2.2 2 "onClicked" (.bool false) (.inr hline)⟩

end Markup

end WidgetSync
