import WidgetSync.Text.Lines

/-!
# Handler Code

The normal form of code that stands between braces.

The writer indents such code by the depth at which it stands, and the reader has
to undo that, or the code would drift to the right with every round. The normal
form has no blanks at the ends of lines, no blank lines at its ends and no
common margin.

## Main definitions

* `handlerCode`: The normal form of the text between braces.
-/

namespace WidgetSync

namespace Markup

/-- The lines without the empty ones they start with. -/
def dropEmptyLines (ls : List (List Char)) : List (List Char) :=
  ls.dropWhile List.isEmpty

/-- The lines without the empty ones at either end. -/
def trimLines (ls : List (List Char)) : List (List Char) :=
  (dropEmptyLines (dropEmptyLines ls).reverse).reverse

/-- The normal form of the text between the braces of a handler. -/
def handlerCode (inner : List Char) : List Char :=
  Text.unlines (Text.dedent (trimLines ((Text.lines inner).map Text.trimEnd)))

end Markup

end WidgetSync
