/-!
# Replacing Parts of a Text

A part of a text is replaced wherever it occurs, from left to right; occurrences
do not overlap. The empty part occurs before every character and at the end.

## Main definitions

* `Text.replaceAll`: A text with a part replaced.
-/

namespace WidgetSync

namespace Text

/-- The text with every occurrence of a part that is not empty replaced. -/
def replacePart (c : Char) (part new : List Char) : List Char → List Char
  | [] => []
  | d :: cs =>
    if (c :: part).isPrefixOf (d :: cs) then new ++ replacePart c part new (cs.drop part.length)
    else d :: replacePart c part new cs
termination_by cs => cs.length
decreasing_by all_goals simp only [List.length_cons, List.length_drop]; omega

/-- The text with every occurrence of a part replaced. -/
def replaceAll (part new cs : List Char) : List Char :=
  match part with
  | [] => new ++ cs.flatMap fun c => c :: new
  | c :: part => replacePart c part new cs

end Text

end WidgetSync
