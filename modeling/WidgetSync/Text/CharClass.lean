/-!
# Classes of Characters

A class of characters as data: the code points at which membership changes.

A property of characters fixed by the character standard is a long list of
ranges. Written as the ascending list of the code points where the property
switches on or off, it is half as long as a list of pairs, and a lookup is a
walk that stops as soon as the code point is passed. The tables of this folder
follow version 14 of the standard.

## Main definitions

* `CharClass`: A class, given by its changes.
* `CharClass.contains`: Membership.
-/

namespace WidgetSync

namespace Text

/-- A class of characters, given in ascending order by the code points at which
    membership changes. The first entry is the first member. -/
structure CharClass where
  /-- Where membership changes. -/
  changes : List Nat

/-- Whether the number of changes at or below a code point is odd. -/
def oddChanges : List Nat → Nat → Bool
  | [], _ => false
  | b :: bs, n => if n < b then false else !oddChanges bs n

/-- A character belongs to the class when an odd number of changes has happened
    up to its code point. -/
def CharClass.contains (k : CharClass) (c : Char) : Bool :=
  oddChanges k.changes c.toNat

end Text

end WidgetSync
