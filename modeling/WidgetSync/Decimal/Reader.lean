import WidgetSync.Decimal.Shortest
import WidgetSync.Text.Blank
import WidgetSync.Text.Digit

/-!
# Reading Numbers

Numbers from the digits of a text.

Integers have any size up to a limit on the number of their digits, which keeps
a hostile text from costing more than its length. A decimal is rounded to the
nearest double; beyond the range of doubles it becomes infinite or zero, and
that is decided before the power of ten is computed.

## Main definitions

* `digitLimit`: The greatest number of digits of an integer.
* `readInteger?`: An integer with sign, blanks around it and grouped digits.
* `rounded`: The double closest to a decimal.
* `exactly`: A finite double as a quotient of integers.
-/

namespace WidgetSync

namespace Decimal

/-- The greatest number of digits an integer may be read from or written with. -/
def digitLimit : Nat := 4300

/-- Blanks that may stand around an integer: white space other than the four
    separators from U+001C to U+001F. -/
def isPadding (c : Char) : Bool :=
  Text.isBlank c && !(0x1C ≤ c.toNat && c.toNat ≤ 0x1F)

/-- The text without the padding around it. -/
def unpadded (cs : List Char) : List Char :=
  ((cs.dropWhile isPadding).reverse.dropWhile isPadding).reverse

/-- The digits of a run in which single underscores may stand between two digits. -/
def groupedDigits? : List Char → Option (List Char)
  | [] => none
  | [c] => if Text.isDigit c then some [c] else none
  | c :: '_' :: cs => if Text.isDigit c then (groupedDigits? cs).map (c :: ·) else none
  | c :: cs => if Text.isDigit c then (groupedDigits? cs).map (c :: ·) else none

/-- The number that grouped digits stand for, within the limit. -/
def readNatural? (cs : List Char) : Option Nat :=
  match groupedDigits? cs with
  | some ds => if ds.length ≤ digitLimit then some (Text.digitsValue ds) else none
  | none => none

/-- An integer: padding, a sign or none, grouped digits, padding. -/
def readInteger? (cs : List Char) : Option Int :=
  match unpadded cs with
  | '-' :: ds => (readNatural? ds).map fun n => -(n : Int)
  | '+' :: ds => (readNatural? ds).map fun n => (n : Int)
  | ds => (readNatural? ds).map fun n => (n : Int)

/-- The double closest to `digits * 10 ^ exponent`, negated if asked for. -/
def rounded (negative : Bool) (digits : Nat) (exponent : Int) : Float :=
  let size := (digitCount digits : Int) + exponent
  let magnitude : Float :=
    if digits = 0 ∨ size < -330 then 0.0
    else if 320 < size then 1.0 / 0.0
    else Float.ofScientific digits (decide (exponent < 0)) exponent.natAbs
  if negative then -magnitude else magnitude

/-- The double closest to the decimal with the given digits before and after the
    point and the given power of ten. -/
def ofParts (negative : Bool) (whole places : List Char) (exponent : Int) : Float :=
  rounded negative (Text.digitsValue (whole ++ places)) (exponent - places.length)

/-- The double closest to an integer; none is close enough to one beyond the
    range of doubles. -/
def ofInteger? (n : Int) : Option Float :=
  let x := rounded (decide (n < 0)) n.natAbs 0
  if x.isInf then none else some x

/-- A finite double as a quotient of an integer and a positive natural number. -/
def exactly (x : Float) : Int × Nat :=
  let (num, den) := (Binary.ofBits x.toBits).quotient
  (if x.toBits >>> 63 == 1 then -(num : Int) else num, den)

/-- A finite double without its places after the point. -/
def truncated (x : Float) : Int :=
  let (num, den) := exactly x
  num.tdiv den

/-- Compares an integer with a finite double, exactly. -/
def compareInteger (n : Int) (x : Float) : Ordering :=
  let (num, den) := exactly x
  compare (n * den) num

end Decimal

end WidgetSync
