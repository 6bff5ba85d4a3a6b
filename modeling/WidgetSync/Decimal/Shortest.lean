import WidgetSync.Decimal.Binary

/-!
# Shortest Decimals

The decimal that stands for a double in a text: the fewest digits that read
back, and of these the closest.

For one digit, two digits and so on the double is compared with its two
neighbours on the grid of decimals with that many digits. The first grid with a
neighbour that reads back decides. If both do, the closer one is taken, and an
exact tie goes to the even one. Seventeen digits are enough for every double.

## Main definitions

* `scale`: The position of the leading digit.
* `closest?`: The neighbour on one grid.
* `shortest`: The decimal that stands for a double.
-/

namespace WidgetSync

namespace Decimal

/-- The number of decimal digits. -/
def digitCount (n : Nat) : Nat :=
  (Nat.toDigits 10 n).length

/-- The least power of ten above a positive double. -/
def scale (x : Binary) : Int :=
  let (num, den) := x.quotient
  if den ≤ num then digitCount (num / den) else 1 - (digitCount ((den - 1) / num) : Int)

/-- The neighbour of the double on the grid of multiples of `10 ^ e` that reads
    back, the closer one if both do, and on a tie the even one. -/
def closest? (x : Binary) (e : Int) : Option Digits :=
  let below : Digits := ⟨x.floorAt e, e⟩
  let above : Digits := ⟨x.floorAt e + 1, e⟩
  match x.readsBack below, x.readsBack above with
  | true, true =>
    match compareScaled (2 * below.digits + 1) e (2 * x.significand) x.exponent with
    | .gt => some below
    | .lt => some above
    | .eq => some (if below.digits % 2 = 0 then below else above)
  | true, false => some below
  | false, true => some above
  | false, false => none

/-- The same decimal without zeros at the end, at most `k` of them. -/
def dropZeros : Nat → Digits → Digits
  | 0, d => d
  | k + 1, d => if d.digits % 10 = 0 then dropZeros k ⟨d.digits / 10, d.exponent + 1⟩ else d

/-- The double itself as a decimal. -/
def exact (x : Binary) : Digits :=
  ⟨x.significand * twoTo x.exponent * Nat.pow 5 (-x.exponent).toNat, min x.exponent 0⟩

/-- The decimal that stands for a positive double. -/
def shortest (x : Binary) : Digits :=
  let k := scale x
  let found := (List.range 17).findSome? fun (n : Nat) => closest? x (k - ((n : Int) + 1))
  let d := found.getD (exact x)
  dropZeros (digitCount d.digits - 1) d

end Decimal

end WidgetSync
