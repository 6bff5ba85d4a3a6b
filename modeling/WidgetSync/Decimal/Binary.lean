/-!
# Binary Floating-Point Numbers, Exactly

A finite double as an integer times a power of two, and exact comparison with
decimals.

Every question about which decimal stands for a double is a question about
natural numbers: the double is `significand * 2 ^ exponent`, and the reals that
are rounded to it form an interval whose ends are halfway to its neighbours.
Comparing a decimal with such an end multiplies both sides out.

## Main definitions

* `Binary`: A finite non-negative double.
* `Binary.ofBits`: The number that a bit pattern stands for.
* `twoTo`, `tenTo`: Powers of the two bases.
* `compareScaled`: Comparison of a decimal with a multiple of a power of two.
* `Binary.readsBack`: A decimal is rounded to this double.
-/

namespace WidgetSync

namespace Decimal

/-- A finite non-negative double, `significand * 2 ^ exponent`. -/
structure Binary where
  /-- The integer factor. -/
  significand : Nat
  /-- The power of two. -/
  exponent : Int
  /-- The neighbour below is half as far away as the neighbour above. -/
  narrowBelow : Bool

/-- The magnitude of a bit pattern that stands for a finite number. -/
def Binary.ofBits (bits : UInt64) : Binary :=
  let biased := ((bits >>> 52) &&& 0x7FF).toNat
  let fraction := (bits &&& 0xFFFFFFFFFFFFF).toNat
  if biased = 0 then ⟨fraction, -1074, false⟩
  else ⟨0x10000000000000 + fraction, (biased : Int) - 1075, fraction == 0 && decide (1 < biased)⟩

/-- A decimal, `digits * 10 ^ exponent`. -/
structure Digits where
  /-- The digits, read as a number. -/
  digits : Nat
  /-- The power of ten. -/
  exponent : Int
deriving DecidableEq, Repr

/-- The power of two with an exponent; one if the exponent is below zero. -/
def twoTo (e : Int) : Nat :=
  Nat.pow 2 e.toNat

/-- The power of ten with an exponent; one if the exponent is below zero. -/
def tenTo (e : Int) : Nat :=
  Nat.pow 10 e.toNat

/-- Compares `a * 10 ^ i` with `n * 2 ^ j`. Powers below one go to the other side. -/
def compareScaled (a : Nat) (i : Int) (n : Nat) (j : Int) : Ordering :=
  compare (a * tenTo i * twoTo (-j)) (n * twoTo j * tenTo (-i))

/-- The decimal lies among the reals that are rounded to the double: between the
    points halfway to the neighbours, ends included when the significand is even. -/
def Binary.readsBack (x : Binary) (d : Digits) : Bool :=
  let low := if x.narrowBelow then 4 * x.significand - 1 else 4 * x.significand - 2
  let high := 4 * x.significand + 2
  let closed := x.significand % 2 == 0
  let fromLow := compareScaled d.digits d.exponent low (x.exponent - 2)
  let toHigh := compareScaled d.digits d.exponent high (x.exponent - 2)
  (fromLow == .gt || (closed && fromLow == .eq)) && (toHigh == .lt || (closed && toHigh == .eq))

/-- The double as a quotient of natural numbers. -/
def Binary.quotient (x : Binary) : Nat × Nat :=
  (x.significand * twoTo x.exponent, twoTo (-x.exponent))

/-- The greatest multiple of `10 ^ e` that is not above the double, counted in
    these units. -/
def Binary.floorAt (x : Binary) (e : Int) : Nat :=
  let (num, den) := x.quotient
  (num * tenTo (-e)) / (den * tenTo e)

end Decimal

end WidgetSync
