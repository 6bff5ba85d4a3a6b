import WidgetSync.Decimal.Shortest

/-!
# How Numbers Are Written

The text of a double: its shortest decimal, laid out.

A number whose leading digit stands between the fourth place after the point
and the sixteenth before it is written positionally, always with a point. Any
other number is written with an exponent that has a sign and at least two
digits. The names of the values that are no numbers differ from format to
format, so they are parameters.

## Main definitions

* `Layout`: What a format decides.
* `Layout.write`: The text of a double.
-/

namespace WidgetSync

namespace Decimal

/-- What a format decides about the text of a double. -/
structure Layout where
  /-- The least exponent of the leading digit that is written positionally. -/
  plainFrom : Int := -4
  /-- The least exponent above it that is not. -/
  plainBelow : Int := 16
  /-- The name of the undefined value. -/
  undefined : String
  /-- The name of the value beyond all numbers. -/
  infinity : String

/-- Digits with a point so that the leading one has the given exponent. -/
def positional (ds : List Char) (leading : Int) : List Char :=
  if leading < 0 then '0' :: '.' :: (List.replicate ((-leading).toNat - 1) '0' ++ ds)
  else
    let whole := leading.toNat + 1
    let padding := List.replicate (whole - ds.length) '0'
    let places := ds.drop whole
    ds.take whole ++ padding ++ '.' :: (if places.isEmpty then ['0'] else places)

/-- Digits with a point after the first and the exponent behind. -/
def scientific (ds : List Char) (leading : Int) : List Char :=
  let mantissa :=
    match ds with
    | d :: e :: es => d :: '.' :: e :: es
    | short => short
  let size := Nat.toDigits 10 leading.natAbs
  let padded := if size.length < 2 then '0' :: size else size
  mantissa ++ 'e' :: (if leading < 0 then '-' else '+') :: padded

/-- The text of a magnitude. -/
def Layout.magnitude (l : Layout) (x : Binary) : List Char :=
  if x.significand = 0 then ['0', '.', '0']
  else
    let d := shortest x
    let ds := Nat.toDigits 10 d.digits
    let leading := d.exponent + (ds.length : Int) - 1
    if l.plainFrom ≤ leading ∧ leading < l.plainBelow then positional ds leading
    else scientific ds leading

/-- The text of a double. -/
def Layout.write (l : Layout) (x : Float) : String :=
  if x.isNaN then l.undefined
  else
    let sign := if x.toBits >>> 63 == 1 then "-" else ""
    if x.isInf then sign ++ l.infinity
    else sign ++ String.ofList (l.magnitude (Binary.ofBits x.toBits))

end Decimal

end WidgetSync
