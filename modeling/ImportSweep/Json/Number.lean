import ImportSweep.Json.Fault
import ImportSweep.Decimal.Layout

/-!
# JSON numbers

A numeral is kept as its digits and then valued. Whole numbers that fit 64 bits stay exact, all
others become doubles: the significand is cut where it would outgrow 64 bits, and then multiplied or
divided by a power of ten.
-/

namespace ImportSweep.Json

/-- A number of a JSON text. -/
inductive Number where
  /-- A whole number below `2 ^ 64`. -/
  | natural (value : Nat)
  /-- A whole number below zero and not below `-2 ^ 63`, given by its size. -/
  | negative (size : Nat)
  /-- Any other number. -/
  | decimal (value : Float)

/-- The layout of doubles in JSON text: a fraction or an exponent is always written, the exponent
below `0.00001` and from `10 ^ 16` on, with its sign. Of two equally near decimals the even one is
written. -/
def numberLayout : Decimal.Layout :=
  ⟨some (-4, 16), true, true, .toEven⟩

namespace Number

/-- The double nearest to a number. -/
def toFloat : Number → Float
  | natural n => n.toUInt64.toFloat
  | negative n => -n.toUInt64.toFloat
  | decimal x => x

/-- The text of a number. -/
def text : Number → String
  | natural n => String.ofList (Nat.toDigits 10 n)
  | negative n => String.ofList ('-' :: Nat.toDigits 10 n)
  | decimal x => Decimal.floatText numberLayout x

end Number

/-- A numeral as written, its digits in order. -/
structure Numeral where
  /-- A minus sign stands before it. -/
  negative : Bool
  /-- The digits before the point. -/
  whole : List Nat
  /-- The digits after the point, if there is one. -/
  fraction : Option (List Nat)
  /-- The sign and digits of the exponent, if there is one. -/
  exponent : Option (Bool × List Nat)
  deriving DecidableEq, Repr

namespace Numeral

/-- The largest significand. -/
def largest : Nat := Nat.pow 2 64 - 1

/-- Extends a significand by the digits before the point. Once one does not fit, it and all later
ones only raise the exponent. -/
def extendWhole : Nat → List Nat → Nat × Int
  | significand, [] => (significand, 0)
  | significand, d :: ds =>
    if significand * 10 + d ≤ largest then extendWhole (significand * 10 + d) ds
    else (significand, ds.length + 1)

/-- Extends a significand by the digits after the point. Once one does not fit, it and all later
ones are dropped. -/
def extendFraction : Nat → Int → List Nat → Nat × Int
  | significand, exponent, [] => (significand, exponent)
  | significand, exponent, d :: ds =>
    if significand * 10 + d ≤ largest then extendFraction (significand * 10 + d) (exponent - 1) ds
    else (significand, exponent)

/-- The number that a list of digits writes. -/
def ofDigits (digits : List Nat) : Nat :=
  digits.foldl (fun n d => n * 10 + d) 0

/-- A power of ten as a double. -/
def powerOfTen (exponent : Nat) : Float :=
  Float.ofScientific 1 false exponent

/-- Multiplies a double by a power of ten; powers below `-308` are taken in steps, at most `fuel`
of them. -/
def scale : Nat → Float → Int → Except Fault Float
  | 0, x, _ => .ok x
  | fuel + 1, x, exponent =>
    if exponent.natAbs ≤ 308 then
      if 0 ≤ exponent then
        let y := x * powerOfTen exponent.natAbs
        if y.isInf then .error .numberOutOfRange else .ok y
      else .ok (x / powerOfTen exponent.natAbs)
    else if x == 0.0 then .ok x
    else if 0 ≤ exponent then .error .numberOutOfRange
    else scale fuel (x / powerOfTen 308) (exponent + 308)

/-- The double `significand * 10 ^ exponent` with the given sign. -/
def double (negative : Bool) (significand : Nat) (exponent : Int) : Except Fault Number := do
  let x ← scale 4 significand.toUInt64.toFloat exponent
  return .decimal (if negative then -x else x)

/-- The number that a numeral writes. -/
def value (n : Numeral) : Except Fault Number :=
  let (significand, raised) := extendWhole 0 n.whole
  match n.fraction, n.exponent with
  | none, none =>
    if raised ≠ 0 then double n.negative significand raised
    else if !n.negative then .ok (.natural significand)
    else if 0 < significand && significand ≤ Nat.pow 2 63 then .ok (.negative significand)
    else .ok (.decimal (-significand.toUInt64.toFloat))
  | fraction, exponent =>
    let (significand, lowered) := extendFraction significand raised (fraction.getD [])
    let power : Int := match exponent with
      | none => 0
      | some (true, digits) => -Int.ofNat (ofDigits digits)
      | some (false, digits) => Int.ofNat (ofDigits digits)
    double n.negative significand (lowered + power)

end Numeral

end ImportSweep.Json
