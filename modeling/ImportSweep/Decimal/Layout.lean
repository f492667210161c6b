import ImportSweep.Decimal.Shortest

/-!
# Writing decimals

A decimal is written with a point among its digits or with an exponent. A `Layout` says where the
one form ends and the other begins, and whether a whole number keeps a fraction.
-/

namespace ImportSweep.Decimal

/-- How decimals are written. -/
structure Layout where
  /-- The places of the point, counted from the first digit, at which no exponent is written;
  `none` if there never is one. -/
  positional : Option (Int × Int)
  /-- A whole number is written with a fraction `.0`. -/
  keepFraction : Bool
  /-- A plus sign is written before an exponent that is not negative. -/
  plusSign : Bool
  /-- Which of two equally near shortest decimals is written. -/
  tie : Tie

/-- The text of the digits of a coefficient. -/
def digitText (n : Nat) : List Char :=
  Nat.toDigits 10 n

/-- Digits with a point after the first `point` of them. -/
def withPoint (layout : Layout) (digits : List Char) (point : Int) : List Char :=
  if point ≤ 0 then
    '0' :: '.' :: (List.replicate (-point).toNat '0' ++ digits)
  else
    let whole := digits.take point.toNat
    let fraction := digits.drop point.toNat
    let zeros := List.replicate (point.toNat - digits.length) '0'
    let tail := if fraction.isEmpty then (if layout.keepFraction then ['.', '0'] else [])
      else '.' :: fraction
    whole ++ zeros ++ tail

/-- Digits with a point after the first and an exponent. -/
def withExponent (layout : Layout) (digits : List Char) (point : Int) : List Char :=
  let head := digits.take 1
  let tail := digits.drop 1
  let exponent := point - 1
  let sign := if exponent < 0 then ['-'] else if layout.plusSign then ['+'] else []
  head ++ (if tail.isEmpty then [] else '.' :: tail) ++ 'e' :: sign ++ digitText exponent.natAbs

/-- The text of a decimal. -/
def text (layout : Layout) (d : Decimal) : String :=
  let sign := if d.negative then ['-'] else []
  let body :=
    if d.coefficient = 0 then '0' :: (if layout.keepFraction then ['.', '0'] else [])
    else
      let digits := digitText d.coefficient
      let point := d.exponent + digits.length
      match layout.positional with
      | none => withPoint layout digits point
      | some (low, high) =>
        if low ≤ point ∧ point ≤ high then withPoint layout digits point
        else withExponent layout digits point
  String.ofList (sign ++ body)

/-- The text of a finite double: its shortest decimal in the given layout. -/
def floatText (layout : Layout) (x : Float) : String :=
  (ofFloat x layout.tie).text layout

end ImportSweep.Decimal
