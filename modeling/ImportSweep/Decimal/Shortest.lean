/-!
# The shortest decimal of a binary fraction

A double stands for `mantissa * 2 ^ exponent`, and every real that is nearer to it than to its
neighbours reads back as that double. `shortest` finds the decimal with the fewest digits among
those reals, and of these the one nearest to the double. All steps are exact, on natural numbers.
-/

namespace ImportSweep

/-- A decimal `coefficient * 10 ^ exponent`, with its sign. -/
structure Decimal where
  /-- The sign; zero has one too. -/
  negative : Bool
  /-- The digits, read as one number. -/
  coefficient : Nat
  /-- The power of ten that the coefficient is multiplied by. -/
  exponent : Int
  deriving DecidableEq, Repr

namespace Decimal

/-- A positive binary fraction `mantissa * 2 ^ exponent`. -/
structure Binary where
  /-- The bits, read as one number. -/
  mantissa : Nat
  /-- The power of two that the mantissa is multiplied by. -/
  exponent : Int
  /-- The gap to the next smaller double is half the gap to the next larger one. -/
  narrowBelow : Bool
  deriving DecidableEq, Repr

/-- The reals that read back as a double, scaled to whole numbers: between `low` and `high`, ends
included when `closed`, all three to be divided by `denominator`. -/
structure Interval where
  /-- The lower end. -/
  low : Nat
  /-- The double itself. -/
  value : Nat
  /-- The upper end. -/
  high : Nat
  /-- What the other numbers are to be divided by. -/
  denominator : Nat
  /-- The ends belong to the interval. -/
  closed : Bool
  deriving DecidableEq, Repr

/-- The interval of a binary fraction: half way to each neighbour. -/
def Binary.interval (b : Binary) : Interval :=
  let below := if b.narrowBelow then 1 else 2
  let scale := b.exponent - 2
  { low := (4 * b.mantissa - below) * Nat.pow 2 scale.toNat
    value := 4 * b.mantissa * Nat.pow 2 scale.toNat
    high := (4 * b.mantissa + 2) * Nat.pow 2 scale.toNat
    denominator := Nat.pow 2 (-scale).toNat
    closed := b.mantissa % 2 = 0 }

/-- The whole number `d` lies in the interval once the interval is divided by `ten`. -/
def Interval.holds (i : Interval) (ten d : Nat) : Bool :=
  let scaled := d * ten * i.denominator
  if i.closed then i.low ≤ scaled && scaled ≤ i.high else i.low < scaled && scaled < i.high

/-- The number of decimal digits of a natural number; zero has none. -/
def digitCount (n : Nat) : Nat :=
  if n = 0 then 0 else (Nat.toDigits 10 n).length

/-- The power of ten of the first digit of `value / denominator`. -/
def Interval.magnitude (i : Interval) : Int :=
  if i.denominator ≤ i.value then digitCount (i.value / i.denominator) - 1
  else -(digitCount ((i.denominator - 1) / i.value) : Int)

/-- The interval multiplied by a power of ten, so that whole numbers stand for multiples of
`10 ^ exponent`; the second part is the factor that is left for the whole numbers. -/
def Interval.grid (i : Interval) (exponent : Int) : Interval × Nat :=
  let up := Nat.pow 10 (-exponent).toNat
  ({ i with low := i.low * up, value := i.value * up, high := i.high * up },
    Nat.pow 10 exponent.toNat)

/-- Which of two equally near neighbours is taken. -/
inductive Tie where
  /-- The larger one. -/
  | up
  /-- The even one. -/
  | toEven
  deriving DecidableEq, Repr

/-- At equal distance the upper neighbour of `floor` is taken. -/
def Tie.takesUpper (tie : Tie) (floor : Nat) : Bool :=
  match tie with
  | up => true
  | toEven => floor % 2 = 1

/-- Which of two neighbours on the grid that read back to take, if any: the nearer one, and at equal
distance the one that `tie` says. -/
def Interval.nearest (i : Interval) (ten : Nat) (tie : Tie) : Option Nat :=
  let unit := ten * i.denominator
  let floor := i.value / unit
  let rest := i.value % unit
  let upper := i.holds ten (floor + 1)
  if i.holds ten floor && floor ≠ 0 then
    if upper && (unit < 2 * rest || (unit = 2 * rest && tie.takesUpper floor)) then some (floor + 1)
    else some floor
  else if upper then some (floor + 1) else none

/-- Tries grids of ever more digits, at most `fuel` of them. -/
def Interval.search (i : Interval) (tie : Tie) (magnitude : Int) : Nat → Int → Nat × Int
  | 0, digits => (i.value, magnitude - digits + 1)
  | fuel + 1, digits =>
    let exponent := magnitude - digits + 1
    let (scaled, ten) := i.grid exponent
    match scaled.nearest ten tie with
    | some d => (d, exponent)
    | none => i.search tie magnitude fuel (digits + 1)

/-- Drops trailing zeros from a coefficient, at most `fuel` of them. -/
def stripZeros : Nat → Nat → Int → Nat × Int
  | 0, c, e => (c, e)
  | fuel + 1, c, e => if c ≠ 0 ∧ c % 10 = 0 then stripZeros fuel (c / 10) (e + 1) else (c, e)

/-- The shortest decimal that reads back as the binary fraction. -/
def Binary.shortest (b : Binary) (tie : Tie) : Nat × Int :=
  let i := b.interval
  let (c, e) := i.search tie i.magnitude 18 1
  stripZeros 20 c e

/-- The parts of a finite double: its sign and, unless it is zero, its binary fraction. -/
def split (x : Float) : Bool × Option Binary :=
  let bits := x.toBits.toNat
  let negative := bits / Nat.pow 2 63 = 1
  let biased : Nat := bits / Nat.pow 2 52 % Nat.pow 2 11
  let fraction := bits % Nat.pow 2 52
  if biased = 0 then
    (negative, if fraction = 0 then none else some ⟨fraction, -1074, false⟩)
  else
    (negative, some ⟨Nat.pow 2 52 + fraction, Int.ofNat biased - 1075, fraction = 0 && biased ≠ 1⟩)

/-- The shortest decimal that reads back as a finite double. -/
def ofFloat (x : Float) (tie : Tie) : Decimal :=
  match split x with
  | (negative, none) => ⟨negative, 0, 0⟩
  | (negative, some b) =>
    let (c, e) := b.shortest tie
    ⟨negative, c, e⟩

end Decimal

end ImportSweep
