import ProductionSystem.Binary64

/-!
The shortest decimal that reads back as a given floating point number. A decimal reads back when it
lies in the interval of the reals nearest to the number, whose ends belong to it when the mantissa
is even. Of the grids of powers of ten the coarsest one with a point in the interval is taken, and
of two points on it the nearer.
-/

namespace ProductionSystem.Decimal

/-- The positive number `coefficient * 10 ^ exponent`. -/
structure Digits where
  coefficient : Nat
  exponent : Int
  deriving DecidableEq

/-- Which of two equally near decimals is taken. -/
inductive Tie where
  | upward
  | toEven
  deriving DecidableEq

/-- The interval that reads back as a number, in units of a quarter of its last place. -/
structure Interval where
  middle : Nat
  lower : Nat
  upper : Nat
  closed : Bool

/-- The reals nearest to a number with the given mantissa. Below a power of two the numbers lie
twice as dense, so there the interval is narrower, except at the least exponent. -/
def Interval.ofMantissa (mantissa : Nat) (exponent : Int) : Interval where
  middle := 4 * mantissa
  lower :=
    if mantissa = Binary64.minNormal ∧ exponent ≠ Binary64.minExponent then 4 * mantissa - 1 else 4 * mantissa - 2
  upper := 4 * mantissa + 2
  closed := mantissa % 2 = 0

/-- A point of the grid `10 ^ power` in the interval around `mantissa * 2 ^ exponent`, the nearer of
two. Everything is compared in multiples of one common unit. -/
def gridPoint? (tie : Tie) (mantissa : Nat) (exponent power : Int) : Option Nat :=
  let interval := Interval.ofMantissa mantissa exponent
  let (unitUp, unitDown) := Binary64.powerOfTwo (exponent - 2)
  let unit := unitUp * Nat.pow 10 (-power).toNat
  let grid := unitDown * Nat.pow 10 power.toNat
  let inside (c : Nat) : Bool :=
    if interval.closed then interval.lower * unit ≤ c * grid && c * grid ≤ interval.upper * unit
    else interval.lower * unit < c * grid && c * grid < interval.upper * unit
  let value := interval.middle * unit
  let below := value / grid
  let above := below + 1
  match inside below, inside above with
  | false, false => none
  | true, false => some below
  | false, true => some above
  | true, true =>
    let down := value - below * grid
    let up := above * grid - value
    if down < up then some below
    else if up < down then some above
    else match tie with
      | .upward => some above
      | .toEven => some (below + below % 2)

/-- Tries the grids from `10 ^ (count - 1074)` downwards. The last one holds the number itself. -/
def coarsest (tie : Tie) (mantissa : Nat) (exponent : Int) : Nat → Digits
  | 0 =>
    let (up, down) := Binary64.powerOfTwo exponent
    ⟨mantissa * (up * Nat.pow 10 1074 / down), -1074⟩
  | count + 1 =>
    let power : Int := (count + 1 : Nat) - 1074
    match gridPoint? tie mantissa exponent power with
    | some coefficient => ⟨coefficient, power⟩
    | none => coarsest tie mantissa exponent count

/-- The shortest decimal that reads back as `mantissa * 2 ^ exponent`, the nearest of those. -/
def shortest (tie : Tie) (mantissa : Nat) (exponent : Int) : Digits :=
  coarsest tie mantissa exponent (1074 + 309)

end ProductionSystem.Decimal
