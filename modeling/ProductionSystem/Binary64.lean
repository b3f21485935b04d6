/-!
Binary floating point numbers of 64 bits, held as their bits and computed in exact arithmetic on
natural numbers. `ofRatio` rounds a quotient to the nearest number, an exact middle to the even
one; the other operations are its instances.
-/

namespace ProductionSystem

/-- What 64 bits say as a binary floating point number. -/
inductive Binary64 where
  | nan
  | infinite (negative : Bool)
  /-- The number `mantissa * 2 ^ exponent`, with its sign. -/
  | finite (negative : Bool) (mantissa : Nat) (exponent : Int)
  deriving DecidableEq

namespace Binary64

/-- The least exponent of a finite number. -/
def minExponent : Int := -1074

/-- The least mantissa of a normal number: a one and 52 bits after it. -/
def minNormal : Nat := 0x10000000000000

/-- The exponent field of the numbers that are not finite: eleven ones. -/
def maxField : Nat := 0x7ff

/-- Reads the three fields of a number: one bit of sign, eleven of exponent, the rest mantissa. -/
def ofBits (bits : UInt64) : Binary64 :=
  let negative := 0x8000000000000000 ≤ bits
  let field := bits.toNat / minNormal % (maxField + 1)
  let fraction := bits.toNat % minNormal
  if field = maxField then
    if fraction = 0 then .infinite negative else .nan
  else if field = 0 then .finite negative fraction minExponent
  else .finite negative (minNormal + fraction) (minExponent + (field - 1 : Nat))

/-- The bits of the infinite number without a sign. -/
def infinityBits : UInt64 := 0x7ff0000000000000

def negate (bits : UInt64) : UInt64 := bits ^^^ 0x8000000000000000

/-- A power of two as a quotient. -/
def powerOfTwo (exponent : Int) : Nat × Nat := (Nat.pow 2 exponent.toNat, Nat.pow 2 (-exponent).toNat)

/-- The greatest integer whose power of two is at most `num / den`, for positive arguments. -/
def binaryLog (num den : Nat) : Int :=
  let guess : Int := (num.log2 : Int) - den.log2
  let (up, down) := powerOfTwo guess
  if den * up ≤ num * down then guess else guess - 1

/-- The quotient rounded to a whole number, a half to the even neighbour. -/
def roundHalfEven (num den : Nat) : Nat :=
  let floor := num / den
  let rest := 2 * (num % den)
  if rest < den then floor
  else if den < rest then floor + 1
  else floor + floor % 2

/-- The bits of the number nearest to `num / den`. The fields are laid out so that a mantissa
rounded up to the next power of two carries into the exponent. -/
def ofRatio (num den : Nat) : UInt64 :=
  if num = 0 then 0
  else
    let exponent := max (binaryLog num den - 52) minExponent
    let (up, down) := powerOfTwo exponent
    let mantissa := roundHalfEven (num * down) (den * up)
    let bits := (exponent - minExponent).toNat * minNormal + mantissa
    if bits < infinityBits.toNat then bits.toUInt64 else infinityBits

def ofNat (n : Nat) : UInt64 := ofRatio n 1

/-- The product of two numbers without sign, rounded. -/
def mul (a b : UInt64) : UInt64 :=
  match ofBits a, ofBits b with
  | .finite _ m p, .finite _ n q =>
    let (up, down) := powerOfTwo (p + q)
    ofRatio (m * n * up) down
  | _, _ => infinityBits

/-- The quotient of two numbers without sign, the second not zero, rounded. -/
def div (a b : UInt64) : UInt64 :=
  match ofBits a, ofBits b with
  | .finite _ m p, .finite _ n q =>
    let (up, down) := powerOfTwo (p - q)
    ofRatio (m * up) (n * down)
  | _, _ => infinityBits

end Binary64

end ProductionSystem
