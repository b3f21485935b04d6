import ProductionSystem.Binary64
import ProductionSystem.Json

/-!
The numbers of JSON texts. A numeral without fraction and exponent is a whole number if it fits into
64 bits. Any other is read in two roundings: its digits, as many as fit into 64 bits, are rounded to
a floating point number, and that is multiplied or divided by a rounded power of ten.
-/

namespace ProductionSystem.Json

/-- The digits of a numeral, as far as they were taken in, and the power of ten of the last one. -/
structure Significand where
  digits : Nat := 0
  exponent : Int := 0
  deriving DecidableEq

namespace Significand

/-- The greatest number that the digits may form. -/
def limit : Nat := 0xffffffffffffffff

def digit (c : Char) : Nat := c.toNat - '0'.toNat

/-- Takes in the digits before the point. From the first one on that does not fit, digits only count. -/
def takeWhole (s : Significand) : List Char → Significand
  | [] => s
  | c :: rest =>
    if s.digits * 10 + digit c ≤ limit then takeWhole { s with digits := s.digits * 10 + digit c } rest
    else { s with exponent := s.exponent + (c :: rest).length }

/-- Takes in the digits after the point. From the first one on that does not fit, digits are dropped. -/
def takeFraction (s : Significand) : List Char → Significand
  | [] => s
  | c :: rest =>
    if s.digits * 10 + digit c ≤ limit then
      takeFraction ⟨s.digits * 10 + digit c, s.exponent - 1⟩ rest
    else s

def powerOfTen (power : Nat) : UInt64 := Binary64.ofNat (Nat.pow 10 power)

/-- The greatest power of ten that is a floating point number. -/
def maxPower : Nat := 308

/-- Divides by the greatest power of ten until the exponent is in reach of the powers of ten, or nothing is left. -/
def shrink (magnitude : UInt64) (exponent : Int) : UInt64 × Int :=
  if magnitude = 0 then (0, 0)
  else if exponent < -maxPower then
    shrink (Binary64.div magnitude (powerOfTen maxPower)) (exponent + maxPower)
  else (magnitude, exponent)
termination_by (-exponent).toNat
decreasing_by
  simp only [maxPower] at *
  omega

/-- The floating point number without sign that a significand stands for, unless it is too large. -/
def magnitude? (s : Significand) : Option UInt64 :=
  let (magnitude, exponent) := shrink (Binary64.ofNat s.digits) s.exponent
  if exponent < 0 then
    some (Binary64.div magnitude (powerOfTen (-exponent).toNat))
  else if maxPower < exponent then none
  else
    let product := Binary64.mul magnitude (powerOfTen exponent.toNat)
    if product = Binary64.infinityBits then none else some product

end Significand

/-- A numeral, taken apart. -/
structure Numeral where
  negative : Bool
  whole : List Char
  fraction : Option (List Char)
  /-- Is the exponent negative, and its digits. -/
  exponent : Option (Bool × List Char)

namespace Numeral

/-- Splits the digits off a text. -/
def digits (cs : List Char) : List Char × List Char := (cs.takeWhile Char.isDigit, cs.dropWhile Char.isDigit)

/-- Splits the fraction off: a point and digits. -/
def fractionOf : List Char → Option (Option (List Char) × List Char)
  | '.' :: rest =>
    match digits rest with
    | ([], _) => none
    | (ds, rest) => some (some ds, rest)
  | rest => some (none, rest)

/-- Splits the exponent off: the letter, a sign or none, and digits. -/
def exponentOf : List Char → Option (Option (Bool × List Char) × List Char)
  | c :: rest =>
    if c = 'e' ∨ c = 'E' then
      let (negative, rest) := match rest with
        | '-' :: rest => (true, rest)
        | '+' :: rest => (false, rest)
        | rest => (false, rest)
      match digits rest with
      | ([], _) => none
      | (ds, rest) => some (some (negative, ds), rest)
    else some (none, c :: rest)
  | [] => some (none, [])

/-- Splits a numeral off a text. A zero is not followed by further digits. -/
def split (cs : List Char) : Option (Numeral × List Char) := do
  let (negative, cs) := match cs with
    | '-' :: rest => (true, rest)
    | rest => (false, rest)
  let (whole, rest) ←
    match digits cs with
    | ([], _) => none
    | ('0' :: _ :: _, _) => none
    | (whole, rest) => some (whole, rest)
  let (fraction, rest) ← fractionOf rest
  let (exponent, rest) ← exponentOf rest
  pure (⟨negative, whole, fraction, exponent⟩, rest)

/-- The whole number of digits. -/
def natural (ds : List Char) : Nat := ds.foldl (fun n c => n * 10 + Significand.digit c) 0

def signed (negative : Bool) (bits : UInt64) : UInt64 := if negative then Binary64.negate bits else bits

/-- The least exponent that is beyond 32 bits. -/
def exponentLimit : Nat := 0x80000000

/-- The greatest absolute value of a negative whole number. -/
def negativeLimit : Nat := 0x8000000000000000

/-- The floating point number that a numeral stands for. Beyond 32 bits an exponent makes a number
nothing or too large, whatever the digits before it. -/
def float? (n : Numeral) : Option UInt64 :=
  let s := ({} : Significand).takeWhole n.whole
  let s := match n.fraction with
    | some ds => s.takeFraction ds
    | none => s
  let magnitude? :=
    match n.exponent with
    | none => s.magnitude?
    | some (negative, ds) =>
      let power := natural ds
      if exponentLimit ≤ power then
        if negative ∨ s.digits = 0 then some 0 else none
      else { s with exponent := if negative then s.exponent - power else s.exponent + power }.magnitude?
  magnitude?.map (signed n.negative)

/-- The number that a numeral stands for. A negative zero is a floating point number. -/
def value? (n : Numeral) : Option Json :=
  let whole := natural n.whole
  if n.fraction.isNone ∧ n.exponent.isNone ∧ whole ≤ Significand.limit then
    if n.negative then
      if 0 < whole ∧ whole ≤ negativeLimit then some (.int (-whole))
      else some (.float (Binary64.negate (Binary64.ofNat whole)))
    else some (.int whole)
  else n.float?.map .float

end Numeral

end ProductionSystem.Json
