import ProductionSystem.Decimal.Shortest

/-!
Written forms of floating point numbers: the shortest digits that read back, set by a style that
says where the positional notation ends and how a whole number is marked.
-/

namespace ProductionSystem.Decimal

/-- A way to write floating point numbers. -/
structure Style where
  /-- Is a number whose leading digit counts this power of ten written without an exponent? -/
  positional : Int → Bool
  /-- What follows a whole number in positional notation. -/
  wholeMark : String
  /-- Which of two equally near decimals is written. -/
  tie : Tie

def zeros (n : Nat) : String := String.ofList (List.replicate n '0')

namespace Style

/-- Positional notation: digits, and a point where a fraction follows. -/
def writePositional (style : Style) (d : Digits) : String :=
  let digits := Nat.toDigits 10 d.coefficient
  let whole : Int := d.exponent + digits.length
  if 0 ≤ d.exponent then String.ofList digits ++ zeros d.exponent.toNat ++ style.wholeMark
  else if 0 < whole then
    String.ofList (digits.take whole.toNat) ++ "." ++ String.ofList (digits.drop whole.toNat)
  else "0." ++ zeros (-whole).toNat ++ String.ofList digits

/-- Scientific notation: one digit before the point, and the exponent always with its sign. -/
def writeScientific (d : Digits) : String :=
  let digits := Nat.toDigits 10 d.coefficient
  let power : Int := d.exponent + digits.length - 1
  let fraction := if digits.length = 1 then "" else "." ++ String.ofList (digits.drop 1)
  let sign := if power < 0 then "-" else "+"
  String.ofList (digits.take 1) ++ fraction ++ "e" ++ sign ++ toString power.natAbs

/-- The written form of a number without its sign. -/
def writeMagnitude (style : Style) (mantissa : Nat) (exponent : Int) : String :=
  if mantissa = 0 then "0" ++ style.wholeMark
  else
    let d := shortest style.tie mantissa exponent
    if style.positional (d.exponent + (Nat.toDigits 10 d.coefficient).length - 1) then style.writePositional d
    else writeScientific d

/-- The written form of a number; zero keeps its sign. -/
def write (style : Style) (bits : UInt64) : String :=
  match Binary64.ofBits bits with
  | .nan => "NaN"
  | .infinite negative => if negative then "-inf" else "inf"
  | .finite negative mantissa exponent =>
    (if negative then "-" else "") ++ style.writeMagnitude mantissa exponent

end Style

end ProductionSystem.Decimal
