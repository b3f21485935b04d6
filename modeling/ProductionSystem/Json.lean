import ProductionSystem.Decimal.Style
import ProductionSystem.Slots

/-!
JSON documents and their compact text. The members of an object keep the order in which they were
written. Whole numbers of up to 64 bits are apart from all other numbers, which are floating point.
-/

namespace ProductionSystem

inductive Json where
  | null
  | bool (b : Bool)
  | int (n : Int)
  | float (bits : UInt64)
  | str (text : String)
  | arr (items : List Json)
  | obj (members : List (String × Json))
  deriving Inhabited

namespace Json

/-- The written form of a character of a JSON string: controls by a letter or by their code. -/
def escape (c : Char) : List Char :=
  if c = '"' ∨ c = '\\' then ['\\', c]
  else if c = '\n' then ['\\', 'n']
  else if c = '\r' then ['\\', 'r']
  else if c = '\t' then ['\\', 't']
  else if c = '\x08' then ['\\', 'b']
  else if c = '\x0c' then ['\\', 'f']
  else if c.toNat < 32 then
    ['\\', 'u', '0', '0'] ++ (if c.toNat < 16 then ['0'] else []) ++ Nat.toDigits 16 c.toNat
  else [c]

def writeString (text : String) : String := String.ofList ('"' :: text.toList.flatMap escape ++ ['"'])

/-- Numbers from `1e-5` up to below `1e16` are written without an exponent, whole ones with `.0`. -/
def floatStyle : Decimal.Style := ⟨fun power => -5 ≤ power ∧ power < 16, ".0", .toEven⟩

mutual

def text : Json → String
  | null => "null"
  | bool b => if b then "true" else "false"
  | int n => toString n
  | float bits => floatStyle.write bits
  | str s => writeString s
  | arr items => "[" ++ ",".intercalate (texts items) ++ "]"
  | obj members => "\x7b" ++ ",".intercalate (memberTexts members) ++ "\x7d"

def texts : List Json → List String
  | [] => []
  | item :: items => text item :: texts items

def memberTexts : List (String × Json) → List String
  | [] => []
  | (name, item) :: members => (writeString name ++ ":" ++ text item) :: memberTexts members

end

end Json

end ProductionSystem
