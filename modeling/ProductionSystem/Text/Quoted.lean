import ProductionSystem.Text.Unprintable
import ProductionSystem.Text.Extending

/-!
Quoted text: a text between double quotes in which every character is visible. Quotes and
backslashes take a backslash, four controls have a letter, and all else without a visible form of
its own is written by its code point in braces. A single quote stands for itself.
-/

namespace ProductionSystem.Text

/-- A code point in lower-case hexadecimal digits. -/
def hexadecimal (n : Nat) : List Char := Nat.toDigits 16 n

/-- A character written by its code point. -/
def codePoint (c : Char) : List Char := ['\\', 'u', '\x7b'] ++ hexadecimal c.toNat ++ ['\x7d']

/-- The written form of one character of a quoted text. -/
def escape (c : Char) : List Char :=
  if c = '"' ∨ c = '\\' then ['\\', c]
  else if c = '\n' then ['\\', 'n']
  else if c = '\t' then ['\\', 't']
  else if c = '\r' then ['\\', 'r']
  else if c = '\x00' then ['\\', '0']
  else if isExtending c || isUnprintable c then codePoint c
  else [c]

/-- A text between double quotes, every character visible. -/
def quoted (text : String) : String :=
  String.ofList ('"' :: text.toList.flatMap escape ++ ['"'])

end ProductionSystem.Text
