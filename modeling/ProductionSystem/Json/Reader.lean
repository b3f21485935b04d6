import ProductionSystem.Json.Numeral

/-!
Reading JSON texts. Of two members of one name an object keeps the place of the first and the value
of the second. Arrays and objects may be nested up to a limit.
-/

namespace ProductionSystem.Json

/-- Is the character blank between the parts of a JSON text? -/
def isBlank (c : Char) : Bool := c = ' ' || c = '\n' || c = '\t' || c = '\r'

def skipBlanks (cs : List Char) : List Char := cs.dropWhile isBlank

/-- The number of a hexadecimal digit. -/
def hexDigit? (c : Char) : Option Nat :=
  if '0' ≤ c ∧ c ≤ '9' then some (c.toNat - '0'.toNat)
  else if 'a' ≤ c ∧ c ≤ 'f' then some (c.toNat - 'a'.toNat + 10)
  else if 'A' ≤ c ∧ c ≤ 'F' then some (c.toNat - 'A'.toNat + 10)
  else none

/-- The number of four hexadecimal digits. -/
def codeUnit? (a b c d : Char) : Option Nat := do
  pure (((← hexDigit? a) * 16 + (← hexDigit? b)) * 256 + (← hexDigit? c) * 16 + (← hexDigit? d))

/-- Does a code unit begin a pair of two? -/
def isLeading (unit : Nat) : Bool := 0xd800 ≤ unit && unit < 0xdc00

/-- Does a code unit end a pair of two? -/
def isTrailing (unit : Nat) : Bool := 0xdc00 ≤ unit && unit < 0xe000

/-- The character of an escape letter. -/
def escaped? (c : Char) : Option Char :=
  if c = '"' ∨ c = '\\' ∨ c = '/' then some c
  else if c = 'n' then some '\n'
  else if c = 't' then some '\t'
  else if c = 'r' then some '\r'
  else if c = 'b' then some '\x08'
  else if c = 'f' then some '\x0c'
  else none

/-- Reads a string behind its opening quote; the characters so far are given in reverse. -/
def readString : List Char → List Char → Option (String × List Char)
  | _, [] => none
  | soFar, '"' :: rest => some (String.ofList soFar.reverse, rest)
  | soFar, '\\' :: 'u' :: a :: b :: c :: d :: rest => do
    let unit ← codeUnit? a b c d
    if isLeading unit then
      match rest with
      | '\\' :: 'u' :: a :: b :: c :: d :: rest =>
        let second ← codeUnit? a b c d
        if isTrailing second then
          readString (Char.ofNat (0x10000 + (unit - 0xd800) * 0x400 + (second - 0xdc00)) :: soFar) rest
        else none
      | _ => none
    else if isTrailing unit then none
    else readString (Char.ofNat unit :: soFar) rest
  | soFar, '\\' :: c :: rest => do readString ((← escaped? c) :: soFar) rest
  | soFar, c :: rest => if c.toNat < 32 then none else readString (c :: soFar) rest

mutual

/-- Reads a document, and gives the rest of the text. -/
def readValue : Nat → Nat → List Char → Option (Json × List Char)
  | 0, _, _ => none
  | fuel + 1, nesting, cs =>
    match skipBlanks cs with
    | 'n' :: 'u' :: 'l' :: 'l' :: rest => some (.null, rest)
    | 't' :: 'r' :: 'u' :: 'e' :: rest => some (.bool true, rest)
    | 'f' :: 'a' :: 'l' :: 's' :: 'e' :: rest => some (.bool false, rest)
    | '"' :: rest => (readString [] rest).map fun (text, rest) => (.str text, rest)
    | '[' :: rest =>
      match nesting with
      | 0 => none
      | nesting + 1 =>
        match skipBlanks rest with
        | ']' :: rest => some (.arr [], rest)
        | rest => (readItems fuel nesting rest).map fun (items, rest) => (.arr items, rest)
    | '\x7b' :: rest =>
      match nesting with
      | 0 => none
      | nesting + 1 =>
        match skipBlanks rest with
        | '\x7d' :: rest => some (.obj [], rest)
        | rest =>
          (readMembers fuel nesting rest).map fun (members, rest) =>
            (.obj (members.foldl (fun slots member => Slots.put member.1 member.2 slots) []), rest)
    | cs => do
      let (numeral, rest) ← Numeral.split cs
      pure (← numeral.value?, rest)

/-- Reads the items of an array up to its closing bracket. -/
def readItems : Nat → Nat → List Char → Option (List Json × List Char)
  | 0, _, _ => none
  | fuel + 1, nesting, cs => do
    let (item, rest) ← readValue fuel nesting cs
    match skipBlanks rest with
    | ',' :: rest => (readItems fuel nesting rest).map fun (items, rest) => (item :: items, rest)
    | ']' :: rest => some ([item], rest)
    | _ => none

/-- Reads the members of an object up to its closing brace. -/
def readMembers : Nat → Nat → List Char → Option (List (String × Json) × List Char)
  | 0, _, _ => none
  | fuel + 1, nesting, cs => do
    match skipBlanks cs with
    | '"' :: rest =>
      let (name, rest) ← readString [] rest
      match skipBlanks rest with
      | ':' :: rest =>
        let (item, rest) ← readValue fuel nesting rest
        match skipBlanks rest with
        | ',' :: rest =>
          (readMembers fuel nesting rest).map fun (members, rest) => ((name, item) :: members, rest)
        | '\x7d' :: rest => some ([(name, item)], rest)
        | _ => none
      | _ => none
    | _ => none

end

/-- Reads a text that holds one document and blanks. Each step of the reader takes a character, save
those into an array or object, which follow one that did. -/
def read? (nesting : Nat) (text : String) : Option Json :=
  let cs := text.toList
  match readValue (2 * cs.length + 1) nesting cs with
  | some (json, rest) => if (skipBlanks rest).isEmpty then some json else none
  | none => none

end ProductionSystem.Json
