import ProductionSystem.Decimal.Style
import ProductionSystem.Text.Quoted

/-!
The values that the fields of facts hold and that variables stand for. Values of different kinds are
different: there is no conversion, and floating point numbers are the same only bit for bit. A value
has two texts: the plain one that output lines are made of, and the literal one, with strings
between quotes, that rules and facts are shown in.
-/

namespace ProductionSystem

/-- A field value. -/
inductive Value where
  /-- The mark of a field without a value. -/
  | nil
  | bool (b : Bool)
  | int (n : Int64)
  | float (bits : UInt64)
  | str (text : String)
  | list (items : List Value)

namespace Value

instance : Inhabited Value := ⟨nil⟩

mutual

def decEq : (v w : Value) → Decidable (v = w)
  | nil, nil => isTrue rfl
  | bool a, bool b => if h : a = b then isTrue (h ▸ rfl) else isFalse fun e => h (bool.inj e)
  | int a, int b => if h : a = b then isTrue (h ▸ rfl) else isFalse fun e => h (int.inj e)
  | float a, float b => if h : a = b then isTrue (h ▸ rfl) else isFalse fun e => h (float.inj e)
  | str a, str b => if h : a = b then isTrue (h ▸ rfl) else isFalse fun e => h (str.inj e)
  | list a, list b =>
    match decEqList a b with
    | isTrue h => isTrue (h ▸ rfl)
    | isFalse h => isFalse fun e => h (list.inj e)
  | nil, bool _ | nil, int _ | nil, float _ | nil, str _ | nil, list _
  | bool _, nil | bool _, int _ | bool _, float _ | bool _, str _ | bool _, list _
  | int _, nil | int _, bool _ | int _, float _ | int _, str _ | int _, list _
  | float _, nil | float _, bool _ | float _, int _ | float _, str _ | float _, list _
  | str _, nil | str _, bool _ | str _, int _ | str _, float _ | str _, list _
  | list _, nil | list _, bool _ | list _, int _ | list _, float _ | list _, str _ =>
    isFalse nofun

def decEqList : (vs ws : List Value) → Decidable (vs = ws)
  | [], [] => isTrue rfl
  | [], _ :: _ | _ :: _, [] => isFalse nofun
  | v :: vs, w :: ws =>
    match decEq v w, decEqList vs ws with
    | isTrue h, isTrue hs => isTrue (h ▸ hs ▸ rfl)
    | isFalse h, _ => isFalse fun e => h (List.cons.inj e).1
    | _, isFalse hs => isFalse fun e => hs (List.cons.inj e).2

end

instance : DecidableEq Value := decEq

def isNil : Value → Bool
  | nil => true
  | _ => false

def int? : Value → Option Int64
  | int n => some n
  | _ => none

def str? : Value → Option String
  | str text => some text
  | _ => none

/-- Numbers are written without an exponent at any size, and a whole one like an integer. -/
def floatStyle : Decimal.Style := ⟨fun _ => true, "", .upward⟩

mutual

/-- The plain text: strings bare, the items of a list separated by blanks. -/
def text : Value → String
  | nil => "nil"
  | bool b => if b then "true" else "false"
  | int n => toString n.toInt
  | float bits => floatStyle.write bits
  | str text => text
  | list items => "[" ++ " ".intercalate (texts items) ++ "]"

def texts : List Value → List String
  | [] => []
  | v :: vs => text v :: texts vs

end

mutual

/-- The literal text: strings between quotes, the items of a list separated by commas. -/
def literal : Value → String
  | str text => Text.quoted text
  | list items => "[" ++ ", ".intercalate (literals items) ++ "]"
  | nil => text nil
  | bool b => text (bool b)
  | int n => text (int n)
  | float bits => text (float bits)

def literals : List Value → List String
  | [] => []
  | v :: vs => literal v :: literals vs

end

end Value

/-- The character that marks a name as a variable. -/
def variableSigil : Char := '$'

/-- Does the text name a variable? -/
def isVariableName (text : String) : Bool := text.toList.head? = some variableSigil

end ProductionSystem
