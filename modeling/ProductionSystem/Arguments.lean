import ProductionSystem.Value

/-!
The arguments of built-in commands: condition indexes, names, and field names each with a value.
-/

namespace ProductionSystem

/-- What is wrong with the arguments of a built-in command. -/
inductive ArgumentProblem where
  | count (command : String) (expected actual : Nat)
  | notIndex (command : String) (value : Value)
  | notName (command : String) (value : Value)
  | fieldWithoutValue (command : String) (field : Value)
  | missing (command what : String)
  deriving DecidableEq

namespace ArgumentProblem

def message : ArgumentProblem → String
  | .count command expected actual =>
    command ++ " takes " ++ toString expected ++ " argument(s), got " ++ toString actual
  | .notIndex command value => command ++ ": expected a condition index, got " ++ value.text
  | .notName command value => command ++ ": expected a name, got " ++ value.text
  | .fieldWithoutValue command field => command ++ ": field " ++ field.text ++ " has no value"
  | .missing command what => command ++ " needs " ++ what

end ArgumentProblem

namespace Arguments

/-- A condition index: an integer that is not negative. -/
def index (command : String) (value : Value) : Except ArgumentProblem Nat :=
  match value with
  | .int n => if 0 ≤ n.toInt then .ok n.toInt.toNat else .error (.notIndex command value)
  | _ => .error (.notIndex command value)

/-- The name of a fact type, a field or a variable. -/
def name (command : String) (value : Value) : Except ArgumentProblem String :=
  match value with
  | .str text => .ok text
  | _ => .error (.notName command value)

/-- Names and values in turn, for a list of even length. -/
def pairs (command : String) : List Value → Except ArgumentProblem (List (String × Value))
  | field :: value :: rest => do
    let field ← name command field
    let rest ← pairs command rest
    pure ((field, value) :: rest)
  | _ => .ok []

/-- Field names and values in turn. A last name without a value is seen before any wrong name. -/
def fields (command : String) (args : List Value) : Except ArgumentProblem (List (String × Value)) :=
  match args.getLast? with
  | some last => if args.length % 2 = 1 then .error (.fieldWithoutValue command last) else pairs command args
  | none => .ok []

end Arguments

end ProductionSystem
