import ProductionSystem.Dictionary
import ProductionSystem.Fact

/-!
Conditions: what a rule asks of one fact. A condition names a fact type and tests fields in order.
The first test of a variable binds it; every later one demands the value it is bound to.
-/

namespace ProductionSystem

/-- What the variables of a rule stand for. -/
abbrev Bindings := Dictionary Value

/-- What a test demands of a field. -/
inductive Pattern where
  | literal (value : Value)
  | variable (name : String)
  /-- The field has no value. -/
  | absent
  deriving DecidableEq

namespace Pattern

/-- The variable, if the pattern is one. -/
def variableName? : Pattern → Option String
  | .variable name => some name
  | _ => none

def isVariable (pattern : Pattern) : Bool := pattern.variableName?.isSome

def text : Pattern → String
  | .literal value => value.literal
  | .variable name => name
  | .absent => "nil"

/-- Tests a value, and binds the variable if it is not bound yet. -/
def unify (pattern : Pattern) (value : Value) (bindings : Bindings) : Option Bindings :=
  match pattern with
  | .literal demanded => if demanded = value then some bindings else none
  | .absent => if value.isNil then some bindings else none
  | .variable name =>
    match bindings.get? name with
    | some bound => if bound = value then some bindings else none
    | none => some (bindings.insert name value)

end Pattern

/-- One condition of a rule: a fact type, and tests of its fields. -/
structure Condition where
  type : String
  tests : List (String × Pattern) := []
  deriving DecidableEq

namespace Condition

/-- How many tests are variables. -/
def specificity (condition : Condition) : Nat := condition.tests.countP fun test => test.2.isVariable

/-- Tests the fields of a fact in order. -/
def unifyTests (fact : Fact) : List (String × Pattern) → Bindings → Option Bindings
  | [], bindings => some bindings
  | (field, pattern) :: rest, bindings =>
    (pattern.unify (fact.get field) bindings).bind (unifyTests fact rest)

/-- The bindings under which the fact fulfils the condition, extending the given ones. -/
def unify (condition : Condition) (fact : Fact) (bindings : Bindings) : Option Bindings :=
  if fact.type = condition.type then unifyTests fact condition.tests bindings else none

/-- The variables that a condition tests, test by test. -/
def variableNames (condition : Condition) : List String :=
  condition.tests.filterMap fun test => test.2.variableName?

def text (condition : Condition) : String :=
  "(" ++ condition.type ++
    String.join (condition.tests.map fun test => " ^" ++ test.1 ++ " " ++ test.2.text) ++ ")"

end Condition

end ProductionSystem
