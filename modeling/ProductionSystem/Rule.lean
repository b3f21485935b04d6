import ProductionSystem.Command

/-!
Rules: conditions, and the actions to take with the facts that fulfil them.
-/

namespace ProductionSystem

inductive Param where
  | literal (value : Value)
  /-- What a variable stands for when the action is dispatched. -/
  | variable (name : String)
  deriving DecidableEq

namespace Param

def text : Param → String
  | .literal value => value.literal
  | .variable name => name

/-- What a parameter stands for. -/
def resolve (bindings : Bindings) : Param → Except ErrorKind Value
  | .literal value => .ok value
  | .variable name =>
    match bindings.get? name with
    | some value => .ok value
    | none => .error (.unboundVariable name)

/-- What the parameters stand for, up to the first variable that is not bound. -/
def resolveAll (bindings : Bindings) (params : List Param) : Except ErrorKind (List Value) :=
  params.mapM (resolve bindings)

end Param

/-- A command with its parameters. -/
structure Action where
  command : Command
  params : List Param := []

namespace Action

def text (action : Action) : String :=
  "(" ++ action.command.name ++ String.join (action.params.map fun param => " " ++ param.text) ++ ")"

end Action

/-- A rule: a conjunction of conditions, and the actions of a firing. -/
structure Rule where
  name : String
  conditions : List Condition := []
  actions : List Action := []

namespace Rule

/-- How many tests of the rule are variables. -/
def specificity (rule : Rule) : Nat :=
  (rule.conditions.flatMap Condition.tests).countP fun test => test.2.isVariable

/-- The variables that the conditions bind, in the order in which they are first seen. -/
def variableNames (rule : Rule) : List String := (rule.conditions.flatMap Condition.variableNames).eraseDups

end Rule

/-- A rule as it was added to an engine. Two rules with the same text are still two. -/
structure RuleInstance where
  serial : Nat
  rule : Rule

namespace RuleInstance

def same (a b : RuleInstance) : Bool := a.serial == b.serial

end RuleInstance

end ProductionSystem
