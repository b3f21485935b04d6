import ProductionSystem.Arguments
import ProductionSystem.Command

/-!
The built-in commands. Condition indexes count from zero.
-/

namespace ProductionSystem

namespace ActionM

/-- Breaks off because of the arguments. -/
def refuse {α : Type} (problem : ArgumentProblem) : ActionM α := fail (.arguments problem.message)

/-- Goes on with decoded arguments, or breaks off. -/
def decoded {α : Type} : Except ArgumentProblem α → ActionM α
  | .ok a => pure a
  | .error problem => refuse problem

end ActionM

inductive Builtin where
  /-- `bind name value` binds a variable for the rest of the firing. -/
  | bind
  /-- `halt` stops the engine after the firing. -/
  | halt
  /-- `make type field value ...` creates a fact. -/
  | make
  /-- `modify index field value ...` overwrites fields of a matched fact. -/
  | modify
  /-- `remove index ...` removes matched facts. -/
  | remove
  /-- `write value ...` writes a line. -/
  | write
  deriving DecidableEq

namespace Builtin

def name : Builtin → String
  | bind => "bind"
  | halt => "halt"
  | make => "make"
  | modify => "modify"
  | remove => "remove"
  | write => "write"

def all : List Builtin := [bind, halt, make, modify, remove, write]

/-- The line that a list of values is written as. -/
def line (args : List Value) : String := " ".intercalate (args.map Value.text)

/-- Queues the matched facts at the given indexes one by one, up to the first wrong index. -/
def removeAll : List Value → ActionM Unit
  | [] => pure ()
  | arg :: rest => do
    let index ← .decoded (Arguments.index remove.name arg)
    ActionM.removeMatched index
    removeAll rest

def body : Builtin → List Value → ActionM Unit
  | bind, [target, value] => do
    let target ← .decoded (Arguments.name bind.name target)
    ActionM.bind target value
  | bind, args => .refuse (.count bind.name 2 args.length)
  | halt, [] => ActionM.halt
  | halt, args => .refuse (.count halt.name 0 args.length)
  | make, [] => .refuse (.missing make.name "a fact type")
  | make, type :: rest => do
    let type ← .decoded (Arguments.name make.name type)
    let overrides ← .decoded (Arguments.fields make.name rest)
    discard (ActionM.createFact type overrides)
  | modify, [] => .refuse (.missing modify.name "a condition index")
  | modify, index :: rest => do
    let index ← .decoded (Arguments.index modify.name index)
    let values ← .decoded (Arguments.fields modify.name rest)
    ActionM.modifyMatched index values
  | remove, [] => .refuse (.missing remove.name "at least one condition index")
  | remove, args => removeAll args
  | write, args => ActionM.write (line args)

/-- A built-in command, run on the loop. -/
def command (builtin : Builtin) : Command := { name := builtin.name, body := builtin.body }

end Builtin

end ProductionSystem
