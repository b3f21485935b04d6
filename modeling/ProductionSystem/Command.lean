import ProductionSystem.Condition
import ProductionSystem.Workspace

/-!
Commands: the verbs of actions. A command sees one firing of a rule: the matched facts and the
bindings, which it may extend for the actions after it, and it acts on the shared workspace. Facts to
be removed are only queued in the firing, for the loop to remove them after the action. A command
ends normally, fails with an error, or panics; a panic counts as an internal error.
-/

namespace ProductionSystem

/-- One firing of a rule, as its commands see it. -/
structure Firing where
  rule : String
  /-- The matched facts, one for each condition. -/
  facts : List FactRef
  bindings : Bindings
  /-- The facts to be removed after the action. -/
  removals : List FactRef := []
  /-- Does the command run on the loop itself? -/
  onLoop : Bool := true

structure ActionState where
  firing : Firing
  workspace : Workspace

/-- How a command can break off. -/
inductive Abort where
  | failed (cause : ErrorKind)
  /-- A panic, with its message if that is a text. -/
  | panicked (message : Option String)
  deriving DecidableEq

/-- The work of a command. What it did before it broke off stays done. -/
abbrev ActionM := ExceptT Abort (StateM ActionState)

namespace ActionM

def fail {α : Type} (cause : ErrorKind) : ActionM α := throw (.failed cause)

/-- Goes on with a result, or breaks off with its error. -/
def ofExcept {α : Type} : Except ErrorKind α → ActionM α
  | .ok a => pure a
  | .error cause => fail cause

def onStore {α : Type} (f : Store → Except ErrorKind α × Store) : ActionM α := do
  let state ← get
  let (result, store) := f state.workspace.store
  set { state with workspace := { state.workspace with store } }
  ofExcept result

/-- The fact matched by a condition. -/
def factAt (index : Nat) : ActionM FactRef := do
  let facts := (← get).firing.facts
  match facts[index]? with
  | some ref => pure ref
  | none => fail (.index index facts.length)

/-- Queues the fact matched by a condition for removal; only the loop itself may. -/
def removeMatched (index : Nat) : ActionM Unit := do
  let ref ← factAt index
  let state ← get
  if state.firing.onLoop then
    set { state with firing := { state.firing with removals := state.firing.removals ++ [ref] } }
  else fail (.asyncRemoval index)

/-- Overwrites fields of the fact matched by a condition, all of them or none. -/
def modifyMatched (index : Nat) (values : List (String × Value)) : ActionM Unit := do
  let ref ← factAt index
  onStore fun store => store.setMany ref values

/-- Creates a fact. -/
def createFact (type : String) (overrides : List (String × Value)) : ActionM FactRef :=
  onStore fun store => store.make type overrides

/-- Binds a variable for the actions that follow. -/
def bind (name : String) (value : Value) : ActionM Unit :=
  modify fun state =>
    { state with firing := { state.firing with bindings := state.firing.bindings.insert name value } }

def halt : ActionM Unit := modify fun state => { state with workspace := state.workspace.halt }

def write (line : String) : ActionM Unit :=
  modify fun state => { state with workspace := state.workspace.write line }

end ActionM

/-- Where a command runs: on the loop, before the next action, or on a worker. -/
inductive Mode where
  | sync
  | async
  deriving DecidableEq

/-- A verb that actions can use. -/
structure Command where
  name : String
  mode : Mode := .sync
  /-- What the command does, given its arguments. -/
  body : List Value → ActionM Unit

namespace Command

/-- The same command, run by a worker. -/
def later (command : Command) : Command := { command with mode := .async }

/-- Runs a command to its end: the error it ended with, if any, and what it left behind. -/
def run (command : Command) (args : List Value) (state : ActionState) : Option ErrorKind × ActionState :=
  match (command.body args).run state with
  | (.ok (), state) => (none, state)
  | (.error (.failed cause), state) => (some cause, state)
  | (.error (.panicked message), state) =>
    (some (.internal (command.name ++ " panicked: " ++ message.getD "unknown panic")), state)

end Command

end ProductionSystem
