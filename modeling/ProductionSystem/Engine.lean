import ProductionSystem.Config
import ProductionSystem.Conflict
import ProductionSystem.Executor
import ProductionSystem.Matching

/-!
The engine: rules, working memory, and what it takes to fire a rule. Actions on the loop are done one
after the other; an action for a worker is handed over with the bindings as they stand. A failing
action is reported and changes nothing for the actions after it.
-/

namespace ProductionSystem

/-- An action handed over to a worker. -/
structure Job where
  command : Command
  args : List Value
  firing : Firing

/-- The report of an action that failed. -/
structure Failure where
  rule : String
  command : String
  error : Error
  deriving DecidableEq

namespace Failure

def of (rule command : String) (cause : ErrorKind) : Failure where
  rule
  command
  error := ⟨.action rule command cause.message, some { source := some rule, stack := [command] }⟩

end Failure

/-- What an engine is doing. -/
inductive EngineState where
  | idle
  | running
  | halted
  deriving DecidableEq

/-- A production system. -/
structure Engine where
  config : Config
  /-- The workers for matching, if there are any. -/
  matchers : Option (WorkerPool (Nat × RuleInstance))
  executor : Executor Job
  workspace : Workspace := {}
  /-- The rules in the order in which their matches are looked at. -/
  rules : List RuleInstance := []
  /-- How many rules were ever added. -/
  added : Nat := 0
  state : EngineState := .idle
  lastFired : Option RuleInstance := none
  firings : Nat := 0
  failures : Array Failure := #[]

namespace Engine

def new (config : Config) : Engine where
  config
  matchers := if config.parallelMatch then some (.start config.matchWorkers) else none
  executor := .start config.actionWorkers

def store (engine : Engine) : Store := engine.workspace.store

def withStore (engine : Engine) (store : Store) : Engine :=
  { engine with workspace := { engine.workspace with store } }

def register (engine : Engine) (template : Template) : Engine :=
  engine.withStore (engine.store.register template)

/-- Creates a fact; it becomes live in the next cycle. -/
def make (engine : Engine) (type : String) (overrides : List (String × Value)) :
    Except ErrorKind FactRef × Engine :=
  let (result, store) := engine.store.make type overrides
  (result, engine.withStore store)

/-- Makes a rule an instance of its own. -/
def install (engine : Engine) (rule : Rule) : Engine :=
  { engine with rules := engine.rules ++ [⟨engine.added, rule⟩], added := engine.added + 1 }

/-- Puts the rules with more variable tests first, if that is wanted. Rules with equally many keep
their order. -/
def arrange (engine : Engine) : Engine :=
  if engine.config.sortBySpecificity then
    { engine with rules := engine.rules.mergeSort fun a b => b.rule.specificity ≤ a.rule.specificity }
  else engine

def addRule (engine : Engine) (rule : Rule) : Engine := (engine.install rule).arrange

/-- Adds rules, and arranges all rules after the last one. -/
def addRules (engine : Engine) (rules : List Rule) : Engine := (rules.foldl install engine).arrange

/-- Asks the engine to stop after the present firing. -/
def halt (engine : Engine) : Engine := { engine with workspace := engine.workspace.halt }

/-- How many actions are with the workers. -/
def outstanding (engine : Engine) : Nat := engine.executor.outstanding

/-- How many actions have the workers not begun? -/
def backlog (engine : Engine) : Nat := engine.executor.pool.queue.length

def report (engine : Engine) (rule command : String) (cause : ErrorKind) : Engine :=
  { engine with failures := engine.failures.push (.of rule command cause) }

/-- Runs a command for a firing, and reports it if it fails. -/
def exec (engine : Engine) (command : Command) (args : List Value) (firing : Firing) : Firing × Engine :=
  let (failure, after) := command.run args ⟨firing, engine.workspace⟩
  let engine := { engine with workspace := after.workspace }
  match failure with
  | none => (after.firing, engine)
  | some cause => (after.firing, engine.report firing.rule command.name cause)

/-- Removes the facts that a firing queued for removal. -/
def applyRemovals (firing : Firing) (engine : Engine) : Firing × Engine :=
  ({ firing with removals := [] },
    engine.withStore (firing.removals.foldl (fun store ref => (store.remove ref).2) engine.store))

/-- Hands an action over to the workers. It keeps the bindings as they are, and may not remove facts. -/
def handOver (engine : Engine) (command : Command) (args : List Value) (firing : Firing) : Engine :=
  let job : Job := ⟨command, args, { firing with removals := [], onLoop := false }⟩
  let (result, executor, store) := engine.executor.submit engine.store firing.rule job
  let engine := { engine.withStore store with executor }
  match result with
  | .ok _ => engine
  | .error cause => engine.report firing.rule command.name cause

/-- Dispatches an action of a firing. -/
def dispatch (firing : Firing) (engine : Engine) (action : Action) : Firing × Engine :=
  match Param.resolveAll firing.bindings action.params with
  | .error cause => (firing, engine.report firing.rule action.command.name cause)
  | .ok args =>
    match action.command.mode with
    | .sync =>
      let (firing, engine) := engine.exec action.command args firing
      applyRemovals firing engine
    | .async => (firing, engine.handOver action.command args firing)

/-- Fires a rule for its match. -/
def fire (engine : Engine) (found : Match) : Engine :=
  let rule := found.source.rule
  let firing : Firing := { rule := rule.name, facts := found.facts, bindings := found.bindings }
  let engine := { engine with lastFired := some found.source, firings := engine.firings + 1 }
  (rule.actions.foldl (fun state action => dispatch state.1 state.2 action) (firing, engine)).2

/-- A worker does an action and gives its ticket back. -/
def perform (engine : Engine) (job : Ticket × Job) : Engine :=
  let (_, engine) := engine.exec job.2.command job.2.args job.2.firing
  let (executor, store) := engine.executor.release engine.store job.1
  { engine.withStore store with executor }

/-- The workers do all actions that were handed over. -/
def settle (engine : Engine) : Engine :=
  let (jobs, executor) := engine.executor.takeAll
  jobs.foldl perform { engine with executor }

theorem backlog_perform (engine : Engine) (job : Ticket × Job) :
    (engine.perform job).backlog = engine.backlog := by
  unfold perform exec backlog
  dsimp only
  split <;> rfl

theorem backlog_settle (engine : Engine) : engine.settle.backlog = 0 := by
  have keep (jobs : List (Ticket × Job)) (engine : Engine) :
      (jobs.foldl perform engine).backlog = engine.backlog := by
    induction jobs generalizing engine with
    | nil => rfl
    | cons job jobs ih => rw [List.foldl_cons, ih, backlog_perform]
  exact keep _ _

def drain (engine : Engine) : Engine := engine.withStore engine.store.drain

/-- The candidates of each type, as the live facts are now. -/
def view (engine : Engine) : View := engine.store.view engine.store.snapshot

def matchAll (engine : Engine) : List Match :=
  Match.allBy engine.matchers engine.config.maxMatchFrames engine.view engine.rules

/-- How many frames the searches for all rules pop. -/
def searchFrames (engine : Engine) : Nat :=
  engine.rules.foldl (fun frames source =>
    frames + (source.rule.search engine.config.maxMatchFrames engine.view).frames) 0

/-- Does matching take so long that the workers are done before it is? -/
def lingers (engine : Engine) : Bool := 100000 < engine.searchFrames

def choose (engine : Engine) : Option Match :=
  Conflict.select (fun found => engine.lastFired.any found.source.same) engine.matchAll

/-- Forgets rules, facts, templates and the history of runs, after the workers are done. -/
def reset (engine : Engine) : Engine :=
  let engine := engine.settle
  { engine with
    rules := []
    workspace := { engine.workspace with store := engine.store.reset, halted := false }
    lastFired := none
    firings := 0
    failures := #[]
    state := .idle }

/-- Lets the workers finish and dismisses them. Rules are matched on the loop from then on. -/
def shutdown (engine : Engine) : Engine :=
  let (jobs, executor) := engine.executor.shutdown
  { jobs.foldl perform { engine with executor } with matchers := none, state := .halted }

end Engine

end ProductionSystem
