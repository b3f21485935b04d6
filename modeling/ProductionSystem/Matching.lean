import ProductionSystem.Rule
import ProductionSystem.Search
import ProductionSystem.WorkerPool

/-!
Matching: the rules that can fire, each with the first facts that fulfil its conditions. Rules may
be matched by a pool of workers, whose answers come in any order; `gather` puts them back into the
order of the rules.
-/

namespace ProductionSystem

/-- A rule instance, the facts that fulfil its conditions and the bindings they give. -/
structure Match where
  source : RuleInstance
  facts : List FactRef
  bindings : Bindings

/-- The candidates of each fact type. -/
abbrev View := String → List Candidate

namespace Store

/-- Facts as candidates, as they are now. -/
def candidates (store : Store) (refs : List FactRef) : List Candidate :=
  refs.filterMap fun ref => (store.fact? ref).map (⟨ref, ·⟩)

/-- The facts that were live at a snapshot, as they are now. -/
def view (store : Store) (snapshot : Snapshot) : View := fun type => store.candidates (snapshot.get type)

end Store

namespace Rule

/-- The conditions of a rule, each with its candidates. -/
def goals (rule : Rule) (view : View) : List Goal :=
  rule.conditions.map fun condition => ⟨condition, view condition.type⟩

/-- Searches for facts that fulfil the conditions of a rule. -/
def search (rule : Rule) (budget : Option Nat) (view : View) : Search.Result :=
  Search.start budget (rule.goals view)

end Rule

namespace RuleInstance

/-- The first match of a rule, if the budget allows to find it. -/
def match? (source : RuleInstance) (budget : Option Nat) (view : View) : Option Match :=
  (source.rule.search budget view).finding?.map fun finding => ⟨source, finding.facts, finding.bindings⟩

end RuleInstance

namespace Match

/-- The matches of the rules, in the order of the rules. -/
def all (budget : Option Nat) (view : View) (rules : List RuleInstance) : List Match :=
  rules.filterMap fun source => source.match? budget view

/-- The answers of the workers, each with the position of its rule, put into the order of the rules. -/
def gather (answers : List (Nat × Option Match)) : List Match :=
  ((answers.filterMap fun answer => answer.2.map (answer.1, ·)).mergeSort
    fun a b => a.1 ≤ b.1).map (·.2)

/-- The matches of the rules, found by workers if there are any and more than one rule. If the
workers do not accept every rule, all rules are matched on the loop. -/
def allBy (workers : Option (WorkerPool (Nat × RuleInstance))) (budget : Option Nat) (view : View)
    (rules : List RuleInstance) : List Match :=
  match workers with
  | none => all budget view rules
  | some pool =>
    if rules.length ≤ 1 then all budget view rules
    else
      match pool.submitAll ((List.range rules.length).zip rules) with
      | .error _ => all budget view rules
      | .ok pool => gather (pool.queue.map fun job => (job.1, job.2.match? budget view))

end Match

end ProductionSystem
