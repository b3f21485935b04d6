import ProductionSystem.Engine

/-!
Runs of an engine. A cycle makes the pending facts live, matches the rules and fires one. A cycle in
which no rule matches waits for the workers, if any action is with them, or for facts from outside,
if the engine is configured to; a run is over when that brings nothing. Before each cycle the request
to halt is looked at first and the limit on firings second.

The workers act while the loop waits for them. Only if matching took long, they were done before: then the
loop finds nothing with them, and what they changed after the match counts for nothing in this cycle.
-/

namespace ProductionSystem

/-- Why a run was over. -/
inductive Outcome where
  /-- No rule matches and nothing is under way. -/
  | quiescent
  | halted
  | stepLimit
  deriving DecidableEq

namespace Outcome

def text : Outcome → String
  | quiescent => "Quiescent"
  | halted => "Halted"
  | stepLimit => "StepLimit"

end Outcome

/-- How many rules a run fired, and why it was over. -/
structure Report where
  firings : Nat
  outcome : Outcome
  deriving DecidableEq

namespace Report

def text (report : Report) : String := toString report.firings ++ " firings, " ++ report.outcome.text

end Report

/-- A run between two cycles. -/
structure Run where
  engine : Engine
  fired : Nat := 0
  /-- What is still to come from outside. -/
  arrivals : List Arrival := []
  /-- The time since the start of the run, in milliseconds, as far as it was spent waiting. -/
  clock : Nat := 0

namespace Run

/-- What a cycle came to. -/
inductive Cycle where
  | fired (found : Match) (run : Run)
  /-- Nothing matched, but something happened meanwhile. -/
  | again (run : Run)
  /-- Nothing matched and nothing is under way. -/
  | quiet (run : Run)

/-- Waits for a signal from outside. -/
def listen (run : Run) (timeout : Nat) : Cycle :=
  let deadline := run.clock + timeout
  let waited := run.engine.workspace.await run.engine.store.epoch (some deadline) run.arrivals
  let next : Run :=
    { run with
      engine := { run.engine with workspace := waited.workspace }.drain
      arrivals := waited.later
      clock := waited.signal?.getD deadline }
  if waited.signal?.isSome && (waited.workspace.store.hasPending || waited.workspace.halted) then .again next
  else .quiet next

/-- A cycle in which nothing matched and nothing is with the workers. -/
def rest (run : Run) : Cycle :=
  match run.engine.config.idleTimeout with
  | some timeout => run.listen timeout
  | none => .quiet run

def idle (run : Run) : Cycle :=
  if run.engine.backlog = 0 then run.rest
  else
    let settled : Run := { run with engine := run.engine.settle }
    if run.engine.lingers then
      if settled.engine.store.hasPending || settled.engine.workspace.halted then .again settled
      else settled.rest
    else .again { settled with engine := settled.engine.drain }

def cycle (run : Run) : Cycle :=
  let engine := run.engine.drain
  match engine.choose with
  | some found => .fired found { run with engine := engine.fire found, fired := run.fired + 1 }
  | none => { run with engine }.idle

/-- What still keeps an idle run going: arrivals first, then the backlog of the workers. -/
def pendingWork (run : Run) : Nat × Nat := (run.arrivals.length, run.engine.backlog)

theorem length_arrivals_lt_of_listen {run next : Run} {timeout : Nat} (h : run.listen timeout = .again next) :
    next.arrivals.length < run.arrivals.length := by
  simp only [listen] at h
  split at h
  · rename_i hsignal
    obtain rfl := Cycle.again.inj h
    exact Workspace.length_later_await_lt (Bool.and_eq_true_iff.1 hsignal).1
  · cases h

theorem length_arrivals_lt_of_rest {run next : Run} (h : run.rest = .again next) :
    next.arrivals.length < run.arrivals.length := by
  unfold rest at h
  split at h
  · exact length_arrivals_lt_of_listen h
  · cases h

/-- An idle run comes closer to its end. -/
theorem pendingWork_lt_of_again {run next : Run} (h : run.cycle = .again next) :
    Prod.Lex (· < ·) (· < ·) next.pendingWork run.pendingWork := by
  simp only [cycle] at h
  split at h
  · cases h
  · simp only [idle] at h
    split at h
    · have hfewer := length_arrivals_lt_of_rest h
      exact Prod.Lex.left _ _ hfewer
    · rename_i hbusy
      have hsettled : run.engine.drain.settle.backlog < run.engine.drain.backlog := by
        rw [Engine.backlog_settle]
        exact Nat.pos_of_ne_zero hbusy
      split at h
      · split at h
        · obtain rfl := Cycle.again.inj h
          exact Prod.Lex.right _ hsettled
        · have hfewer := length_arrivals_lt_of_rest h
          exact Prod.Lex.left _ _ hfewer
      · obtain rfl := Cycle.again.inj h
        exact Prod.Lex.right _ hsettled

/-- Runs on until the run is over, firing at most so many rules. -/
def steps (run : Run) (limit : Nat) : Outcome × Run :=
  if run.engine.workspace.halted then (.halted, run)
  else
    match limit with
    | 0 => (.stepLimit, run)
    | limit + 1 =>
      match _h : run.cycle with
      | .fired _ next => next.steps limit
      | .again next => next.steps (limit + 1)
      | .quiet next => (.quiescent, next)
termination_by (limit, run.pendingWork)
decreasing_by
  · exact Prod.Lex.left _ _ (Nat.lt_succ_self _)
  · exact Prod.Lex.right _ (pendingWork_lt_of_again _h)

/-- One cycle of a run without a limit: either the run goes on, or it is over. -/
def advance (run : Run) : Run ⊕ (Outcome × Run) :=
  if run.engine.workspace.halted then .inr (.halted, run)
  else
    match run.cycle with
    | .fired _ next | .again next => .inl next
    | .quiet next => .inr (.quiescent, next)

/-- Ends a run. Unless it stopped at its limit, the workers finish first. -/
def close (outcome : Outcome) (run : Run) : Report × Engine :=
  (⟨run.fired, outcome⟩,
    match outcome with
    | .stepLimit => { run.engine with state := .idle }
    | .halted | .quiescent => { run.engine.settle with state := .halted })

end Run

namespace Engine

/-- Begins a run: an earlier request to halt no longer counts. -/
def begin (engine : Engine) (arrivals : List Arrival) : Run where
  engine := { engine with workspace := engine.workspace.clearHalt, state := .running }
  arrivals

def runSteps (engine : Engine) (limit : Nat) : Report × Engine :=
  let (outcome, run) := (engine.begin []).steps limit
  run.close outcome

/-- Takes in what comes from outside while the engine does not run. -/
def receiveAll (engine : Engine) (arrivals : List Arrival) : Engine :=
  { engine with
    workspace := arrivals.foldl (fun workspace arrival => workspace.receive arrival.signal) engine.workspace }

end Engine

end ProductionSystem
