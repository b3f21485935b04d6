import ProductionSystem.Proofs.Backtracking
import ProductionSystem.Proofs.PastMachines

/-!
A reset engine is a new one with a past. Rules, templates, facts, failures and runs are forgotten; what goes on is
the table of facts, the numbers that were given out and the lines that were written. A reset waits for the
jobs under way, which the workers can always end; until then it changes nothing.
-/

namespace ProductionSystem

namespace Engine

/-- What only a dismissal takes from an engine: its matchers and its workers. -/
def staff (engine : Engine) : Option (WorkerPool (Nat × RuleInstance)) × WorkerPool (Ticket × Job) :=
  (engine.matchers, { engine.executor.pool with queue := [] })

variable {engine : Engine}

theorem staff_of_pool {after : Engine} (hmatchers : after.matchers = engine.matchers)
    (hpool : after.executor.pool = engine.executor.pool) : after.staff = engine.staff := by
  rw [staff, staff, hmatchers, hpool]

theorem staff_addRules (engine : Engine) (rules : List Rule) : (engine.addRules rules).staff = engine.staff :=
  staff_of_pool (matchers_addRules engine rules) (congrArg Executor.pool (executor_addRules engine rules))

theorem staff_exec (command : Command) (args : List Value) (firing : Firing) :
    (engine.exec command args firing).2.staff = engine.staff :=
  staff_of_pool (Worked.exec engine command args firing).matchers_eq
    (congrArg Executor.pool (executor_exec engine command args firing))

theorem staff_handOver (command : Command) (args : List Value) (firing : Firing) :
    (engine.handOver command args firing).staff = engine.staff := by
  obtain ⟨config, matchers, ⟨⟨workers, accepting, queue⟩, tickets, issued⟩, workspace, rules, added, state, lastFired,
    firings, failures⟩ := engine
  cases accepting <;> rfl

theorem staff_dispatch (firing : Firing) (action : Action) :
    (dispatch firing engine action).2.staff = engine.staff := by
  unfold dispatch
  cases Param.resolveAll firing.bindings action.params with
  | error cause => rfl
  | ok args =>
      cases action.command.mode with
      | sync => exact staff_exec action.command args firing
      | async => exact staff_handOver action.command args firing

theorem staff_reset : engine.reset.staff = engine.staff := by
  have hperform (engine : Engine) (job : Ticket × Job) : (engine.perform job).staff = engine.staff :=
    staff_of_pool (Worked.perform engine job).matchers_eq (pool_perform engine job)
  let begun : Engine := { engine with executor := engine.executor.takeAll.2 }
  have hsettle : (engine.executor.pool.queue.foldl perform begun).staff = engine.staff :=
    List.foldlRecOn (motive := fun after => after.staff = engine.staff) engine.executor.pool.queue perform
      (show begun.staff = engine.staff from rfl) fun middle h job _ => (hperform middle job).trans h
  exact hsettle

/-- What an engine has used up. -/
def past (engine : Engine) : Past where
  facts := engine.store.facts
  ids := engine.store.nextId
  epoch := engine.store.epoch
  lines := engine.workspace.lines
  rules := engine.added
  tickets := engine.executor.issued

/-- **A reset leaves nothing but the past.** -/
theorem reset_eq_new {config : Config} (hconfig : engine.config = config)
    (hstaff : engine.staff = (Engine.new config).staff) (hqueue : engine.executor.pool.queue = [])
    (htickets : engine.executor.tickets = []) : engine.reset = (Engine.new config).after engine.past := by
  obtain ⟨hmatchers, hpool⟩ := Prod.mk.inj hstaff
  have hexecutor : engine.executor = (Engine.new config).executor.after engine.past := by
    have hidle : engine.executor.pool = { engine.executor.pool with queue := [] } := by rw [← hqueue]
    exact (Executor.mk.injEq ..).mpr ⟨hidle.trans hpool, htickets, (Nat.zero_add _).symm⟩
  have hfacts : engine.store.facts = engine.store.facts ++ (#[] : Array Fact).map (Fact.after engine.past) := by
    rw [Array.map_empty, Array.append_empty]
  have hstore : engine.store.reset = ({} : Store).after engine.past :=
    (Store.mk.injEq ..).mpr ⟨hfacts, rfl, rfl, rfl, (UInt64.zero_add _).symm, (UInt64.zero_add _).symm⟩
  have hworkspace : { engine.workspace with store := engine.store.reset, halted := false } =
      ({} : Workspace).after engine.past :=
    (Workspace.mk.injEq ..).mpr ⟨hstore, rfl, Array.append_empty.symm⟩
  unfold reset
  rw [settle_of_queue_eq_nil hqueue]
  exact (Engine.mk.injEq ..).mpr
    ⟨hconfig, hmatchers, hexecutor, hworkspace, rfl, (Nat.zero_add _).symm, rfl, rfl, rfl, rfl⟩

end Engine

/-- Is it what a worker does? -/
def Act.byWorkers : Act → Bool
  | take | perform _ | release _ => true
  | _ => false

namespace Machine

variable {config : Config} {machine : Machine}

theorem staff_loop : machine.loop.engine.staff = machine.engine.staff :=
  loop_moves (P := fun next => next.engine.staff = machine.engine.staff) machine (fun _ _ _ => rfl) (fun _ _ => rfl)
    (fun _ _ _ => rfl) fun firing action _ _ => Engine.staff_dispatch firing action

theorem staff_grant {act : Act} (hact : act ≠ .dismiss) :
    (machine.grant act).2.engine.staff = machine.engine.staff := by
  cases act with
  | addRules rules =>
      exact Engine.staff_addRules machine.engine rules
  | load registry source =>
      show (machine.engine.load registry source).2.staff = _
      obtain ⟨store, heq | ⟨rules, heq⟩⟩ := Engine.loaded_load machine.engine registry source
      · rw [heq]
        rfl
      · rw [heq]
        exact Engine.staff_addRules _ rules
  | begin limit =>
      simp only [grant, step]
      split <;> rfl
  | reset =>
      simp only [grant]
      split
      · exact Engine.staff_reset
      · rfl
  | dismiss => exact (hact rfl).elim
  | loop => exact staff_loop
  | take =>
      simp only [grant, Machine.take]
      split <;> rfl
  | perform index =>
      simp only [grant, Machine.perform]
      split
      · rfl
      · exact Engine.staff_exec _ _ _
  | release index =>
      simp only [grant, Machine.release]
      split <;> rfl
  | memory _ | snapshot | search _ _ _ | look | template _ | get _ | fact _ | halt | lower => rfl

theorem staff_act {act : Act} (hact : act ≠ .dismiss) : (machine.act act).2.engine.staff = machine.engine.staff := by
  unfold Machine.act
  split
  · rfl
  · exact staff_grant hact

theorem staff_acts {acts : List Act} (hacts : ∀ act ∈ acts, act ≠ .dismiss) :
    (machine.acts acts).2.engine.staff = machine.engine.staff := by
  induction acts generalizing machine with
  | nil => rfl
  | cons act acts ih =>
      obtain ⟨hact, hrest⟩ := List.forall_mem_cons.1 hacts
      exact (ih hrest).trans (staff_act hact)

theorem oblivious_new (config : Config) : (Machine.new config).Oblivious :=
  fun _ hcommand => (not_mem_commands_new config hcommand).elim

/-- A reset is granted when no run and no job is under way, and leaves a new machine with a past. -/
theorem reset_eq (hsound : machine.Sound config) (hstaff : machine.engine.staff = (Engine.new config).staff) :
    machine.act .reset =
      if machine.rests = true ∧ machine.engine.outstanding = 0 then
        (.done, (Machine.new config).after machine.engine.past)
      else (.refused, machine) := by
  by_cases hrests : machine.rests = true
  · have hgrant : machine.act .reset = machine.grant .reset := if_neg (by rw [hrests]; exact Bool.noConfusion)
    rw [hgrant]
    by_cases hzero : machine.engine.outstanding = 0
    · obtain ⟨hqueue, htaken, hspent⟩ := hsound.nothing_under_way hzero
      have hreset := Engine.reset_eq_new hsound.config hstaff (List.eq_nil_of_length_eq_zero hqueue)
        (List.eq_nil_of_length_eq_zero hzero)
      rw [if_pos ⟨hrests, hzero⟩]
      simp only [grant, if_pos hzero, hreset, htaken, hspent]
      rfl
    · rw [if_neg fun h => hzero h.2]
      exact if_neg hzero
  · rw [if_neg fun h => hrests h.1]
    exact if_pos (by rw [Bool.not_eq_true] at hrests; rw [hrests]; rfl)

/-- How much the workers have to do: a job is taken, done, and its ticket is given back. -/
def workload (machine : Machine) : Nat :=
  3 * machine.engine.executor.pool.queue.length + 2 * machine.taken.length + machine.spent.length

/-- As long as a job is under way, a worker can go on with one. -/
theorem exists_progress (hsound : machine.Sound config) (hbusy : machine.engine.outstanding ≠ 0) :
    ∃ act : Act, act.byWorkers = true ∧ (machine.act act).2.point = machine.point ∧
      (machine.act act).2.workload < machine.workload := by
  obtain ⟨⟨config, matchers, ⟨⟨workers, accepting, queue⟩, tickets, issued⟩, workspace, rules, added, state, lastFired,
    firings, failures⟩, point, limit, fired, taken, spent⟩ := machine
  cases queue with
  | cons job queue =>
      refine ⟨.take, rfl, rfl, ?_⟩
      show 3 * queue.length + 2 * (taken ++ [job]).length + spent.length <
        3 * (job :: queue).length + 2 * taken.length + spent.length
      rw [List.length_append, List.length_singleton, List.length_cons]
      omega
  | nil =>
      cases taken with
      | cons job taken =>
          refine ⟨.perform 0, rfl, rfl, ?_⟩
          let engine : Engine := ⟨config, matchers, ⟨⟨workers, accepting, []⟩, tickets, issued⟩, workspace, rules,
            added, state, lastFired, firings, failures⟩
          let next := (engine.exec job.2.command job.2.args job.2.firing).2
          have hqueue : next.executor.pool.queue = [] :=
            congrArg (fun executor : Executor Job => executor.pool.queue) (Engine.executor_exec engine _ _ _)
          show 3 * next.executor.pool.queue.length + 2 * taken.length + (spent ++ [job.1]).length <
            3 * 0 + 2 * (job :: taken).length + spent.length
          rw [hqueue, List.length_append, List.length_singleton, List.length_nil, List.length_cons]
          omega
      | nil =>
          cases spent with
          | cons ticket spent =>
              refine ⟨.release 0, rfl, rfl, ?_⟩
              show 3 * 0 + 2 * 0 + spent.length < 3 * 0 + 2 * 0 + (ticket :: spent).length
              rw [List.length_cons]
              omega
          | nil => exact (hbusy hsound.balanced.length_eq.symm).elim

/-- The workers can always end the jobs under way. -/
theorem exists_clearing (hsound : machine.Sound config) :
    ∃ work : List Act, (∀ act ∈ work, act.byWorkers = true) ∧ (machine.acts work).2.point = machine.point ∧
      (machine.acts work).2.engine.outstanding = 0 := by
  induction hload : machine.workload using Nat.strongRecOn generalizing machine with
  | ind load ih =>
      by_cases hzero : machine.engine.outstanding = 0
      · exact ⟨[], List.forall_mem_nil _, rfl, hzero⟩
      · obtain ⟨act, hact, hpoint, hless⟩ := exists_progress hsound hzero
        obtain ⟨work, hwork, hpoint', hdone⟩ := ih _ (hload ▸ hless) (hsound.act act) rfl
        exact ⟨act :: work, List.forall_mem_cons.2 ⟨hact, hwork⟩, hpoint'.trans hpoint, hdone⟩

end Machine

/-- **A reset engine is as good as new.** Whatever was done with an engine that was not dismissed, with runs that
stopped at their limit and jobs that go on: once no run is under way, the workers can end the jobs so that a
reset goes through. And then nothing is left of what was before. All that is done later, by whomever and in any order,
with commands that do their work through the references that they are given, and with no fact and no snapshot
from before, is answered as by a new engine of the same configuration, but that constants are added to the ids of
facts, to the epoch and to the numbers by which facts, rules and tickets are told apart. -/
theorem reset_equals_fresh (config : Config) (history : List Act) (hserving : ∀ act ∈ history, act ≠ .dismiss) :
    let machine := ((Machine.new config).acts history).2
    (machine.rests = true →
      ∃ work : List Act, (∀ act ∈ work, act.byWorkers = true) ∧ ((machine.acts work).2.act .reset).1 = .done) ∧
    ∀ after, machine.act .reset = (.done, after) →
      after = (Machine.new config).after machine.engine.past ∧
      ∀ later : List Act, (∀ act ∈ later, act.IsSince machine.engine.past) →
        (∀ act ∈ later, ∀ command, act.Brings command → command.Oblivious) →
        after.acts later =
          let twin := (Machine.new config).acts (later.map (Act.before machine.engine.past))
          (twin.1.map (Reply.after machine.engine.past), twin.2.after machine.engine.past) := by
  intro machine
  have hsound : machine.Sound config := (Machine.Sound.new config).acts history
  have hstaff : machine.engine.staff = (Engine.new config).staff := Machine.staff_acts hserving
  constructor
  · intro hrests
    obtain ⟨work, hwork, hpoint, hzero⟩ := Machine.exists_clearing hsound
    have hstays : (machine.acts work).2.rests = true := by
      rw [Machine.rests, hpoint]
      exact hrests
    have hworkstaff : (machine.acts work).2.engine.staff = (Engine.new config).staff :=
      (Machine.staff_acts fun act hact hdismiss => Bool.noConfusion (hdismiss ▸ hwork act hact)).trans hstaff
    refine ⟨work, hwork, ?_⟩
    rw [Machine.reset_eq (hsound.acts work) hworkstaff, if_pos ⟨hstays, hzero⟩]
  · intro after hafter
    rw [Machine.reset_eq hsound hstaff] at hafter
    split at hafter
    · obtain rfl := (Prod.mk.inj hafter).2
      exact ⟨rfl, fun later hsince hcommands =>
        Machine.acts_before (Machine.oblivious_new config) (.new config) hsince hcommands⟩
    · cases hafter

/-- A rule that leaves a line to the workers, and then tries to remove a fact that it has not matched. -/
def strayRule : Rule where
  name := "stray"
  conditions := []
  actions := [⟨Builtin.write.command.later, [.literal (.str "noted")]⟩, ⟨Builtin.remove.command, [.literal (.int 0)]⟩]

theorem oblivious_strayRule : ∀ command ∈ strayRule.commands, command.Oblivious :=
  List.forall_mem_cons.2
    ⟨Builtin.write.oblivious_command.later, List.forall_mem_singleton.2 Builtin.remove.oblivious_command⟩

def strayMatch : Match := ⟨⟨0, strayRule⟩, [], Dictionary.empty⟩

/-- An item is made, and a run begins that is to fire one rule. -/
def opening : List Act := [
  .memory (.register ⟨"item", [("name", .nil)]⟩), .memory (.make "item" []), .addRules [strayRule], .begin (some 1),
  .loop, .loop]

/-- The rule is fired, and the run stops at its limit. Then a reset has to wait for the worker. -/
def stopping : List Act := List.replicate 5 .loop ++ [.halt, .reset, .take, .perform 0, .release 0]

/-- The rule is added again, and another item is made, drained and removed. -/
def itemAgain : List Act := [
  .template "item", .get "item", .memory (.register ⟨"item", [("name", .nil)]⟩), .addRules [strayRule],
  .memory (.make "item" []), .memory .drain, .get "item", .fact ⟨1⟩, .memory (.remove ⟨1⟩)]

def opened : Machine := ((Machine.new .sequential).acts opening).2

theorem acts_opening_stopping :
    ((Machine.new .sequential).acts (opening ++ .loop :: stopping)).2 = ((opened.fire strayMatch).acts stopping).2 := by
  have hall : opened.engine.matchAll = Match.all none opened.engine.view [⟨0, strayRule⟩] := rfl
  have hchoose : opened.engine.choose = some strayMatch := by
    rw [Engine.choose_of_matchAll hall]
    rfl
  rw [Machine.acts_append]
  exact Machine.acts_loop_of_choose rfl hchoose stopping

/-- A reset after a failure, a job and a request to halt. The next item is the second fact that there ever was. -/
theorem reset_equals_fresh_stray :
    let history := opening ++ .loop :: stopping
    let machine := ((Machine.new .sequential).acts history).2
    let after := (machine.act .reset).2
    let past := machine.engine.past
    (∀ act ∈ history, act ≠ .dismiss) ∧ machine.engine.failures.size = 1 ∧ machine.engine.workspace.halted = true ∧
      machine.act .reset = (.done, after) ∧ (∀ act ∈ itemAgain, act.IsSince past) ∧
      (∀ act ∈ itemAgain, ∀ command, act.Brings command → command.Oblivious) ∧
      (after.acts itemAgain).1 =
        ((Machine.new .sequential).acts (itemAgain.map (Act.before past))).1.map (Reply.after past) ∧
      (after.acts itemAgain).1 = [
        .template none, .facts [], .answer .done, .done, .answer (.made (.ok ⟨1⟩)), .answer (.flag true),
        .facts [⟨1⟩], .fact (some ⟨⟨1⟩, "item", [("name", .nil)], false⟩), .answer (.flag true)] := by
  intro history machine after past
  have hmachine : machine = ((opened.fire strayMatch).acts stopping).2 := acts_opening_stopping
  have hserving : ∀ act ∈ history, act ≠ .dismiss := by simp [history, opening, stopping]
  have hdone : (machine.act .reset).1 = .done := by
    rw [hmachine]
    rfl
  have hreset : machine.act .reset = (.done, after) := Prod.ext hdone rfl
  have hsize : past.facts.size = 1 := by
    show machine.engine.past.facts.size = 1
    rw [hmachine]
    rfl
  have hsince : ∀ act ∈ itemAgain, act.IsSince past := by
    simp [itemAgain, Act.IsSince, Operation.IsSince, Operation.subject?, FactRef.IsSince, hsize]
  have hcommands : ∀ act ∈ itemAgain, ∀ command, act.Brings command → command.Oblivious := by
    simpa [itemAgain, Act.Brings] using oblivious_strayRule
  obtain ⟨-, hfresh⟩ := reset_equals_fresh .sequential history hserving
  have hlater := congrArg Prod.fst ((hfresh after hreset).2 itemAgain hsince hcommands)
  refine ⟨hserving, ?_, ?_, hreset, hsince, hcommands, hlater, ?_⟩
  · rw [hmachine]
    rfl
  · rw [hmachine]
    rfl
  · show ((machine.act .reset).2.acts itemAgain).1 = _
    rw [hmachine]
    rfl

end ProductionSystem
