import ProductionSystem.Proofs.TicketBalance

/-!
The cycles of a run as schedules. A run does the jobs of the workers one after the other, while the loop waits for
them or before a long match is over. That is one of the orders in which loop and workers can move: each
cycle of a run is a schedule of moves, and what holds after every schedule holds of runs.
-/

namespace ProductionSystem

namespace Machine

/-- The loop dispatches the actions of a firing, one in each move. -/
theorem run_act (machine : Machine) (firing : Firing) (actions : List Action) :
    run { machine with point := .act firing actions } (List.replicate (actions.length + 1) .loop) =
      { machine with
        engine := (actions.foldl (fun state action => Engine.dispatch state.1 state.2 action)
          (firing, machine.engine)).2
        point := .start } := by
  induction actions generalizing machine firing with
  | nil => rfl
  | cons action actions ih =>
      rw [List.length_cons, List.replicate_succ, run_cons]
      exact ih { machine with engine := (machine.engine.dispatch firing action).2 } _

theorem run_fire (machine : Machine) {found : Match} (hchoose : machine.engine.choose = some found) :
    run { machine with point := .matching }
        (List.replicate (found.source.rule.actions.length + 2) .loop) =
      { machine with engine := machine.engine.fire found, fired := machine.fired + 1, point := .start } := by
  have hfire : step { machine with point := .matching } .loop = machine.fire found := by
    simp only [step, loop, hchoose, fire]
  rw [List.replicate_succ, run_cons, hfire]
  exact run_act { machine with
    engine := { machine.engine with lastFired := some found.source, firings := machine.engine.firings + 1 }
    fired := machine.fired + 1 } _ _

theorem run_take (machine : Machine) {jobs : List (Ticket × Job)}
    (hqueue : machine.engine.executor.pool.queue = jobs) :
    machine.run (List.replicate jobs.length .take) =
      { machine with
        engine := { machine.engine with executor := machine.engine.executor.takeAll.2 }
        taken := machine.taken ++ jobs } := by
  induction jobs generalizing machine with
  | nil =>
      rw [List.append_nil, Executor.takeAll_of_queue_eq_nil hqueue]
      rfl
  | cons job jobs ih =>
      have hstep : machine.step .take = { machine with
          engine := { machine.engine with executor := { machine.engine.executor with
            pool := { machine.engine.executor.pool with queue := jobs } } }
          taken := machine.taken ++ [job] } := by
        simp only [step, take, hqueue]
      rw [List.length_cons, List.replicate_succ, run_cons, hstep, ih _ rfl, List.append_assoc]
      rfl

/-- The workers do the jobs that they have taken, and give each ticket back at once. -/
theorem run_perform (machine : Machine) (jobs : List (Ticket × Job)) :
    run { machine with taken := jobs, spent := [] }
        (List.replicate jobs.length [.perform 0, .release 0]).flatten =
      { machine with engine := jobs.foldl Engine.perform machine.engine, taken := [], spent := [] } := by
  induction jobs generalizing machine with
  | nil => rfl
  | cons job jobs ih =>
      rw [List.length_cons, List.replicate_succ, List.flatten_cons]
      exact ih { machine with engine := machine.engine.perform job }

/-- The moves in which the workers do all jobs that are queued. -/
def settling (count : Nat) : List Move :=
  List.replicate count .take ++ (List.replicate count [.perform 0, .release 0]).flatten

theorem run_settling (machine : Machine) (htaken : machine.taken = []) (hspent : machine.spent = []) :
    machine.run (settling machine.engine.backlog) = { machine with engine := machine.engine.settle } := by
  obtain ⟨engine, point, limit, fired, taken, spent⟩ := machine
  subst htaken hspent
  rw [settling, run, List.foldl_append]
  show run (run _ _) _ = _
  rw [Engine.backlog, run_take _ rfl]
  exact run_perform ⟨{ engine with executor := engine.executor.takeAll.2 }, point, limit, fired, [], []⟩ _

/-- If the workers have nothing to do, all tickets are back. -/
theorem Sound.outstanding_eq_zero {config : Config} {machine : Machine} (h : machine.Sound config)
    (hbacklog : machine.engine.backlog = 0) (htaken : machine.taken = []) (hspent : machine.spent = []) :
    machine.engine.outstanding = 0 := by
  have hlength := h.balanced.length_eq
  have hqueue : machine.engine.executor.pool.queue.length = 0 := hbacklog
  rw [htaken, hspent, List.length_append, List.length_map, hqueue] at hlength
  exact hlength.symm

theorem Sound.settle {config : Config} {machine : Machine} (h : machine.Sound config)
    (htaken : machine.taken = []) (hspent : machine.spent = []) :
    Sound config { machine with engine := machine.engine.settle } := by
  rw [← run_settling machine htaken hspent]
  exact h.run _

/-- The machine at the start of a cycle of a run. -/
def ofRun (limit : Option Nat) (run : Run) : Machine where
  engine := run.engine
  point := .start
  limit
  fired := run.fired

/-- Does a schedule lead from one state of the machine to the other? -/
def LeadsTo (a b : Machine) : Prop := ∃ moves, a.run moves = b

theorem LeadsTo.trans {a b c : Machine} (hab : LeadsTo a b) (hbc : LeadsTo b c) : LeadsTo a c := by
  obtain ⟨moves, rfl⟩ := hab
  obtain ⟨later, rfl⟩ := hbc
  exact ⟨moves ++ later, run_append a moves later⟩

/-- Can the loop only go on once the epoch is another one, though no ticket is out? -/
def Stuck (machine : Machine) : Prop :=
  ∃ seen, machine.point = .wait seen ∧ machine.engine.store.quietSince seen = true ∧
    machine.engine.outstanding = 0

section Cycle

variable {config : Config} {run : Run} {limit : Option Nat} {machine : Machine}

theorem leadsTo_matching (hgoing : run.engine.workspace.halted = false)
    (hlimit : limit.any (· ≤ run.fired) = false) :
    LeadsTo (ofRun limit run) { ofRun limit run with engine := run.engine.drain, point := .matching } :=
  ⟨[.loop, .loop], by simp [Machine.run, step, loop, ofRun, hgoing, hlimit]⟩

/-- No rule matches, no fact is pending, and no one asked to halt. -/
theorem leadsTo_countTickets (hempty : machine.engine.store.hasPending = false)
    (hgoing : machine.engine.workspace.halted = false) :
    LeadsTo { machine with point := .readEpoch }
      { machine with point := .countTickets machine.engine.store.epoch } :=
  ⟨[.loop, .loop, .loop], by simp [Machine.run, step, loop, hempty, hgoing]⟩

theorem leadsTo_close (hzero : machine.engine.outstanding = 0)
    (hpatient : machine.engine.config.idleTimeout = none) (seen : UInt64) :
    LeadsTo { machine with point := .countTickets seen } { machine with point := .close .quiescent } :=
  ⟨[.loop], by simp [Machine.run, step, loop, hzero, hpatient]⟩

theorem leadsTo_settle (htaken : machine.taken = []) (hspent : machine.spent = []) :
    LeadsTo machine { machine with engine := machine.engine.settle } :=
  ⟨settling machine.engine.backlog, run_settling machine htaken hspent⟩

/-- A worker still has a job: the loop waits until all jobs are done. -/
theorem leadsTo_start_or_stuck (hsound : machine.Sound config) (htaken : machine.taken = [])
    (hspent : machine.spent = []) (hbusy : machine.engine.backlog ≠ 0) (seen : UInt64) :
    LeadsTo { machine with point := .countTickets seen }
        { machine with engine := machine.engine.settle.drain, point := .start } ∨
      ∃ stuck, LeadsTo { machine with point := .countTickets seen } stuck ∧ stuck.Stuck := by
  have htickets : machine.engine.outstanding ≠ 0 := fun hzero => hbusy (hsound.nothing_under_way hzero).1
  have hwait : LeadsTo { machine with point := .countTickets seen } { machine with point := .wait seen } :=
    ⟨[.loop], by simp [Machine.run, step, loop, htickets]⟩
  have hdone : LeadsTo { machine with point := .countTickets seen }
      { machine with engine := machine.engine.settle, point := .wait seen } :=
    hwait.trans (@leadsTo_settle { machine with point := .wait seen } htaken hspent)
  cases hquiet : machine.engine.settle.store.quietSince seen with
  | true =>
      have hzero := (hsound.settle htaken hspent).outstanding_eq_zero machine.engine.backlog_settle htaken hspent
      exact .inr ⟨_, hdone, seen, rfl, hquiet, hzero⟩
  | false => exact .inl (hdone.trans ⟨[.loop], by simp [Machine.run, step, loop, hquiet]⟩)

/-- The workers are done: the loop goes on if they have left a fact or a request to halt, and else is over. -/
theorem leadsTo_start_or_close (hsound : machine.Sound config) (hbacklog : machine.engine.backlog = 0)
    (htaken : machine.taken = []) (hspent : machine.spent = [])
    (hpatient : machine.engine.config.idleTimeout = none) :
    LeadsTo { machine with point := .readEpoch }
      { machine with
        point := if machine.engine.store.hasPending || machine.engine.workspace.halted then .start
          else .close .quiescent } := by
  cases hpending : machine.engine.store.hasPending with
  | true => exact ⟨[.loop, .loop], by simp [Machine.run, step, loop, hpending]⟩
  | false =>
      cases hhalted : machine.engine.workspace.halted with
      | true => exact ⟨[.loop, .loop, .loop], by simp [Machine.run, step, loop, hpending, hhalted]⟩
      | false =>
          have hzero := hsound.outstanding_eq_zero hbacklog htaken hspent
          exact (leadsTo_countTickets hpending hhalted).trans (leadsTo_close hzero hpatient _)

/-- **Each cycle of a run is a schedule.** What the cycle comes to is what a schedule leads to; only if the
epoch has come round while the loop waited, so that it takes the signals for none, the loop is stuck. -/
theorem cycle_is_scheduled (hsound : (ofRun limit run).Sound config) (hpatient : config.idleTimeout = none)
    (hgoing : run.engine.workspace.halted = false) (hlimit : limit.any (· ≤ run.fired) = false) :
    match run.cycle with
    | .fired _ next => LeadsTo (ofRun limit run) (ofRun limit next)
    | .quiet next => LeadsTo (ofRun limit run) { ofRun limit next with point := .close .quiescent }
    | .again next =>
      LeadsTo (ofRun limit run) (ofRun limit next) ∨
        ∃ stuck, LeadsTo (ofRun limit run) stuck ∧ stuck.Stuck := by
  let drained : Machine := { ofRun limit run with engine := run.engine.drain }
  have hmatching : LeadsTo (ofRun limit run) { drained with point := .matching } :=
    leadsTo_matching hgoing hlimit
  have hdrained : drained.Sound config := hsound.of_eq rfl rfl hsound.balanced
  have hforever : run.engine.config.idleTimeout = none := hsound.config ▸ hpatient
  cases hchoose : run.engine.drain.choose with
  | some found =>
      simp only [Run.cycle, hchoose]
      exact hmatching.trans ⟨_, run_fire drained hchoose⟩
  | none =>
      have hidle : LeadsTo (ofRun limit run) { drained with point := .readEpoch } :=
        hmatching.trans ⟨[.loop], by simp [Machine.run, step, loop, drained, hchoose]⟩
      simp only [Run.cycle, hchoose, Run.idle]
      by_cases hrest : run.engine.drain.backlog = 0
      · rw [if_pos hrest]
        simp only [Run.rest, show run.engine.drain.config.idleTimeout = none from hforever]
        have hover := leadsTo_start_or_close hdrained hrest rfl rfl hforever
        rw [show drained.engine.store.hasPending = false from rfl,
          show drained.engine.workspace.halted = false from hgoing] at hover
        exact hidle.trans hover
      · rw [if_neg hrest]
        by_cases hlingers : run.engine.drain.lingers = true
        · -- the match took so long that the workers were done before the loop looked
          rw [if_pos hlingers]
          let settled : Machine := { drained with engine := drained.engine.settle }
          have hsettled : settled.Sound config := hdrained.settle rfl rfl
          have hpatiently : run.engine.drain.settle.config.idleTimeout = none := hsettled.config ▸ hpatient
          have hlate : LeadsTo (ofRun limit run) { settled with point := .readEpoch } :=
            hidle.trans (@leadsTo_settle { drained with point := .readEpoch } rfl rfl)
          have hlooks := hlate.trans
            (leadsTo_start_or_close hsettled run.engine.drain.backlog_settle rfl rfl hpatiently)
          by_cases hleft : (run.engine.drain.settle.store.hasPending ||
              run.engine.drain.settle.workspace.halted) = true
          · rw [if_pos hleft]
            rw [if_pos (show (settled.engine.store.hasPending || settled.engine.workspace.halted) = true
              from hleft)] at hlooks
            exact .inl hlooks
          · rw [if_neg hleft]
            rw [if_neg (show ¬(settled.engine.store.hasPending || settled.engine.workspace.halted) = true
              from hleft)] at hlooks
            simp only [Run.rest, hpatiently]
            exact hlooks
        · rw [if_neg hlingers]
          have hcounting := hidle.trans (@leadsTo_countTickets drained rfl hgoing)
          rcases leadsTo_start_or_stuck hdrained rfl rfl hrest drained.engine.store.epoch with hstart | hstuck
          · exact .inl (hcounting.trans hstart)
          · obtain ⟨stuck, hleads, hstuck⟩ := hstuck
            exact .inr ⟨stuck, hcounting.trans hleads, hstuck⟩

end Cycle

end Machine

end ProductionSystem
