import ProductionSystem.Proofs.FixedPoint
import ProductionSystem.Proofs.Loads

/-!
What an engine is equipped with: its workers for matching and for actions. As long as all actions are done on the
loop, and the workers for matching are idle, the equipment does not show: whatever is done to an engine, and
whatever it does, comes to the same with any other equipment. Only dismissing the workers changes the equipment
itself, and what an engine says it is doing.
-/

namespace ProductionSystem

/-- What an engine is equipped with, and what it says it is doing. -/
structure Equipment where
  parallelMatch : Bool
  matchWorkers : Nat
  matchers : Option (WorkerPool (Nat × RuleInstance))
  executor : Executor Job
  state : EngineState

/-- Has a pool no job, and a worker for what it accepts? -/
structure WorkerPool.Waiting {J : Type} (pool : WorkerPool J) : Prop where
  idle : pool.queue = []
  staffed : pool.accepting = true → 0 < pool.workers

/-- Have all workers nothing to do? -/
structure Equipment.Ready (equipment : Equipment) : Prop where
  waiting : ∀ pool ∈ equipment.matchers, pool.Waiting
  workless : equipment.executor.pool.queue = []

/-- The equipment after the workers are dismissed. -/
def Equipment.dismissed (equipment : Equipment) : Equipment :=
  { equipment with matchers := none, executor := equipment.executor.shutdown.2, state := .halted }

theorem Equipment.ready_dismissed (equipment : Equipment) : equipment.dismissed.Ready :=
  ⟨fun pool hpool => (Option.not_mem_none pool hpool).elim, rfl⟩

namespace Engine

def equipment (engine : Engine) : Equipment where
  parallelMatch := engine.config.parallelMatch
  matchWorkers := engine.config.matchWorkers
  matchers := engine.matchers
  executor := engine.executor
  state := engine.state

/-- The engine with other equipment. -/
def equipped (equipment : Equipment) (engine : Engine) : Engine :=
  { engine with
    config := { engine.config with
      parallelMatch := equipment.parallelMatch, matchWorkers := equipment.matchWorkers }
    matchers := equipment.matchers
    executor := equipment.executor
    state := equipment.state }

end Engine

namespace Engine

variable (equipment : Equipment) (engine : Engine)

section Setup

theorem install_equipped (rule : Rule) :
    (engine.equipped equipment).install rule = (engine.install rule).equipped equipment := rfl

theorem arrange_equipped : (engine.equipped equipment).arrange = engine.arrange.equipped equipment := by
  by_cases hsort : engine.config.sortBySpecificity = true
  · have hsort' : (engine.equipped equipment).config.sortBySpecificity = true := hsort
    rw [arrange, arrange, if_pos hsort, if_pos hsort']
    rfl
  · have hsort' : ¬(engine.equipped equipment).config.sortBySpecificity = true := hsort
    rw [arrange, arrange, if_neg hsort, if_neg hsort']

theorem addRules_equipped (rules : List Rule) :
    (engine.equipped equipment).addRules rules = (engine.addRules rules).equipped equipment := by
  have hinstall : rules.foldl install (engine.equipped equipment) =
      (rules.foldl install engine).equipped equipment :=
    List.foldl_hom (equipped equipment) (install_equipped equipment)
  rw [addRules, addRules, hinstall, arrange_equipped]

/-- A load does not depend on the equipment. -/
theorem loadMap_equipped : LoadMap (equipped equipment) id where
  register _ _ := rfl
  make _ _ _ := Prod.ext (Except.map_id ▸ rfl) rfl
  addRules engine rules := addRules_equipped equipment engine rules

theorem loadDocument_equipped (registry : Registry) (json : Json) :
    (engine.equipped equipment).loadDocument registry json =
      ((engine.loadDocument registry json).1, (engine.loadDocument registry json).2.equipped equipment) :=
  (loadMap_equipped equipment).loadDocument engine registry json

theorem loadText_equipped (registry : Registry) (text : String) :
    (engine.equipped equipment).loadText registry text =
      ((engine.loadText registry text).1, (engine.loadText registry text).2.equipped equipment) :=
  (loadMap_equipped equipment).loadText engine registry text

theorem loadFile_equipped (registry : Registry) (path : String) (contents : Except ReadFailure String) :
    (engine.equipped equipment).loadFile registry path contents =
      ((engine.loadFile registry path contents).1,
        (engine.loadFile registry path contents).2.equipped equipment) :=
  (loadMap_equipped equipment).loadFile engine registry path contents

end Setup

section Firing

theorem exec_equipped (command : Command) (args : List Value) (firing : Firing) :
    (engine.equipped equipment).exec command args firing =
      ((engine.exec command args firing).1, (engine.exec command args firing).2.equipped equipment) := by
  have hworkspace : (engine.equipped equipment).workspace = engine.workspace := rfl
  simp only [exec, hworkspace]
  cases command.run args ⟨firing, engine.workspace⟩ with
  | mk failure after => cases failure <;> rfl

theorem dispatch_equipped (firing : Firing) {action : Action} (hsync : action.command.mode = .sync) :
    dispatch firing (engine.equipped equipment) action =
      ((dispatch firing engine action).1, (dispatch firing engine action).2.equipped equipment) := by
  unfold dispatch
  cases Param.resolveAll firing.bindings action.params with
  | error cause => rfl
  | ok args =>
      simp only [hsync, exec_equipped]
      rfl

/-- A rule whose actions are done on the loop is fired the same way. -/
theorem fire_equipped {found : Match}
    (hsync : ∀ action ∈ found.source.rule.actions, action.command.mode = .sync) :
    (engine.equipped equipment).fire found = (engine.fire found).equipped equipment := by
  have hactions (actions : List Action) (hmode : ∀ action ∈ actions, action.command.mode = .sync)
      (firing : Firing) (engine : Engine) :
      actions.foldl (fun state action => dispatch state.1 state.2 action) (firing, engine.equipped equipment) =
        let after := actions.foldl (fun state action => dispatch state.1 state.2 action) (firing, engine)
        (after.1, after.2.equipped equipment) := by
    induction actions generalizing firing engine with
    | nil => rfl
    | cons action actions ih =>
        have hdispatch := dispatch_equipped equipment engine firing (hmode action List.mem_cons_self)
        rw [List.foldl_cons, List.foldl_cons, hdispatch]
        exact ih (fun other hother => hmode other (List.mem_cons_of_mem _ hother)) _ _
  exact congrArg Prod.snd (hactions found.source.rule.actions hsync _
    { engine with lastFired := some found.source, firings := engine.firings + 1 })

end Firing

variable {equipment engine}

theorem settle_equipped (hready : equipment.Ready) (hqueue : engine.executor.pool.queue = []) :
    (engine.equipped equipment).settle = engine.settle.equipped equipment := by
  have hworkless : (engine.equipped equipment).executor.pool.queue = [] := hready.workless
  rw [settle_of_queue_eq_nil hqueue, settle_of_queue_eq_nil hworkless]

theorem choose_equipped (hready : equipment.Ready) (hidle : ∀ pool ∈ engine.matchers, pool.queue = []) :
    (engine.equipped equipment).choose = engine.choose := by
  have hall : engine.matchAll = Match.all engine.config.maxMatchFrames engine.view engine.rules :=
    Match.allBy_eq_all hidle
  have hother : (engine.equipped equipment).matchAll =
      Match.all engine.config.maxMatchFrames engine.view engine.rules :=
    Match.allBy_eq_all fun pool hpool => (hready.waiting pool hpool).idle
  rw [choose, choose, hall, hother]
  rfl

theorem reset_equipped (hready : equipment.Ready) (hqueue : engine.executor.pool.queue = []) :
    (engine.equipped equipment).reset = engine.reset.equipped { equipment with state := .idle } := by
  unfold reset
  rw [settle_equipped hready hqueue]
  rfl

end Engine

namespace Run

/-- The run, of an engine with other equipment. -/
def equipped (equipment : Equipment) (run : Run) : Run := { run with engine := run.engine.equipped equipment }

variable {equipment : Equipment} {run : Run}

theorem listen_equipped (timeout : Nat) :
    (run.equipped equipment).listen timeout = (run.listen timeout).map (equipped equipment) := by
  let waited := run.engine.workspace.await run.engine.store.epoch (some (run.clock + timeout)) run.arrivals
  let next : Run :=
    { run with
      engine := { run.engine with workspace := waited.workspace }.drain
      arrivals := waited.later
      clock := waited.signal?.getD (run.clock + timeout) }
  let lively := waited.signal?.isSome && (waited.workspace.store.hasPending || waited.workspace.halted)
  show (if lively then Cycle.again (next.equipped equipment) else Cycle.quiet (next.equipped equipment)) =
    (if lively then Cycle.again next else Cycle.quiet next).map (equipped equipment)
  split
  · rfl
  · rfl

theorem rest_equipped : (run.equipped equipment).rest = run.rest.map (equipped equipment) := by
  have htimeout : (run.equipped equipment).engine.config.idleTimeout = run.engine.config.idleTimeout := rfl
  unfold rest
  rw [htimeout]
  cases run.engine.config.idleTimeout with
  | none => rfl
  | some timeout => exact listen_equipped timeout

theorem cycle_equipped (hready : equipment.Ready) (hsynchronous : run.engine.Synchronous) :
    (run.equipped equipment).cycle = run.cycle.map (equipped equipment) := by
  obtain ⟨fired, hsound⟩ := hsynchronous.sound
  have hdrained : run.engine.drain.agenda.Sound fired := hsound
  have hsame : (run.equipped equipment).engine.drain.choose = run.engine.drain.choose :=
    @Engine.choose_equipped _ run.engine.drain hready hsound.idle
  cases hchoose : run.engine.drain.choose with
  | some found =>
      have hsync : ∀ action ∈ found.source.rule.actions, action.command.mode = .sync :=
        hsynchronous.sync found.source (hdrained.of_choose_eq_some hchoose).1
      have hfire : (run.equipped equipment).engine.drain.fire found =
          (run.engine.drain.fire found).equipped equipment :=
        Engine.fire_equipped equipment run.engine.drain hsync
      rw [cycle_of_some hchoose, cycle_of_some (hsame.trans hchoose), hfire]
      rfl
  | none =>
      have hworkless : ({ run with engine := run.engine.drain }).engine.backlog = 0 :=
        congrArg List.length hsynchronous.queue_eq_nil
      have hworkless' :
          ({ run.equipped equipment with engine := (run.equipped equipment).engine.drain }).engine.backlog = 0 :=
        congrArg List.length hready.workless
      rw [cycle_of_none hchoose, cycle_of_none (hsame.trans hchoose), idle_of_workless hworkless,
        idle_of_workless hworkless']
      exact @rest_equipped equipment { run with engine := run.engine.drain }

theorem steps_equipped (hready : equipment.Ready) (hsynchronous : run.engine.Synchronous) (limit : Nat) :
    (run.equipped equipment).steps limit = ((run.steps limit).1, (run.steps limit).2.equipped equipment) := by
  induction run, limit using steps.induct with
  | case1 run limit hhalted =>
      have hhalted' : (run.equipped equipment).engine.workspace.halted = true := hhalted
      rw [steps_of_halted hhalted, steps_of_halted hhalted']
  | case2 run hgoing =>
      have hgoing' : ¬(run.equipped equipment).engine.workspace.halted = true := hgoing
      rw [steps_zero hgoing, steps_zero hgoing']
  | case3 run hgoing limit found next hfired ih =>
      have hgoing' : ¬(run.equipped equipment).engine.workspace.halted = true := hgoing
      have hcycle := cycle_equipped hready hsynchronous
      have hnext := hsynchronous.cycle
      rw [hfired] at hcycle hnext
      rw [steps_eq_of_fired hgoing hfired, steps_eq_of_fired hgoing' hcycle]
      exact ih hnext
  | case4 run hgoing limit next hagain ih =>
      have hgoing' : ¬(run.equipped equipment).engine.workspace.halted = true := hgoing
      have hcycle := cycle_equipped hready hsynchronous
      have hnext := hsynchronous.cycle
      rw [hagain] at hcycle hnext
      rw [steps_eq_of_again hgoing hagain, steps_eq_of_again hgoing' hcycle]
      exact ih hnext
  | case5 run hgoing limit next hquiet =>
      have hgoing' : ¬(run.equipped equipment).engine.workspace.halted = true := hgoing
      have hcycle := cycle_equipped hready hsynchronous
      rw [hquiet] at hcycle
      rw [steps_eq_of_quiet hgoing hquiet, steps_eq_of_quiet hgoing' hcycle]

/-- What a run leaves, when it is closed, is what it leaves with other equipment. -/
theorem close_equipped (hready : equipment.Ready) (hqueue : run.engine.executor.pool.queue = []) (outcome : Outcome) :
    (run.equipped equipment).close outcome =
      ((run.close outcome).1, (run.close outcome).2.equipped
        { equipment with state := (run.close outcome).2.state }) := by
  have hsettle := Engine.settle_equipped hready hqueue
  cases outcome with
  | stepLimit => rfl
  | halted =>
      show (_, _) = _
      refine Prod.ext rfl ?_
      show { (run.engine.equipped equipment).settle with state := .halted } = _
      rw [hsettle]
      rfl
  | quiescent =>
      refine Prod.ext rfl ?_
      show { (run.engine.equipped equipment).settle with state := .halted } = _
      rw [hsettle]
      rfl

end Run

end ProductionSystem
