import ProductionSystem.Proofs.Quiescence
import ProductionSystem.Proofs.SplitRuns

/-!
Quiet as a fixed point. Where all actions are done on the loop, the workers never have a job: each job was once an
action of a rule that the engine still has. Then nothing happens between the last match of a run and its end, so
what the run found is what it leaves, and the next run finds the same.
-/

namespace ProductionSystem

namespace Engine

/-- Are all actions of the rules done on the loop? -/
def SyncOnly (engine : Engine) : Prop :=
  ∀ source ∈ engine.rules, ∀ action ∈ source.rule.actions, action.command.mode = .sync

/-- Is each job of the workers an asynchronous action of a rule of the engine? -/
def JobsOfRules (engine : Engine) : Prop :=
  ∀ job ∈ engine.executor.pool.queue, ∃ source ∈ engine.rules, ∃ action ∈ source.rule.actions,
    action.command.mode = .async ∧ job.2.command = action.command

namespace JobsOfRules

variable {engine after : Engine}

theorem of_queue_eq_nil (h : engine.executor.pool.queue = []) : engine.JobsOfRules := by
  intro job hjob
  rw [h] at hjob
  cases hjob

theorem mono (h : engine.JobsOfRules) (hrules : engine.rules ⊆ after.rules)
    (hqueue : after.executor.pool.queue ⊆ engine.executor.pool.queue) : after.JobsOfRules := by
  intro job hjob
  obtain ⟨source, hsource, hasync⟩ := h job (hqueue hjob)
  exact ⟨source, hrules hsource, hasync⟩

theorem arrange (h : engine.JobsOfRules) : engine.arrange.JobsOfRules := by
  unfold Engine.arrange
  split
  · exact h.mono (List.mergeSort_perm engine.rules _).symm.subset (List.Subset.refl _)
  · exact h

theorem addRules (h : engine.JobsOfRules) (rules : List Rule) : (engine.addRules rules).JobsOfRules := by
  refine arrange ?_
  induction rules generalizing engine with
  | nil => exact h
  | cons rule rules ih => exact ih (h.mono (List.subset_append_left _ _) (List.Subset.refl _))

theorem loaded (h : engine.JobsOfRules) (hload : engine.Loaded after) : after.JobsOfRules := by
  obtain ⟨store, rfl | ⟨rules, rfl⟩⟩ := hload
  · exact h
  · exact addRules (show (engine.withStore store).JobsOfRules from h) rules

theorem queue_eq_nil (h : engine.JobsOfRules) (hsync : engine.SyncOnly) : engine.executor.pool.queue = [] := by
  refine List.eq_nil_iff_forall_not_mem.2 fun job hjob => ?_
  obtain ⟨source, hsource, action, haction, hasync, -⟩ := h job hjob
  rw [hsync source hsource action haction] at hasync
  cases hasync

end JobsOfRules

end Engine

namespace Run

variable {run : Run} {job : Ticket × Job}

theorem queue_idle_subset : run.idle.toRun.engine.executor.pool.queue ⊆ run.engine.executor.pool.queue := by
  refine of_idle (P := fun later => later.engine.executor.pool.queue ⊆ run.engine.executor.pool.queue)
    (fun _ _ h => h) (fun later _ => ?_) (fun _ h => h) (List.Subset.refl _)
  rw [Engine.queue_settle]
  exact List.nil_subset _

end Run

/-- What a cycle brings to the queue of the workers are actions of the rule that it fires. -/
theorem Engine.JobsOfRules.cycle {run : Run} {fired : List RuleInstance} (h : run.engine.JobsOfRules)
    (hsound : run.engine.agenda.Sound fired) : run.cycle.toRun.engine.JobsOfRules := by
  have hdrained : run.engine.drain.agenda.Sound fired := hsound
  cases hchoose : run.engine.drain.choose with
  | none =>
      have hrules := (@Run.passes_idle { run with engine := run.engine.drain }).worked.rules_eq
      have hqueue := @Run.queue_idle_subset { run with engine := run.engine.drain }
      rw [Run.cycle_of_none hchoose]
      exact h.mono (hrules ▸ List.Subset.refl _) hqueue
  | some found =>
      rw [Run.cycle_of_some hchoose]
      intro job hjob
      have hrules : (run.engine.drain.fire found).rules = run.engine.rules :=
        (Engine.Worked.fire run.engine.drain found).rules_eq
      rcases Engine.of_mem_queue_fire hjob with hqueued | ⟨action, haction, hasync⟩
      · obtain ⟨source, hsource, hold⟩ := h job hqueued
        exact ⟨source, hrules ▸ hsource, hold⟩
      · have hsource : found.source ∈ run.engine.rules := (hdrained.of_choose_eq_some hchoose).1
        exact ⟨found.source, hrules ▸ hsource, action, haction, hasync⟩

namespace Chronicle

/-- Do the workers get no jobs in an event but from the engine? Others may make them do jobs at any time. -/
def KeepsJobs (chronicle : Chronicle) : EngineEvent → Prop
  | .meanwhile _ executor _ => executor.pool.queue ⊆ chronicle.engine.executor.pool.queue
  | _ => True

/-- Do the workers get no jobs in a history but from the engine? -/
def OwnJobs (chronicle : Chronicle) : List EngineEvent → Prop
  | [] => True
  | event :: events => chronicle.KeepsJobs event ∧ (chronicle.note event).OwnJobs events

theorem engine_note_cycle (chronicle : Chronicle) :
    (chronicle.note .cycle).engine = chronicle.run.cycle.toRun.engine := by
  simp only [note]
  cases chronicle.run.cycle with
  | fired found next => rfl
  | again next => rfl
  | quiet next => rfl

theorem jobsOfRules_note {chronicle : Chronicle} (h : chronicle.engine.JobsOfRules)
    (hsound : chronicle.engine.agenda.Sound chronicle.fired) {event : EngineEvent}
    (hkeeps : chronicle.KeepsJobs event) : (chronicle.note event).engine.JobsOfRules := by
  cases event with
  | register template => exact h
  | make type overrides => exact h
  | addRule rule => exact h.addRules [rule]
  | addRules rules => exact h.addRules rules
  | loadDocument registry json => exact h.loaded (Engine.loaded_loadDocument _ registry json)
  | loadText registry text => exact h.loaded (Engine.loaded_loadText _ registry text)
  | loadFile registry path contents => exact h.loaded (Engine.loaded_loadFile _ registry path contents)
  | halt => exact h
  | begin arrivals => exact h
  | close outcome =>
      cases outcome with
      | stepLimit => exact h
      | halted => exact .of_queue_eq_nil chronicle.engine.queue_settle
      | quiescent => exact .of_queue_eq_nil chronicle.engine.queue_settle
  | reset => exact .of_queue_eq_nil chronicle.engine.queue_settle
  | shutdown => exact .of_queue_eq_nil (Engine.queue_foldl_perform _ _)
  | meanwhile workspace executor failures => exact h.mono (List.Subset.refl _) hkeeps
  | cycle =>
      rw [engine_note_cycle]
      exact h.cycle hsound

theorem jobsOfRules_after {chronicle : Chronicle} (h : chronicle.engine.JobsOfRules)
    (hsound : chronicle.engine.agenda.Sound chronicle.fired) {events : List EngineEvent}
    (hjobs : chronicle.OwnJobs events) : (chronicle.after events).engine.JobsOfRules := by
  induction events generalizing chronicle with
  | nil => exact h
  | cons event events ih => exact ih (jobsOfRules_note h hsound hjobs.1) (sound_note hsound event) hjobs.2

end Chronicle

/-- Does an engine do all its actions on the loop, and are neither jobs nor rules with its workers? -/
structure Engine.Synchronous (engine : Engine) : Prop where
  sync : engine.SyncOnly
  jobs : engine.JobsOfRules
  sound : ∃ fired, engine.agenda.Sound fired

namespace Engine

variable {engine : Engine}

/-- After a history in which the workers got their jobs from it alone, an engine with no actions for them has none with
them. -/
theorem synchronous_after (config : Config) {events : List EngineEvent}
    (hjobs : (Chronicle.new config).OwnJobs events)
    (hsync : ((Chronicle.new config).after events).engine.SyncOnly) :
    ((Chronicle.new config).after events).engine.Synchronous := by
  have hnew : (Chronicle.new config).engine.agenda.Sound (Chronicle.new config).fired := .new config
  exact ⟨hsync, Chronicle.jobsOfRules_after (.of_queue_eq_nil rfl) hnew hjobs, _, Chronicle.sound_after hnew events⟩

theorem Synchronous.queue_eq_nil (h : engine.Synchronous) : engine.executor.pool.queue = [] :=
  h.jobs.queue_eq_nil h.sync

theorem Synchronous.choose_eq_none_iff (h : engine.Synchronous) : engine.choose = none ↔ engine.Unmatched := by
  obtain ⟨fired, hsound⟩ := h.sound
  exact Engine.choose_eq_none_iff hsound.idle

theorem Synchronous.cycle {run : Run} (h : run.engine.Synchronous) : run.cycle.toRun.engine.Synchronous := by
  obtain ⟨fired, hsound⟩ := h.sound
  have hnext := Chronicle.sound_note (show (Chronicle.mk run fired).engine.agenda.Sound fired from hsound) .cycle
  rw [Chronicle.engine_note_cycle] at hnext
  refine ⟨fun source hsource => h.sync source (run.rules_cycle ▸ hsource), h.jobs.cycle hsound, _, hnext⟩

theorem drain_of_pending_eq_nil (h : engine.store.pending = []) : engine.drain = engine := by
  have hstore : engine.store.drain = engine.store := by
    rw [Store.drain, h, List.foldl_nil, ← h]
  rw [drain, hstore]
  rfl

end Engine

namespace Run

variable {run : Run}

/-- Without jobs and arrivals a cycle in which no rule matches is the last one. -/
theorem exists_cycle_eq_quiet (hqueue : run.engine.executor.pool.queue = []) (hnothing : run.arrivals = [])
    (hnone : run.engine.drain.choose = none) :
    ∃ clock, run.cycle = .quiet { run with engine := run.engine.drain, clock } := by
  have hworkless : ({ run with engine := run.engine.drain }).engine.backlog = 0 := congrArg List.length hqueue
  have hdrained : ({ run with engine := run.engine.drain }).arrivals = [] := hnothing
  rw [cycle_of_none hnone, idle_of_workless hworkless]
  unfold rest
  split
  · rename_i timeout _
    exact ⟨run.clock + timeout, listen_of_nothing hdrained timeout⟩
  · exact ⟨run.clock, rfl⟩

end Run

namespace Engine

variable {engine : Engine}

theorem runSteps_of_unmatched (hqueue : engine.executor.pool.queue = []) (hnone : engine.drain.choose = none)
    (n : Nat) :
    engine.runSteps (n + 1) =
      (⟨0, .quiescent⟩,
        { engine.drain with workspace := engine.drain.workspace.clearHalt, state := .halted }) := by
  obtain ⟨clock, hcycle⟩ := @Run.exists_cycle_eq_quiet (engine.begin []) hqueue rfl hnone
  have hqueue' : (engine.begin []).engine.drain.executor.pool.queue = [] := hqueue
  show Run.close _ _ = _
  rw [Run.steps_eq_of_quiet Bool.false_ne_true hcycle, Run.close]
  dsimp only
  rw [settle_of_queue_eq_nil hqueue']
  rfl

/-- Is no fact pending, does no rule match, and did no one ask to halt? -/
structure Quiet (engine : Engine) : Prop where
  empty : engine.store.pending = []
  unmatched : engine.choose = none
  going : engine.workspace.halted = false

/-- What a quiet engine found when it came to rest, it finds in the next run. -/
theorem Quiet.runSteps (h : engine.Quiet) (hqueue : engine.executor.pool.queue = [])
    (hstate : engine.state = .halted) (n : Nat) : engine.runSteps (n + 1) = (⟨0, .quiescent⟩, engine) := by
  have hdrain := drain_of_pending_eq_nil h.empty
  have hnone : engine.drain.choose = none := by
    rw [hdrain]
    exact h.unmatched
  have hclear : engine.workspace.clearHalt = engine.workspace := by
    rw [Workspace.clearHalt, ← h.going]
  rw [runSteps_of_unmatched hqueue hnone, hdrain, hclear, ← hstate]

end Engine

/-- A run that ends for quiet was over in a cycle that matched the rules against what it left. -/
theorem Run.quiet_steps {run : Run} (hsynchronous : run.engine.Synchronous) (hnothing : run.arrivals = [])
    {limit : Nat} (hquiescent : (run.steps limit).1 = .quiescent) : (run.steps limit).2.engine.Quiet := by
  induction run, limit using steps.induct with
  | case1 run limit hhalted =>
      rw [steps_of_halted hhalted] at hquiescent
      cases hquiescent
  | case2 run hgoing =>
      rw [steps_zero hgoing] at hquiescent
      cases hquiescent
  | case3 run hgoing limit found next hfired ih =>
      have hcycle := hsynchronous.cycle
      have harrivals := arrivals_cycle hnothing
      rw [hfired] at hcycle harrivals
      rw [steps_eq_of_fired hgoing hfired] at hquiescent ⊢
      exact ih hcycle harrivals hquiescent
  | case4 run hgoing limit next hagain ih =>
      have hcycle := hsynchronous.cycle
      have harrivals := arrivals_cycle hnothing
      rw [hagain] at hcycle harrivals
      rw [steps_eq_of_again hgoing hagain] at hquiescent ⊢
      exact ih hcycle harrivals hquiescent
  | case5 run hgoing limit next hquiet =>
      have hnone := (of_cycle_eq_idle (.inr hquiet)).1
      obtain ⟨clock, hlast⟩ := exists_cycle_eq_quiet hsynchronous.queue_eq_nil hnothing hnone
      rw [hquiet] at hlast
      rw [steps_eq_of_quiet hgoing hquiet, Cycle.quiet.inj hlast]
      exact ⟨rfl, hnone, (Bool.not_eq_true _).mp hgoing⟩

namespace Engine

variable {engine : Engine}

theorem Synchronous.begin (h : engine.Synchronous) {arrivals : List Arrival} :
    (engine.begin arrivals).engine.Synchronous :=
  ⟨h.sync, h.jobs, h.sound⟩

/-- An engine that comes to rest is quiet, and remains an engine that does all its actions on the loop. -/
theorem Synchronous.quiet_runSteps (h : engine.Synchronous) (limit : Nat)
    (hquiescent : (engine.runSteps limit).1.outcome = .quiescent) :
    let after := (engine.runSteps limit).2
    after.Quiet ∧ after.Synchronous ∧ after.state = .halted := by
  intro after
  have hquiet := Run.quiet_steps h.begin rfl hquiescent
  have hsynchronous : ((engine.begin []).steps limit).2.engine.Synchronous :=
    Run.of_steps (P := fun run => run.engine.Synchronous) (fun _ h => h.cycle) h.begin limit
  have hclose : after = { ((engine.begin []).steps limit).2.engine with state := .halted } := by
    show (Run.close ((engine.begin []).steps limit).1 ((engine.begin []).steps limit).2).2 = _
    rw [show ((engine.begin []).steps limit).1 = .quiescent from hquiescent, Run.close]
    dsimp only
    rw [settle_of_queue_eq_nil hsynchronous.queue_eq_nil]
  rw [hclose]
  exact ⟨⟨hquiet.empty, hquiet.unmatched, hquiet.going⟩,
    ⟨hsynchronous.sync, hsynchronous.jobs, hsynchronous.sound⟩, rfl⟩

theorem runsTo_iff_of_quiescent {report : Report} {after : Engine} {limit : Nat}
    (h : engine.runSteps limit = (report, after)) (hquiescent : report.outcome = .quiescent)
    {answer : Report × Engine} : engine.RunsTo answer ↔ answer = (report, after) := by
  have hended : (engine.runSteps limit).1.outcome ≠ .stepLimit := by
    rw [h]
    exact hquiescent ▸ nofun
  rw [runsTo_iff_of_ended hended, h]

end Engine

/-- **Quiet is a fixed point.** Take an engine with any history in which the workers got their jobs from it alone,
and let all actions of its rules be done on the loop. If a run ends for quiet, no fact is pending, no rule
matches, and no one asked to halt; every further run fires nothing, ends for quiet at once, and leaves the engine
as it is. Conversely, if no rule matches once the pending facts are live, a run ends for quiet at once. -/
theorem quiescence_is_fixed (config : Config) (events : List EngineEvent)
    (hjobs : (Chronicle.new config).OwnJobs events)
    (hsync : ((Chronicle.new config).after events).engine.SyncOnly) :
    let engine := ((Chronicle.new config).after events).engine
    (∀ report after,
        (engine.RunsTo (report, after) ∨ ∃ limit, engine.runSteps limit = (report, after)) →
        report.outcome = .quiescent →
        after.store.pending = [] ∧ after.matchAll = [] ∧ after.Unmatched ∧ after.workspace.halted = false ∧
          (∀ answer, after.RunsTo answer ↔ answer = (⟨0, .quiescent⟩, after)) ∧
          ∀ n, after.runSteps (n + 1) = (⟨0, .quiescent⟩, after)) ∧
      (engine.drain.Unmatched →
        let after : Engine :=
          { engine.drain with workspace := engine.drain.workspace.clearHalt, state := .halted }
        (∀ answer, engine.RunsTo answer ↔ answer = (⟨0, .quiescent⟩, after)) ∧
          ∀ n, engine.runSteps (n + 1) = (⟨0, .quiescent⟩, after)) := by
  intro engine
  have hnew : (Chronicle.new config).engine.agenda.Sound (Chronicle.new config).fired := .new config
  have hsynchronous : engine.Synchronous :=
    ⟨hsync, Chronicle.jobsOfRules_after (.of_queue_eq_nil rfl) hnew hjobs, _, Chronicle.sound_after hnew events⟩
  constructor
  · intro report after hrun hquiescent
    have hlimited : ∃ limit, engine.runSteps limit = (report, after) := by
      rcases hrun with hrun | hlimited
      · exact (Engine.runsTo_iff.1 hrun).imp fun _ h => h.1
      · exact hlimited
    obtain ⟨limit, hlimit⟩ := hlimited
    have hends := hsynchronous.quiet_runSteps limit (by rw [hlimit]; exact hquiescent)
    rw [hlimit] at hends
    obtain ⟨hquiet, hstill, hstate⟩ := hends
    have hagain (n : Nat) : after.runSteps (n + 1) = (⟨0, .quiescent⟩, after) :=
      hquiet.runSteps hstill.queue_eq_nil hstate n
    refine ⟨hquiet.empty, Conflict.eq_nil_of_select_eq_none hquiet.unmatched,
      hstill.choose_eq_none_iff.1 hquiet.unmatched, hquiet.going, fun _ => ?_, hagain⟩
    exact Engine.runsTo_iff_of_quiescent (hagain 0) rfl
  · intro hunmatched
    have hdrained : engine.drain.Synchronous := ⟨hsynchronous.sync, hsynchronous.jobs, hsynchronous.sound⟩
    have hends := Engine.runSteps_of_unmatched hsynchronous.queue_eq_nil
      (hdrained.choose_eq_none_iff.2 hunmatched)
    exact ⟨fun _ => Engine.runsTo_iff_of_quiescent (hends 0) rfl, hends⟩

/-- An item is made, and a run begins. -/
def listingHistory : List EngineEvent :=
  [.register ⟨"item", [("name", .nil)]⟩, .addRule listRule, .make "item" [("name", .str "a")], .begin []]

/-- The engine after the first cycle of the run. -/
def listedEngine : Engine := ((Chronicle.new .sequential).after listingHistory).engine.drain.fire listingMatch

theorem engine_after_listing :
    ((Chronicle.new .sequential).after (listingHistory ++ [.cycle])).engine = listedEngine := by
  let before := (Chronicle.new .sequential).after listingHistory
  have hchoose : before.run.engine.drain.choose = some listingMatch := by
    have hall : before.run.engine.drain.matchAll =
        Match.all none before.run.engine.drain.view [⟨0, listRule⟩] := rfl
    rw [Engine.choose_of_matchAll hall]
    rfl
  show (before.note .cycle).engine = _
  rw [Chronicle.engine_note_cycle, Run.cycle_of_some hchoose]
  rfl

theorem unmatched_listedEngine : listedEngine.drain.Unmatched := by
  have hrules : listedEngine.drain.rules = [⟨0, listRule⟩] := rfl
  have hview : listedEngine.drain.view "item" = [] := rfl
  intro source hsource
  rw [hrules] at hsource
  rw [List.mem_singleton.1 hsource]
  refine (RuleInstance.match?_none _ _).trans ?_
  simp only [Rule.goals, listRule, List.map_cons, hview]
  rfl

/-- When the only item is listed, a run ends for quiet, and so does each further one. -/
theorem quiescence_is_fixed_listing :
    let chronicle := Chronicle.new .sequential
    let events := listingHistory ++ [.cycle]
    let engine := (chronicle.after events).engine
    chronicle.OwnJobs events ∧ engine.SyncOnly ∧ engine.firings = 1 ∧ engine.drain.Unmatched ∧
      ∃ after, engine.RunsTo (⟨0, .quiescent⟩, after) ∧ after.RunsTo (⟨0, .quiescent⟩, after) := by
  intro chronicle events engine
  have hjobs : chronicle.OwnJobs events := ⟨trivial, trivial, trivial, trivial, trivial, trivial⟩
  have hengine : engine = listedEngine := engine_after_listing
  have hsync : engine.SyncOnly := by
    have hrules : listedEngine.rules = [⟨0, listRule⟩] := rfl
    rw [hengine, Engine.SyncOnly, hrules]
    decide
  have hunmatched : engine.drain.Unmatched := hengine ▸ unmatched_listedEngine
  obtain ⟨hends, hbegins⟩ := quiescence_is_fixed .sequential events hjobs hsync
  obtain ⟨hrun, -⟩ := hbegins hunmatched
  have hrests : engine.RunsTo (⟨0, .quiescent⟩, _) := (hrun _).2 rfl
  obtain ⟨-, -, -, -, hagain, -⟩ := hends _ _ (.inl hrests) rfl
  exact ⟨hjobs, hsync, hengine ▸ rfl, hunmatched, _, hrests, (hagain _).2 rfl⟩

end ProductionSystem
