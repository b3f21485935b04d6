import ProductionSystem.Run

/-!
What a run leaves alone. The actions of a firing, on the loop or with the workers, reach three parts of an engine:
the workspace, the executor and the reported failures. So does whoever waits with the loop. The rest changes only
where a rule is fired, and there it is the history of firings that does. The queue of the workers grows by nothing
but the asynchronous actions of a rule that is fired. What every cycle keeps, a run keeps.
-/

namespace ProductionSystem

theorem Executor.takeAll_of_queue_eq_nil {J : Type} {executor : Executor J} (h : executor.pool.queue = []) :
    executor.takeAll.2 = executor := by
  obtain ⟨⟨workers, accepting, queue⟩, tickets, issued⟩ := executor
  subst h
  rfl

namespace Engine

theorem settle_of_queue_eq_nil {engine : Engine} (h : engine.executor.pool.queue = []) :
    engine.settle = engine := by
  have htaken := Executor.takeAll_of_queue_eq_nil h
  show engine.executor.pool.queue.foldl perform { engine with executor := engine.executor.takeAll.2 } = engine
  rw [h, htaken]
  rfl

/-- Is an engine another one but for what actions can reach? -/
def Worked (engine after : Engine) : Prop :=
  ∃ workspace executor failures, after = { engine with workspace, executor, failures }

namespace Worked

theorem refl (engine : Engine) : engine.Worked engine := ⟨_, _, _, rfl⟩

theorem trans {engine middle after : Engine} (h : engine.Worked middle) (h' : middle.Worked after) :
    engine.Worked after := by
  obtain ⟨workspace, executor, failures, rfl⟩ := h
  obtain ⟨workspace', executor', failures', rfl⟩ := h'
  exact ⟨workspace', executor', failures', rfl⟩

theorem matchers_eq {engine after : Engine} (h : engine.Worked after) : after.matchers = engine.matchers := by
  obtain ⟨_, _, _, rfl⟩ := h
  rfl

theorem rules_eq {engine after : Engine} (h : engine.Worked after) : after.rules = engine.rules := by
  obtain ⟨_, _, _, rfl⟩ := h
  rfl

theorem state_eq {engine after : Engine} (h : engine.Worked after) : after.state = engine.state := by
  obtain ⟨_, _, _, rfl⟩ := h
  rfl

theorem firings_eq {engine after : Engine} (h : engine.Worked after) : after.firings = engine.firings := by
  obtain ⟨_, _, _, rfl⟩ := h
  rfl

variable (engine : Engine)

theorem report (rule command : String) (cause : ErrorKind) :
    engine.Worked (engine.report rule command cause) := ⟨_, _, _, rfl⟩

theorem drain : engine.Worked engine.drain := ⟨_, _, _, rfl⟩

theorem exec (command : Command) (args : List Value) (firing : Firing) :
    engine.Worked (engine.exec command args firing).2 := by
  unfold Engine.exec
  dsimp only
  split
  · exact ⟨_, _, _, rfl⟩
  · exact ⟨_, _, _, rfl⟩

theorem handOver (command : Command) (args : List Value) (firing : Firing) :
    engine.Worked (engine.handOver command args firing) := by
  unfold Engine.handOver
  dsimp only
  split
  · exact ⟨_, _, _, rfl⟩
  · exact ⟨_, _, _, rfl⟩

theorem dispatch (firing : Firing) (action : Action) :
    engine.Worked (Engine.dispatch firing engine action).2 := by
  unfold Engine.dispatch
  cases Param.resolveAll firing.bindings action.params with
  | error cause => exact report engine _ _ _
  | ok args =>
      cases action.command.mode with
      | sync => exact (exec engine _ _ _).trans ⟨_, _, _, rfl⟩
      | async => exact handOver engine _ _ _

theorem perform (job : Ticket × Job) : engine.Worked (engine.perform job) :=
  (exec engine _ _ _).trans ⟨_, _, _, rfl⟩

theorem foldl_perform (jobs : List (Ticket × Job)) : engine.Worked (jobs.foldl Engine.perform engine) :=
  List.foldlRecOn jobs Engine.perform (refl engine) fun middle h job _ => h.trans (perform middle job)

theorem settle : engine.Worked engine.settle := by
  have htaken : engine.Worked { engine with executor := engine.executor.takeAll.2 } := ⟨_, _, _, rfl⟩
  exact htaken.trans (foldl_perform _ _)

/-- A firing also writes down which rule fired, and that one more did. -/
theorem fire (found : Match) :
    Worked { engine with lastFired := some found.source, firings := engine.firings + 1 }
      (engine.fire found) := by
  let begun : Engine := { engine with lastFired := some found.source, firings := engine.firings + 1 }
  refine List.foldlRecOn (motive := fun state : Firing × Engine => begun.Worked state.2)
    found.source.rule.actions _ (refl begun) fun state h action _ => ?_
  exact h.trans (dispatch state.2 state.1 action)

end Worked

section Queue

variable {engine : Engine} {job : Ticket × Job}

theorem executor_exec (engine : Engine) (command : Command) (args : List Value) (firing : Firing) :
    (engine.exec command args firing).2.executor = engine.executor := by
  unfold exec
  dsimp only
  split <;> rfl

theorem pool_perform (engine : Engine) (job : Ticket × Job) :
    (engine.perform job).executor.pool = engine.executor.pool := by
  show (engine.exec job.2.command job.2.args job.2.firing).2.executor.pool = _
  rw [executor_exec]

theorem queue_foldl_perform (engine : Engine) (jobs : List (Ticket × Job)) :
    (jobs.foldl perform engine).executor.pool.queue = engine.executor.pool.queue :=
  List.foldlRecOn (motive := fun after => after.executor.pool.queue = engine.executor.pool.queue) jobs perform rfl
    fun middle h job _ => (congrArg WorkerPool.queue (pool_perform middle job)).trans h

theorem queue_settle (engine : Engine) : engine.settle.executor.pool.queue = [] := queue_foldl_perform _ _

/-- A job that an action brings to the queue is to run the command of the action. -/
theorem of_mem_queue_handOver {command : Command} {args : List Value} {firing : Firing}
    (hjob : job ∈ (engine.handOver command args firing).executor.pool.queue) :
    job ∈ engine.executor.pool.queue ∨ job.2.command = command := by
  unfold handOver Executor.submit WorkerPool.submit at hjob
  dsimp only at hjob
  cases haccepts : engine.executor.pool.accepting with
  | true =>
      simp only [haccepts, if_true] at hjob
      rcases List.mem_append.1 hjob with hold | hnew
      · exact .inl hold
      · rw [List.mem_singleton.1 hnew]
        exact .inr rfl
  | false =>
      simp only [haccepts, if_neg Bool.false_ne_true] at hjob
      exact .inl hjob

theorem of_mem_queue_dispatch {firing : Firing} {action : Action}
    (hjob : job ∈ (dispatch firing engine action).2.executor.pool.queue) :
    job ∈ engine.executor.pool.queue ∨ action.command.mode = .async ∧ job.2.command = action.command := by
  unfold dispatch at hjob
  cases hargs : Param.resolveAll firing.bindings action.params with
  | error cause =>
      rw [hargs] at hjob
      exact .inl hjob
  | ok args =>
      cases hmode : action.command.mode with
      | sync =>
          simp only [hargs, hmode] at hjob
          exact .inl (executor_exec engine action.command args firing ▸ hjob)
      | async =>
          simp only [hargs, hmode] at hjob
          exact (of_mem_queue_handOver hjob).imp_right fun hcommand => ⟨rfl, hcommand⟩

theorem of_mem_queue_fire {found : Match} (hjob : job ∈ (engine.fire found).executor.pool.queue) :
    job ∈ engine.executor.pool.queue ∨
      ∃ action ∈ found.source.rule.actions, action.command.mode = .async ∧ job.2.command = action.command := by
  revert hjob
  refine List.foldlRecOn
    (motive := fun state : Firing × Engine => job ∈ state.2.executor.pool.queue →
      job ∈ engine.executor.pool.queue ∨
        ∃ action ∈ found.source.rule.actions, action.command.mode = .async ∧ job.2.command = action.command)
    found.source.rule.actions _ .inl fun state h action haction hjob => ?_
  rcases of_mem_queue_dispatch hjob with hqueued | hasync
  · exact h hqueued
  · exact .inr ⟨action, haction, hasync⟩

end Queue

end Engine

namespace Run

variable {run next : Run}

namespace Cycle

/-- The run after the cycle. -/
def toRun : Cycle → Run
  | fired _ run | again run | quiet run => run

/-- Does a cycle fire no rule, and leave the engine as it is but for what actions can reach? -/
def Passes (engine : Engine) : Cycle → Prop
  | fired _ _ => False
  | again next | quiet next => engine.Worked next.engine

end Cycle

theorem cycle_of_some {found : Match} (hchoose : run.engine.drain.choose = some found) :
    run.cycle = .fired found { run with engine := run.engine.drain.fire found, fired := run.fired + 1 } := by
  simp only [cycle, hchoose]

theorem cycle_of_none (hchoose : run.engine.drain.choose = none) :
    run.cycle = { run with engine := run.engine.drain }.idle := by
  simp only [cycle, hchoose]

theorem idle_of_workless (hworkless : run.engine.backlog = 0) : run.idle = run.rest := by
  rw [idle, if_pos hworkless]

theorem idle_of_short (hbusy : run.engine.backlog ≠ 0) (hshort : ¬run.engine.lingers = true) :
    run.idle = .again { run with engine := run.engine.settle.drain } := by
  rw [idle, if_neg hbusy]
  dsimp only
  rw [if_neg hshort]

theorem idle_of_long (hbusy : run.engine.backlog ≠ 0) (hlong : run.engine.lingers = true) :
    run.idle =
      if run.engine.settle.store.hasPending || run.engine.settle.workspace.halted then
        .again { run with engine := run.engine.settle }
      else { run with engine := run.engine.settle }.rest := by
  rw [idle, if_neg hbusy]
  dsimp only
  rw [if_pos hlong]

/-- An idle run comes to rest, or begins a new cycle, with the jobs of its workers done if they had any. -/
theorem idle_cases (run : Run) :
    let settled : Run := { run with engine := run.engine.settle }
    run.idle = run.rest ∨ run.idle = settled.rest ∨ run.idle = .again settled ∨
      run.idle = .again { settled with engine := settled.engine.drain } := by
  intro settled
  by_cases hworkless : run.engine.backlog = 0
  · exact .inl (idle_of_workless hworkless)
  · by_cases hlong : run.engine.lingers = true
    · rw [idle_of_long hworkless hlong]
      split
      · exact .inr (.inr (.inl rfl))
      · exact .inr (.inl rfl)
    · exact .inr (.inr (.inr (idle_of_short hworkless hlong)))

/-- The run when it has waited for a signal from outside. -/
def listened (run : Run) (timeout : Nat) : Run :=
  let deadline := run.clock + timeout
  let waited := run.engine.workspace.await run.engine.store.epoch (some deadline) run.arrivals
  { run with
    engine := { run.engine with workspace := waited.workspace }.drain
    arrivals := waited.later
    clock := waited.signal?.getD deadline }

theorem toRun_listen (run : Run) (timeout : Nat) : (run.listen timeout).toRun = run.listened timeout := by
  unfold listen
  dsimp only
  split <;> rfl

/-- What waiting keeps, a run keeps that comes to rest. -/
theorem of_rest {P : Run → Prop} (hlisten : ∀ timeout, P (run.listened timeout)) (h : P run) : P run.rest.toRun := by
  unfold rest
  split
  · rw [toRun_listen]
    exact hlisten _
  · exact h

/-- What waiting, the jobs of the workers and a drain keep, an idle run keeps. -/
theorem of_idle {P : Run → Prop} (hlisten : ∀ run timeout, P run → P (run.listened timeout))
    (hsettle : ∀ run, P run → P { run with engine := run.engine.settle })
    (hdrain : ∀ run, P run → P { run with engine := run.engine.drain }) (h : P run) : P run.idle.toRun := by
  have hrest (run : Run) (h : P run) : P run.rest.toRun := of_rest (fun timeout => hlisten run timeout h) h
  rcases run.idle_cases with hidle | hidle | hidle | hidle
  · rw [hidle]
    exact hrest run h
  · rw [hidle]
    exact hrest _ (hsettle run h)
  · rw [hidle]
    exact hsettle run h
  · rw [hidle]
    exact hdrain _ (hsettle run h)

theorem passes_listen (timeout : Nat) : (run.listen timeout).Passes run.engine := by
  unfold listen
  dsimp only
  split
  · exact ⟨_, _, _, rfl⟩
  · exact ⟨_, _, _, rfl⟩

theorem passes_rest : run.rest.Passes run.engine := by
  unfold rest
  split
  · exact passes_listen _
  · exact .refl run.engine

theorem Cycle.Passes.mono {engine middle : Engine} {cycle : Cycle} (h : engine.Worked middle)
    (hcycle : cycle.Passes middle) : cycle.Passes engine := by
  cases cycle with
  | fired found next => exact hcycle
  | again next => exact h.trans hcycle
  | quiet next => exact h.trans hcycle

theorem Cycle.Passes.worked {engine : Engine} {cycle : Cycle} (h : cycle.Passes engine) :
    engine.Worked cycle.toRun.engine := by
  cases cycle with
  | fired found next => exact h.elim
  | again next => exact h
  | quiet next => exact h

theorem passes_idle : run.idle.Passes run.engine := by
  have hsettle := Engine.Worked.settle run.engine
  rcases run.idle_cases with hidle | hidle | hidle | hidle
  · rw [hidle]
    exact passes_rest
  · rw [hidle]
    exact passes_rest.mono hsettle
  · rw [hidle]
    exact hsettle
  · rw [hidle]
    exact hsettle.trans (.drain _)

/-- A cycle that fires a rule fires the match chosen after the pending facts have become live. -/
theorem of_cycle_eq_fired {found : Match} (h : run.cycle = .fired found next) :
    run.engine.drain.choose = some found ∧ next.engine = run.engine.drain.fire found := by
  cases hchoose : run.engine.drain.choose with
  | none =>
      rw [cycle_of_none hchoose] at h
      exact (h ▸ passes_idle : (Cycle.fired found next).Passes _).elim
  | some chosen =>
      rw [cycle_of_some hchoose] at h
      injection h with hfound hnext
      subst hfound hnext
      exact ⟨rfl, rfl⟩

/-- A cycle that fires no rule had no match to choose, and is over with what the idle loop does. -/
theorem of_cycle_eq_idle (h : run.cycle = .again next ∨ run.cycle = .quiet next) :
    run.engine.drain.choose = none ∧ run.engine.Worked next.engine := by
  cases hchoose : run.engine.drain.choose with
  | none =>
      have hidle := (@passes_idle { run with engine := run.engine.drain }).mono (.drain run.engine)
      rw [← cycle_of_none hchoose] at hidle
      refine ⟨rfl, ?_⟩
      rcases h with h | h <;> rw [h] at hidle <;> exact hidle
  | some found =>
      rw [cycle_of_some hchoose] at h
      rcases h with h | h <;> cases h

/-- A run adds and takes away no rules. -/
theorem rules_cycle (run : Run) : run.cycle.toRun.engine.rules = run.engine.rules := by
  cases hcycle : run.cycle with
  | fired found next =>
      rw [Cycle.toRun, (of_cycle_eq_fired hcycle).2]
      exact (Engine.Worked.fire run.engine.drain found).rules_eq
  | again next => exact (of_cycle_eq_idle (.inl hcycle)).2.rules_eq
  | quiet next => exact (of_cycle_eq_idle (.inr hcycle)).2.rules_eq

theorem steps_eq_of_fired {limit : Nat} {found : Match} (hgoing : ¬run.engine.workspace.halted = true)
    (h : run.cycle = .fired found next) : run.steps (limit + 1) = next.steps limit := by
  rw [steps.eq_def, if_neg hgoing]
  dsimp only
  split <;> rename_i heq <;> rw [h] at heq <;> cases heq
  rfl

theorem steps_eq_of_again {limit : Nat} (hgoing : ¬run.engine.workspace.halted = true)
    (h : run.cycle = .again next) : run.steps (limit + 1) = next.steps (limit + 1) := by
  rw [steps.eq_def, if_neg hgoing]
  dsimp only
  split <;> rename_i heq <;> rw [h] at heq <;> cases heq
  rfl

theorem steps_eq_of_quiet {limit : Nat} (hgoing : ¬run.engine.workspace.halted = true)
    (h : run.cycle = .quiet next) : run.steps (limit + 1) = (.quiescent, next) := by
  rw [steps.eq_def, if_neg hgoing]
  dsimp only
  split <;> rename_i heq <;> rw [h] at heq <;> cases heq
  rfl

theorem steps_of_halted (hhalted : run.engine.workspace.halted = true) (limit : Nat) :
    run.steps limit = (.halted, run) := by
  rw [steps.eq_def, if_pos hhalted]

theorem steps_zero (hgoing : ¬run.engine.workspace.halted = true) : run.steps 0 = (.stepLimit, run) := by
  rw [steps.eq_def, if_neg hgoing]

/-- What every cycle keeps, a run keeps. -/
theorem of_steps {P : Run → Prop} (hcycle : ∀ run, P run → P run.cycle.toRun) (h : P run) (limit : Nat) :
    P (run.steps limit).2 := by
  induction run, limit using steps.induct with
  | case1 run limit hhalted =>
      rw [steps_of_halted hhalted]
      exact h
  | case2 run hgoing =>
      rw [steps_zero hgoing]
      exact h
  | case3 run hgoing limit found next hfired ih =>
      rw [steps_eq_of_fired hgoing hfired]
      have hnext := hcycle run h
      rw [hfired] at hnext
      exact ih hnext
  | case4 run hgoing limit next hagain ih =>
      rw [steps_eq_of_again hgoing hagain]
      have hnext := hcycle run h
      rw [hagain] at hnext
      exact ih hnext
  | case5 run hgoing limit next hquiet =>
      rw [steps_eq_of_quiet hgoing hquiet]
      have hnext := hcycle run h
      rw [hquiet] at hnext
      exact hnext

/-- A run does not change what the engine says it is doing. -/
theorem state_steps (limit : Nat) : (run.steps limit).2.engine.state = run.engine.state := by
  refine of_steps (P := fun later => later.engine.state = run.engine.state) (fun later h => ?_) rfl limit
  cases hcycle : later.cycle with
  | fired found next =>
      have hfire := (Engine.Worked.fire later.engine.drain found).state_eq
      rw [Cycle.toRun, (of_cycle_eq_fired hcycle).2]
      exact hfire.trans h
  | again next => exact (of_cycle_eq_idle (.inl hcycle)).2.state_eq.trans h
  | quiet next => exact (of_cycle_eq_idle (.inr hcycle)).2.state_eq.trans h

end Run

end ProductionSystem
