import ProductionSystem.Proofs.ActionFates
import ProductionSystem.Proofs.FactShapes
import ProductionSystem.Proofs.PooledRuns

/-!
Requests to halt. An action that asks the loop to halt raises a flag that no action takes down, so it is up when the
last action of the firing has been dispatched. Before each cycle the loop looks at the flag first and at its limit
second: so the firing is the last one of the run, whatever the limit is. No cycle follows it, and without a cycle
nothing becomes live: what the firing has made stays pending. If nobody asks to halt, a run can only reach its limit or
come to rest before.
-/

namespace ProductionSystem

/-- Are the pending facts of a store still pending in a later one, and has no fact become live? -/
structure Store.KeepsBack (store later : Store) : Prop where
  pending : store.pending <+: later.pending
  live : ∀ type, (later.get type).Sublist (store.get type)

namespace Store.KeepsBack

variable {store later : Store}

theorem of_same (hpending : later.pending = store.pending) (hlive : later.live = store.live) :
    store.KeepsBack later where
  pending := hpending ▸ List.prefix_rfl
  live type := by
    have hget : later.get type = store.get type := congrArg (LiveIndex.of · type) hlive
    exact hget ▸ .refl _

theorem refl (store : Store) : store.KeepsBack store := of_same rfl rfl

theorem trans {last : Store} (h : store.KeepsBack later) (h' : later.KeepsBack last) : store.KeepsBack last where
  pending := h.pending.trans h'.pending
  live type := (h'.live type).trans (h.live type)

theorem make (store : Store) (type : String) (overrides : List (String × Value)) :
    store.KeepsBack (store.make type overrides).2 := by
  unfold Store.make
  split
  · exact refl store
  · dsimp only
    split
    · exact of_same rfl rfl
    · exact ⟨List.prefix_append _ _, fun _ => .refl _⟩

theorem setMany (store : Store) (ref : FactRef) (values : List (String × Value)) :
    store.KeepsBack (store.setMany ref values).2 := by
  unfold Store.setMany
  split
  · exact refl store
  · split
    · exact of_same rfl rfl
    · exact refl store

theorem remove (store : Store) (ref : FactRef) : store.KeepsBack (store.remove ref).2 where
  pending := by
    unfold Store.remove
    split
    · exact List.prefix_rfl
    · dsimp only
      split <;> exact List.prefix_rfl
  live := store.get_remove_sublist ref

theorem removeAll (store : Store) (refs : List FactRef) :
    store.KeepsBack (refs.foldl (fun store ref => (store.remove ref).2) store) :=
  List.foldlRecOn refs _ (refl store) fun later h ref _ => h.trans (remove later ref)

end Store.KeepsBack

/-- Does a request to halt stand in a later workspace, and are its pending facts kept back? -/
structure Workspace.Retains (workspace later : Workspace) : Prop where
  halted : workspace.halted = true → later.halted = true
  store : workspace.store.KeepsBack later.store

namespace Workspace.Retains

variable {workspace later : Workspace}

theorem of_store (hhalted : later.halted = workspace.halted) (hstore : workspace.store.KeepsBack later.store) :
    workspace.Retains later where
  halted h := hhalted.trans h
  store := hstore

theorem refl (workspace : Workspace) : workspace.Retains workspace := of_store rfl (.refl _)

theorem trans {last : Workspace} (h : workspace.Retains later) (h' : later.Retains last) : workspace.Retains last where
  halted hhalted := h'.halted (h.halted hhalted)
  store := h.store.trans h'.store

end Workspace.Retains

/-- Does a command neither take back a request to halt, nor a pending fact, nor make one live? What commands are given
to act with does none of this. -/
def Command.TakesNothingBack (command : Command) : Prop :=
  ∀ (args : List Value) (state : ActionState), state.workspace.Retains (command.run args state).2.workspace

theorem Builtin.takesNothingBack (builtin : Builtin) (mode : Mode) :
    { builtin.command with mode }.TakesNothingBack := by
  have hsteps : ActionM.Steps fun state later => state.workspace.Retains later.workspace :=
    { refl := fun _ => .refl _
      trans := Workspace.Retains.trans
      binds := fun _ _ _ => .refl _
      queues := fun _ _ => .refl _
      makes := fun state type overrides => .of_store rfl (.make state.workspace.store type overrides)
      modifies := fun state ref values _ => .of_store rfl (.setMany state.workspace.store ref values)
      halts := fun _ => ⟨fun _ => rfl, .of_same rfl rfl⟩
      writes := fun _ _ => .of_store rfl (.refl _) }
  intro args state
  rw [Command.state_run]
  exact hsteps.body builtin args state

/-- To dispatch an action takes nothing back. -/
theorem Engine.retains_dispatch (engine : Engine) (firing : Firing) {action : Action}
    (hkeep : action.command.TakesNothingBack) :
    engine.workspace.Retains (engine.dispatch firing action).2.workspace := by
  cases hfate : (Happening.dispatch engine firing action).fate with
  | executed command args failure? =>
      obtain ⟨-, rfl, -⟩ := Happening.of_fate_eq_executed hfate
      rw [(engine.dispatch_of_executed firing action action.command args hfate).2]
      exact (hkeep args ⟨firing, engine.workspace⟩).trans (.of_store rfl (.removeAll _ _))
  | unresolved cause | handedOver job | turnedAway cause =>
      rcases ((engine.dispatch_meets_fate firing action).2.2 (by rw [hfate]; rfl)).2 with hworkspace | hworkspace
      · rw [hworkspace]
        exact .refl _
      · rw [hworkspace]
        exact .of_store rfl (.of_same rfl rfl)

/-- An action when it is dispatched in the course of a firing. -/
structure Dispatch where
  engine : Engine
  firing : Firing
  action : Action

/-- The engine after the dispatch, and the firing for the actions that follow. -/
def Dispatch.after (dispatch : Dispatch) : Firing × Engine := dispatch.engine.dispatch dispatch.firing dispatch.action

namespace Engine

/-- The dispatches of actions, one after the other. -/
def dispatches (engine : Engine) (firing : Firing) : List Action → List Dispatch
  | [] => []
  | action :: actions =>
    let dispatch : Dispatch := ⟨engine, firing, action⟩
    dispatch :: dispatch.after.2.dispatches dispatch.after.1 actions

/-- The engine when actions have been dispatched one after the other. -/
def dispatchAll (engine : Engine) (firing : Firing) (actions : List Action) : Engine :=
  (actions.foldl (fun state action => Engine.dispatch state.1 state.2 action) (firing, engine)).2

variable {engine : Engine} {firing : Firing} {actions : List Action}

theorem map_action_dispatches : (engine.dispatches firing actions).map Dispatch.action = actions := by
  induction actions generalizing engine firing with
  | nil => rfl
  | cons action actions ih => exact congrArg (action :: ·) ih

/-- The last dispatch leaves what all dispatches come to. -/
theorem after_of_getLast? {last : Dispatch} (hlast : (engine.dispatches firing actions).getLast? = some last) :
    last.after.2 = engine.dispatchAll firing actions := by
  induction actions generalizing engine firing with
  | nil => cases hlast
  | cons action actions ih =>
      cases actions with
      | nil =>
          obtain rfl := Option.some.inj hlast
          rfl
      | cons next actions =>
          rw [dispatches, dispatches, List.getLast?_cons_cons] at hlast
          exact ih hlast

/-- What is asked for and made by an action is there after the last one. -/
theorem retains_dispatchAll (hkeep : ∀ action ∈ actions, action.command.TakesNothingBack) :
    engine.workspace.Retains (engine.dispatchAll firing actions).workspace ∧
      ∀ dispatch ∈ engine.dispatches firing actions,
        dispatch.after.2.workspace.Retains (engine.dispatchAll firing actions).workspace := by
  induction actions generalizing engine firing with
  | nil => exact ⟨.refl _, List.forall_mem_nil _⟩
  | cons action actions ih =>
      obtain ⟨hfirst, hothers⟩ := List.forall_mem_cons.1 hkeep
      obtain ⟨hlater, hdispatches⟩ :=
        @ih (engine.dispatch firing action).2 (engine.dispatch firing action).1 hothers
      exact ⟨(engine.retains_dispatch firing hfirst).trans hlater, List.forall_mem_cons.2 ⟨hlater, hdispatches⟩⟩

/-- A request to halt that is there after the last action was there before, or one of the actions left it. -/
theorem exists_halted_of_halted (hhalted : (engine.dispatchAll firing actions).workspace.halted = true) :
    engine.workspace.halted = true ∨
      ∃ dispatch ∈ engine.dispatches firing actions, dispatch.after.2.workspace.halted = true := by
  induction actions generalizing engine firing with
  | nil => exact .inl hhalted
  | cons action actions ih =>
      right
      rw [dispatches, List.exists_mem_cons_iff]
      exact @ih (engine.dispatch firing action).2 (engine.dispatch firing action).1 hhalted

end Engine

/-- A firing in the course of a run: the engine when the rule is chosen, and its match. -/
structure Fired where
  engine : Engine
  found : Match

namespace Fired

def rule (fired : Fired) : Rule := fired.found.source.rule

/-- The engine after the firing. -/
def after (fired : Fired) : Engine := fired.engine.fire fired.found

/-- The engine before the first action, with the firing counted. -/
def counted (fired : Fired) : Engine :=
  { fired.engine with lastFired := some fired.found.source, firings := fired.engine.firings + 1 }

/-- The dispatches of the actions of the rule. -/
def dispatches (fired : Fired) : List Dispatch :=
  fired.counted.dispatches { rule := fired.rule.name, facts := fired.found.facts, bindings := fired.found.bindings }
    fired.rule.actions

/-- Is the loop asked to halt when one of the actions has been dispatched? -/
def Halts (fired : Fired) : Prop := ∃ dispatch ∈ fired.dispatches, dispatch.after.2.workspace.halted = true

variable {fired : Fired}

theorem retains_after (hkeep : ∀ action ∈ fired.rule.actions, action.command.TakesNothingBack) :
    fired.engine.workspace.Retains fired.after.workspace ∧
      ∀ dispatch ∈ fired.dispatches, dispatch.after.2.workspace.Retains fired.after.workspace :=
  @Engine.retains_dispatchAll fired.counted _ _ hkeep

theorem halted_after (hkeep : ∀ action ∈ fired.rule.actions, action.command.TakesNothingBack) (hhalts : fired.Halts) :
    fired.after.workspace.halted = true := by
  obtain ⟨dispatch, hmem, hhalted⟩ := hhalts
  exact ((retains_after hkeep).2 dispatch hmem).halted hhalted

theorem going_after (hgoing : fired.engine.workspace.halted = false) (hnever : ¬fired.Halts) :
    fired.after.workspace.halted = false := by
  rw [Bool.eq_false_iff]
  intro hhalted
  rcases @Engine.exists_halted_of_halted fired.counted _ _ hhalted with hbefore | hhalts
  · exact Bool.false_ne_true (hgoing.symm.trans hbefore)
  · exact hnever hhalts

/-- The built-in command asks to halt. -/
theorem halts_of_mem (hmem : ⟨Builtin.halt.command, []⟩ ∈ fired.rule.actions) : fired.Halts := by
  rw [← @Engine.map_action_dispatches fired.counted _ fired.rule.actions, List.mem_map] at hmem
  obtain ⟨⟨engine, firing, action⟩, hmem, rfl⟩ := hmem
  exact ⟨_, hmem, rfl⟩

end Fired

namespace Run

variable {run next : Run} {found : Match} {limit : Nat}

/-- The firings of a run, in their order, up to a limit. -/
def trail (run : Run) (limit : Nat) : List Fired :=
  if run.engine.workspace.halted then []
  else
    match limit with
    | 0 => []
    | limit + 1 =>
      match _h : run.cycle with
      | .fired found next => ⟨run.engine.drain, found⟩ :: next.trail limit
      | .again next => next.trail (limit + 1)
      | .quiet _ => []
termination_by (limit, run.pendingWork)
decreasing_by
  · exact Prod.Lex.left _ _ (Nat.lt_succ_self _)
  · exact Prod.Lex.right _ (pendingWork_lt_of_again _h)

theorem trail_of_halted (hhalted : run.engine.workspace.halted = true) (limit : Nat) : run.trail limit = [] := by
  rw [trail.eq_def, if_pos hhalted]

theorem trail_zero (run : Run) : run.trail 0 = [] := by
  rw [trail.eq_def]
  split <;> rfl

theorem trail_of_fired (hgoing : ¬run.engine.workspace.halted = true) (h : run.cycle = .fired found next) :
    run.trail (limit + 1) = ⟨run.engine.drain, found⟩ :: next.trail limit := by
  rw [trail.eq_def, if_neg hgoing]
  dsimp only
  split <;> rename_i heq <;> rw [h] at heq <;> cases heq
  rfl

theorem trail_of_again (hgoing : ¬run.engine.workspace.halted = true) (h : run.cycle = .again next) :
    run.trail (limit + 1) = next.trail (limit + 1) := by
  rw [trail.eq_def, if_neg hgoing]
  dsimp only
  split <;> rename_i heq <;> rw [h] at heq <;> cases heq
  rfl

theorem trail_of_quiet (hgoing : ¬run.engine.workspace.halted = true) (h : run.cycle = .quiet next) :
    run.trail (limit + 1) = [] := by
  rw [trail.eq_def, if_neg hgoing]
  dsimp only
  split <;> rename_i heq <;> rw [h] at heq <;> cases heq

section Count

theorem eq_of_cycle_eq_fired (h : run.cycle = .fired found next) :
    next = { run with engine := run.engine.drain.fire found, fired := run.fired + 1 } := by
  rw [cycle_of_some (of_cycle_eq_fired h).1] at h
  exact (Cycle.fired.inj h).2.symm

/-- An idle run fires nothing. -/
theorem fired_idle (run : Run) : run.idle.toRun.fired = run.fired :=
  of_idle (P := fun later => later.fired = run.fired) (fun _ _ h => h) (fun _ h => h) (fun _ h => h) rfl

theorem fired_of_idle (h : run.cycle = .again next ∨ run.cycle = .quiet next) : next.fired = run.fired := by
  have hidle := fired_idle { run with engine := run.engine.drain }
  rw [← cycle_of_none (of_cycle_eq_idle h).1] at hidle
  rcases h with h | h <;> rw [h] at hidle <;> exact hidle

/-- A run counts its firings. -/
theorem fired_steps (run : Run) (limit : Nat) : (run.steps limit).2.fired = run.fired + (run.trail limit).length := by
  induction run, limit using steps.induct with
  | case1 run limit hhalted =>
      rw [steps_of_halted hhalted, trail_of_halted hhalted]
      rfl
  | case2 run hgoing =>
      rw [steps_zero hgoing, trail_zero]
      rfl
  | case3 run hgoing limit found next hfired ih =>
      rw [steps_eq_of_fired hgoing hfired, trail_of_fired hgoing hfired, ih, eq_of_cycle_eq_fired hfired,
        List.length_cons, Nat.add_assoc, Nat.add_comm 1]
  | case4 run hgoing limit next hagain ih =>
      rw [steps_eq_of_again hgoing hagain, trail_of_again hgoing hagain, ih, fired_of_idle (.inl hagain)]
  | case5 run hgoing limit next hquiet =>
      rw [steps_eq_of_quiet hgoing hquiet, trail_of_quiet hgoing hquiet]
      exact fired_of_idle (.inr hquiet)

/-- The engine counts the firings of all runs, as a run counts its own. -/
theorem firings_cycle (run : Run) :
    run.cycle.toRun.engine.firings + run.fired = run.engine.firings + run.cycle.toRun.fired := by
  cases hcycle : run.cycle with
  | fired found next =>
      rw [Cycle.toRun, eq_of_cycle_eq_fired hcycle]
      dsimp only
      rw [(Engine.Worked.fire run.engine.drain found).firings_eq]
      exact Nat.succ_add_eq_add_succ _ _
  | again next =>
      rw [Cycle.toRun, (of_cycle_eq_idle (.inl hcycle)).2.firings_eq, fired_of_idle (.inl hcycle)]
  | quiet next =>
      rw [Cycle.toRun, (of_cycle_eq_idle (.inr hcycle)).2.firings_eq, fired_of_idle (.inr hcycle)]

theorem firings_steps (run : Run) (limit : Nat) :
    (run.steps limit).2.engine.firings + run.fired = run.engine.firings + (run.steps limit).2.fired := by
  refine of_steps (P := fun later => later.engine.firings + run.fired = run.engine.firings + later.fired)
    (fun later h => ?_) rfl limit
  have hcycle := later.firings_cycle
  omega

theorem firings_close (run : Run) (outcome : Outcome) : (run.close outcome).2.firings = run.engine.firings := by
  cases outcome with
  | stepLimit => rfl
  | halted | quiescent => exact (Engine.Worked.settle run.engine).firings_eq

end Count

/-- A rule is fired when the pending facts have become live. -/
theorem pending_of_mem_trail {fired : Fired} (hmem : fired ∈ run.trail limit) : fired.engine.store.pending = [] := by
  induction run, limit using steps.induct with
  | case1 run limit hhalted =>
      rw [trail_of_halted hhalted] at hmem
      cases hmem
  | case2 run hgoing =>
      rw [trail_zero] at hmem
      cases hmem
  | case3 run hgoing limit found next hfired ih =>
      rw [trail_of_fired hgoing hfired, List.mem_cons] at hmem
      rcases hmem with rfl | hmem
      · rfl
      · exact ih hmem
  | case4 run hgoing limit next hagain ih =>
      rw [trail_of_again hgoing hagain] at hmem
      exact ih hmem
  | case5 run hgoing limit next hquiet =>
      rw [trail_of_quiet hgoing hquiet] at hmem
      cases hmem

/-- A firing that leaves a request to halt is the last one, whatever the limit is. -/
theorem steps_of_halted_after {earlier later : List Fired} {fired : Fired}
    (htrail : run.trail limit = earlier ++ fired :: later) (hhalted : fired.after.workspace.halted = true) :
    later = [] ∧ ∃ last : Run, last.engine = fired.after ∧ last.fired = run.fired + (earlier.length + 1) ∧
      ∀ n, earlier.length < n → run.steps n = (.halted, last) ∧ run.trail n = earlier ++ [fired] := by
  have hsome : earlier ++ fired :: later ≠ [] := List.append_ne_nil_of_right_ne_nil _ (List.cons_ne_nil _ _)
  induction run, limit using steps.induct generalizing earlier with
  | case1 run limit hstopped => exact absurd (htrail ▸ trail_of_halted hstopped limit) hsome
  | case2 run hgoing => exact absurd (htrail ▸ trail_zero run) hsome
  | case5 run hgoing limit next hquiet => exact absurd (htrail ▸ trail_of_quiet hgoing hquiet) hsome
  | case4 run hgoing limit next hagain ih =>
      rw [trail_of_again hgoing hagain] at htrail
      obtain ⟨hlater, last, hengine, hcount, hends⟩ := ih htrail hsome
      refine ⟨hlater, last, hengine, fired_of_idle (.inl hagain) ▸ hcount, fun n hn => ?_⟩
      obtain ⟨m, rfl⟩ := Nat.exists_eq_add_one_of_ne_zero (Nat.ne_zero_of_lt hn)
      rw [steps_eq_of_again hgoing hagain, trail_of_again hgoing hagain]
      exact hends (m + 1) hn
  | case3 run hgoing limit found next hfired ih =>
      rw [trail_of_fired hgoing hfired] at htrail
      have hcounted : next.fired = run.fired + 1 := congrArg Run.fired (eq_of_cycle_eq_fired hfired)
      cases earlier with
      | nil =>
          obtain ⟨rfl, rfl⟩ := List.cons.inj htrail
          have hstopped : next.engine.workspace.halted = true := (of_cycle_eq_fired hfired).2 ▸ hhalted
          refine ⟨trail_of_halted hstopped limit, next, (of_cycle_eq_fired hfired).2, hcounted, fun n hn => ?_⟩
          obtain ⟨m, rfl⟩ := Nat.exists_eq_add_one_of_ne_zero (Nat.ne_zero_of_lt hn)
          -- the request is looked at before the limit, so nothing is left to be seen of `m`
          rw [steps_eq_of_fired hgoing hfired, trail_of_fired hgoing hfired, steps_of_halted hstopped,
            trail_of_halted hstopped]
          exact ⟨rfl, rfl⟩
      | cons first earlier =>
          obtain ⟨rfl, hrest⟩ := List.cons.inj htrail
          obtain ⟨hlater, last, hengine, hcount, hends⟩ :=
            ih hrest (List.append_ne_nil_of_right_ne_nil _ (List.cons_ne_nil _ _))
          refine ⟨hlater, last, hengine, ?_, fun n hn => ?_⟩
          · rw [hcount, hcounted, List.length_cons]
            omega
          · obtain ⟨m, rfl⟩ := Nat.exists_eq_add_one_of_ne_zero (Nat.ne_zero_of_lt hn)
            obtain ⟨hsteps, htrail⟩ := hends m (Nat.lt_of_succ_lt_succ hn)
            rw [steps_eq_of_fired hgoing hfired, trail_of_fired hgoing hfired, hsteps, htrail]
            exact ⟨rfl, rfl⟩

end Run

/-- Without a signal to halt, a wait leaves the request to halt as it is. -/
theorem Workspace.halted_await {seen : UInt64} {deadline : Option Nat} (workspace : Workspace)
    {arrivals : List Arrival} (hcalm : ∀ arrival ∈ arrivals, arrival.signal ≠ .halt) :
    (workspace.await seen deadline arrivals).workspace.halted = workspace.halted := by
  refine await_induction (P := fun later => later.halted = workspace.halted) (fun arrival hmem later h => ?_) rfl
  cases hsignal : arrival.signal with
  | make type overrides => exact h
  | wake => exact h
  | halt => exact absurd hsignal (hcalm arrival hmem)

/-- Does a run of an engine that does its actions on the loop stand without a request to halt, and will none come from
outside? -/
structure Run.Undisturbed (run : Run) : Prop where
  synchronous : run.engine.Synchronous
  going : run.engine.workspace.halted = false
  calm : ∀ arrival ∈ run.arrivals, arrival.signal ≠ .halt

namespace Run

variable {run next : Run} {found : Match} {limit : Nat}

theorem halted_rest (hcalm : ∀ arrival ∈ run.arrivals, arrival.signal ≠ .halt) :
    run.rest.toRun.engine.workspace.halted = run.engine.workspace.halted ∧ run.rest.toRun.arrivals ⊆ run.arrivals :=
  of_rest (P := fun later => later.engine.workspace.halted = run.engine.workspace.halted ∧
      later.arrivals ⊆ run.arrivals)
    (fun _ => ⟨Workspace.halted_await _ hcalm, Workspace.later_await_subset _⟩) ⟨rfl, List.Subset.refl _⟩

namespace Undisturbed

theorem not_halted (h : run.Undisturbed) : ¬run.engine.workspace.halted = true := by
  rw [h.going]
  exact Bool.false_ne_true

/-- What disturbs a run that fires a rule are the actions of the rule. -/
theorem fires (h : run.Undisturbed) (hcycle : run.cycle = .fired found next)
    (hnever : ¬Fired.Halts ⟨run.engine.drain, found⟩) : next.Undisturbed := by
  have hsynchronous := h.synchronous.cycle
  rw [hcycle] at hsynchronous
  refine ⟨hsynchronous, ?_, ?_⟩
  · rw [(of_cycle_eq_fired hcycle).2]
    exact @Fired.going_after ⟨run.engine.drain, found⟩ h.going hnever
  · rw [eq_of_cycle_eq_fired hcycle]
    exact h.calm

/-- Nothing disturbs a run that waits. -/
theorem waits (h : run.Undisturbed) (hcycle : run.cycle = .again next ∨ run.cycle = .quiet next) :
    next.Undisturbed := by
  have hsynchronous := h.synchronous.cycle
  have hworkless : ({ run with engine := run.engine.drain }).engine.backlog = 0 :=
    congrArg List.length h.synchronous.queue_eq_nil
  have hrest : run.cycle.toRun = ({ run with engine := run.engine.drain }).rest.toRun := by
    rw [cycle_of_none (of_cycle_eq_idle hcycle).1, idle_of_workless hworkless]
  have hnext : run.cycle.toRun = next := by
    rcases hcycle with hagain | hquiet
    · rw [hagain]
      rfl
    · rw [hquiet]
      rfl
  obtain ⟨hhalted, hlater⟩ := @halted_rest { run with engine := run.engine.drain } h.calm
  rw [← hrest, hnext] at hhalted hlater
  exact ⟨hnext ▸ hsynchronous, hhalted.trans h.going, fun arrival hmem => h.calm arrival (hlater hmem)⟩

/-- If no action asks to halt, a run reaches its limit or comes to rest before. -/
theorem steps (h : run.Undisturbed) (hnever : ∀ fired ∈ run.trail limit, ¬fired.Halts) :
    (run.steps limit).1 = .stepLimit ∧ (run.trail limit).length = limit ∨
      (run.steps limit).1 = .quiescent ∧ (run.trail limit).length < limit := by
  induction run, limit using Run.steps.induct with
  | case1 run limit hhalted => exact absurd hhalted h.not_halted
  | case2 run hgoing =>
      rw [steps_zero hgoing, trail_zero]
      exact .inl ⟨rfl, rfl⟩
  | case3 run hgoing limit found next hfired ih =>
      rw [trail_of_fired hgoing hfired, List.forall_mem_cons] at hnever
      rw [steps_eq_of_fired hgoing hfired, trail_of_fired hgoing hfired, List.length_cons]
      exact (ih (h.fires hfired hnever.1) hnever.2).imp (And.imp_right (congrArg (· + 1)))
        (And.imp_right Nat.succ_lt_succ)
  | case4 run hgoing limit next hagain ih =>
      rw [trail_of_again hgoing hagain] at hnever ⊢
      rw [steps_eq_of_again hgoing hagain]
      exact ih (h.waits (.inl hagain)) hnever
  | case5 run hgoing limit next hquiet =>
      rw [steps_eq_of_quiet hgoing hquiet, trail_of_quiet hgoing hquiet]
      exact .inr ⟨rfl, Nat.succ_pos limit⟩

end Undisturbed

end Run

/-- Does an engine that runs, up to a limit if there is one, while signals come from outside, come to a report, and to
an engine after the run? -/
def Engine.ComesTo (engine : Engine) (arrivals : List Arrival) (bound : Option Nat) (answer : Report × Engine) : Prop :=
  ∃ ended, (engine.begin arrivals).EndsAs bound ended ∧ ended.2.close ended.1 = answer

namespace Run

variable {run : Run} {bound : Option Nat} {ended : Outcome × Run}

/-- A run ends, whatever its limit beyond a number is, as it ends up to each limit beyond the number. -/
theorem endsAs_iff_of_steps {fewest : Nat} (hends : ∀ n, fewest < n → run.steps n = ended)
    (hover : ended.1 ≠ .stepLimit) (hbound : ∀ n ∈ bound, fewest < n) {other : Outcome × Run} :
    run.EndsAs bound other ↔ other = ended := by
  cases bound with
  | some n =>
      show run.steps n = other ↔ _
      rw [hends n (hbound n rfl)]
      exact eq_comm
  | none =>
      have hsteps := hends (fewest + 1) (Nat.lt_succ_self fewest)
      show run.Finishes other ↔ _
      rw [finishes_iff_of_ended (hsteps ▸ hover), hsteps]

/-- A run without a limit is a run up to some limit. -/
theorem EndsAs.exists_steps (h : run.EndsAs bound ended) : ∃ n, run.steps n = ended ∧ ∀ limit ∈ bound, limit = n := by
  cases bound with
  | some limit => exact ⟨limit, h, fun _ hn => (Option.mem_some.1 hn).symm⟩
  | none => exact (exists_steps_of_finishes h).imp fun _ hsteps => ⟨hsteps.1, nofun⟩

/-- However a run ends, all its firings are counted. -/
theorem EndsAs.counts (h : run.EndsAs bound ended) :
    (ended.2.close ended.1).2.firings + run.fired = run.engine.firings + ended.2.fired ∧
      ∀ limit ∈ bound, run.fired + (run.trail limit).length = ended.2.fired := by
  obtain ⟨n, rfl, hbound⟩ := h.exists_steps
  refine ⟨?_, fun limit hlimit => ?_⟩
  · rw [firings_close]
    exact run.firings_steps n
  · rw [hbound limit hlimit]
    exact (run.fired_steps n).symm

end Run

theorem Engine.comesTo_some_iff {engine : Engine} {limit : Nat} {answer : Report × Engine} :
    engine.ComesTo [] (some limit) answer ↔ engine.runSteps limit = answer := by
  constructor
  · rintro ⟨_, rfl, hclose⟩
    exact hclose
  · exact fun h => ⟨_, rfl, h⟩

theorem Engine.comesTo_iff {engine : Engine} {arrivals : List Arrival} {bound : Option Nat} {ended : Outcome × Run}
    (hended : ∀ other, (engine.begin arrivals).EndsAs bound other ↔ other = ended) {answer : Report × Engine} :
    engine.ComesTo arrivals bound answer ↔ answer = ended.2.close ended.1 := by
  simp only [ComesTo, hended, exists_eq_left]
  exact eq_comm

/-- **A request to halt is not overtaken.** Take an engine with any history in which the workers got their jobs from it
alone, and let all actions of its rules be done on the loop. Let it run while signals come from outside.

If an action of a rule that is fired asks to halt, and no action of the rule takes that back, then all actions of the
rule are dispatched, and no other rule is fired after it. With each limit that allows the firing, if only just, and
without a limit the run comes to the same: it ends with the request, and the engine is left as it is after the firing.
What the firing has made is pending, as nothing was before it, and no fact has become live.

If no action and no signal asks to halt, a run stops at its limit if it fires so many rules, and comes to rest if it
fires fewer. Whatever the end of a run, the engine has counted the firings that the run reports. -/
theorem halt_is_not_overtaken (config : Config) (events : List EngineEvent)
    (hjobs : (Chronicle.new config).OwnJobs events)
    (hsync : ((Chronicle.new config).after events).engine.SyncOnly) (arrivals : List Arrival) :
    let engine := ((Chronicle.new config).after events).engine
    let run := engine.begin arrivals
    (∀ limit earlier fired later, run.trail limit = earlier ++ fired :: later → fired.Halts →
        (∀ action ∈ fired.rule.actions, action.command.TakesNothingBack) →
        let last : Engine := { fired.after with state := .halted }
        fired.dispatches.map Dispatch.action = fired.rule.actions ∧
          (∀ dispatch ∈ fired.dispatches.getLast?, dispatch.after.2 = fired.after) ∧
          later = [] ∧ (∀ n, earlier.length < n → run.trail n = earlier ++ [fired]) ∧
          (∀ bound : Option Nat, (∀ n ∈ bound, earlier.length < n) → ∀ answer,
            engine.ComesTo arrivals bound answer ↔ answer = (⟨earlier.length + 1, .halted⟩, last)) ∧
          fired.engine.store.pending = [] ∧
          (∀ dispatch ∈ fired.dispatches, dispatch.after.2.store.pending <+: last.store.pending) ∧
          ∀ type, (last.store.get type).Sublist (fired.engine.store.get type)) ∧
      (∀ limit, (∀ fired ∈ run.trail limit, ¬fired.Halts) → (∀ arrival ∈ arrivals, arrival.signal ≠ .halt) →
        ∃ report after, (∀ answer, engine.ComesTo arrivals (some limit) answer ↔ answer = (report, after)) ∧
          (report.outcome = .stepLimit ↔ report.firings = limit) ∧
          (report.outcome ≠ .stepLimit → report.outcome = .quiescent ∧ report.firings < limit)) ∧
      ∀ bound report after, engine.ComesTo arrivals bound (report, after) →
        after.firings = engine.firings + report.firings ∧
          ∀ limit ∈ bound, (run.trail limit).length = report.firings := by
  intro engine run
  have hsynchronous : run.engine.Synchronous := (Engine.synchronous_after config hjobs hsync).begin
  refine ⟨?halting, ?undisturbed, ?counting⟩
  case halting =>
    intro limit earlier fired later htrail hhalts hkeep last
    obtain ⟨hretained, hdispatches⟩ := Fired.retains_after hkeep
    obtain ⟨hlater, ended, hengine, hcount, hends⟩ :=
      Run.steps_of_halted_after htrail (Fired.halted_after hkeep hhalts)
    have hended {bound : Option Nat} (hbound : ∀ n ∈ bound, earlier.length < n) (other : Outcome × Run) :
        run.EndsAs bound other ↔ other = (.halted, ended) :=
      Run.endsAs_iff_of_steps (fun n hn => (hends n hn).1) (show Outcome.halted ≠ .stepLimit by decide) hbound
    -- no jobs are with the workers, so nothing happens any more when the run is closed
    have hclose : ended.close .halted = (⟨earlier.length + 1, .halted⟩, last) := by
      have hunlimited : run.EndsAs none (.halted, ended) :=
        (@hended none (fun n hn => (Option.not_mem_none n hn).elim) _).2 rfl
      have hqueue := (hunlimited.synchronous hsynchronous).queue_eq_nil
      rw [Run.close]
      dsimp only
      rw [Engine.settle_of_queue_eq_nil hqueue, hengine, hcount]
      exact congrArg (fun firings => (Report.mk firings _, last)) (Nat.zero_add _)
    refine ⟨Engine.map_action_dispatches, fun dispatch hlast => Engine.after_of_getLast? hlast, hlater,
      fun n hn => (hends n hn).2, fun bound hbound answer => ?_,
      Run.pending_of_mem_trail (htrail ▸ List.mem_append_right _ List.mem_cons_self),
      fun dispatch hmem => (hdispatches dispatch hmem).store.pending, hretained.store.live⟩
    rw [Engine.comesTo_iff (hended hbound), hclose]
  case undisturbed =>
    intro limit hnever hcalm
    have hundisturbed : run.Undisturbed := ⟨hsynchronous, rfl, hcalm⟩
    have hfirings : (run.steps limit).2.fired = (run.trail limit).length :=
      (run.fired_steps limit).trans (Nat.zero_add _)
    have hended (other : Outcome × Run) : run.EndsAs (some limit) other ↔ other = run.steps limit := eq_comm
    refine ⟨⟨(run.steps limit).2.fired, (run.steps limit).1⟩, _, fun _ => Engine.comesTo_iff hended, ?_⟩
    dsimp only
    rw [hfirings]
    rcases hundisturbed.steps hnever with ⟨houtcome, hcount⟩ | ⟨houtcome, hcount⟩
    · rw [houtcome]
      exact ⟨iff_of_true rfl hcount, fun h => absurd rfl h⟩
    · rw [houtcome]
      exact ⟨iff_of_false (by decide) (Nat.ne_of_lt hcount), fun _ => ⟨rfl, hcount⟩⟩
  case counting =>
    rintro bound report after ⟨ended, hended, hclose⟩
    obtain ⟨hfirings, hcount⟩ := hended.counts
    obtain rfl : (ended.2.close ended.1).1 = report := congrArg Prod.fst hclose
    obtain rfl : (ended.2.close ended.1).2 = after := congrArg Prod.snd hclose
    exact ⟨hfirings, fun limit hlimit => (Nat.zero_add _).symm.trans (hcount limit hlimit)⟩

/-- A rule that asks to halt before it has done all it has to do. -/
def stopRule : Rule where
  name := "stop"
  conditions := [⟨"seed", []⟩]
  actions := [
    ⟨Builtin.write.command, [.literal (.str "before")]⟩, ⟨Builtin.halt.command, []⟩,
    ⟨Builtin.make.command, [.literal (.str "note")]⟩, ⟨Builtin.write.command, [.literal (.str "after")]⟩]

def stoppingHistory : List EngineEvent :=
  [.register ⟨"seed", []⟩, .register ⟨"note", []⟩, .addRule stopRule, .make "seed" []]

/-- The rule would fire again and again. It fires once, with a limit of one as without a limit: it writes both lines,
and the fact that it makes is pending. -/
theorem halt_is_not_overtaken_stopRule :
    let chronicle := Chronicle.new .sequential
    let engine := (chronicle.after stoppingHistory).engine
    chronicle.OwnJobs stoppingHistory ∧ engine.SyncOnly ∧ ∃ fired : Fired, ∃ after : Engine,
      (engine.begin []).trail 1 = [fired] ∧ fired.Halts ∧
        engine.runSteps 1 = (⟨1, .halted⟩, after) ∧ engine.RunsTo (⟨1, .halted⟩, after) ∧
        after.workspace.lines = #["before", "after"] ∧ after.store.pending = [⟨1⟩] ∧
        after.store.get "note" = [] := by
  intro chronicle engine
  have hjobs : chronicle.OwnJobs stoppingHistory := ⟨trivial, trivial, trivial, trivial, trivial⟩
  have hsync : engine.SyncOnly := by
    have hrules : engine.rules = [⟨0, stopRule⟩] := rfl
    rw [Engine.SyncOnly, hrules]
    decide
  let run := engine.begin []
  let fired : Fired := ⟨run.engine.drain, ⟨⟨0, stopRule⟩, [⟨0⟩], Dictionary.empty⟩⟩
  have hchoose : run.engine.drain.choose = some fired.found := by
    have hall : run.engine.drain.matchAll = Match.all none run.engine.drain.view [⟨0, stopRule⟩] := rfl
    rw [Engine.choose_of_matchAll hall]
    rfl
  have htrail : run.trail 1 = [] ++ fired :: [] := by
    rw [Run.trail_of_fired Bool.false_ne_true (Run.cycle_of_some hchoose), Run.trail_zero]
    rfl
  have hhalts : fired.Halts := Fired.halts_of_mem (List.mem_cons_of_mem _ List.mem_cons_self)
  have hkeep : ∀ action ∈ fired.rule.actions, action.command.TakesNothingBack := by
    show ∀ action ∈ stopRule.actions, _
    simp only [stopRule, List.forall_mem_cons]
    exact ⟨Builtin.takesNothingBack .write .sync, Builtin.takesNothingBack .halt .sync,
      Builtin.takesNothingBack .make .sync, Builtin.takesNothingBack .write .sync, List.forall_mem_nil _⟩
  obtain ⟨hhalting, -, -⟩ := halt_is_not_overtaken .sequential stoppingHistory hjobs hsync []
  obtain ⟨-, -, -, -, hanswers, -⟩ := hhalting 1 [] fired [] htrail hhalts hkeep
  refine ⟨hjobs, hsync, fired, { fired.after with state := .halted }, htrail, hhalts, ?_, ?_, ?_, ?_, ?_⟩
  · exact Engine.comesTo_some_iff.1 ((hanswers (some 1) (by decide) _).2 rfl)
  · exact (hanswers none (fun n hn => (Option.not_mem_none n hn).elim) _).2 rfl
  · rfl
  · rfl
  · rfl

end ProductionSystem
