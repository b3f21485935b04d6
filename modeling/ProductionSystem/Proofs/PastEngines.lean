import Mathlib.Data.List.Basic
import ProductionSystem.Proofs.BuiltinScripts
import ProductionSystem.Proofs.Loads
import ProductionSystem.Proofs.PastMatches

/-!
An engine with a past: rules and tickets were numbered before, facts made, lines written. A command that does its
work through the references that it is given comes to the same with a past and without one. If all commands are
such, then so does everything that is done with the engine.
-/

namespace ProductionSystem

variable (past : Past)

def Firing.after (firing : Firing) : Firing :=
  { firing with
    facts := firing.facts.map (FactRef.after past)
    removals := firing.removals.map (FactRef.after past) }

def ActionState.after (state : ActionState) : ActionState := ⟨state.firing.after past, state.workspace.after past⟩

/-- Is the past nothing to a command? -/
def Command.Oblivious (command : Command) : Prop :=
  ∀ past args state,
    command.run args (state.after past) = ((command.run args state).1, (command.run args state).2.after past)

theorem Command.Oblivious.later {command : Command} (h : command.Oblivious) : command.later.Oblivious := h

namespace ActionM

variable {α β γ δ : Type}

/-- Does a program do, with a past, what another one does without one? What it results in is renamed. -/
def Echoes (rename : α → β) (program : ActionM α) (echo : ActionM β) : Prop :=
  ∀ state, echo.run (state.after past) = ((program.run state).1.map rename, (program.run state).2.after past)

namespace Echoes

variable {past} {rename : α → β} {rename' : γ → δ}

theorem pure (a : α) : Echoes past rename (Pure.pure a) (Pure.pure (rename a)) := fun _ => rfl

theorem fail (cause : ErrorKind) : Echoes past rename (ActionM.fail cause) (ActionM.fail cause) := fun _ => rfl

theorem bind {program : ActionM α} {echo : ActionM β} {rest : α → ActionM γ} {rest' : β → ActionM δ}
    (h : Echoes past rename program echo) (hrest : ∀ a, Echoes past rename' (rest a) (rest' (rename a))) :
    Echoes past rename' (program >>= rest) (echo >>= rest') := by
  intro state
  rw [run_bind, run_bind, h state]
  cases program.run state with
  | mk result next =>
      cases result with
      | ok a => exact hrest a next
      | error abort => rfl

theorem decoded (result : Except ArgumentProblem α) :
    Echoes past id (ActionM.decoded result) (ActionM.decoded result) := by
  cases result with
  | ok a => exact pure a
  | error problem => exact fail _

theorem factAt (index : Nat) : Echoes past (FactRef.after past) (ActionM.factAt index) (ActionM.factAt index) := by
  intro state
  have hfact : (state.after past).firing.facts[index]? = (state.firing.facts[index]?).map (FactRef.after past) :=
    List.getElem?_map
  have hlength : (state.after past).firing.facts.length = state.firing.facts.length := List.length_map _
  unfold ActionM.factAt
  rw [run_bind, run_bind, run_get, run_get]
  simp only [hfact, hlength]
  cases state.firing.facts[index]? <;> rfl

theorem onStore {f f' : Store → Except ErrorKind α × Store} {rename : α → α}
    (h : ∀ store, f' (store.after past) = ((f store).1.map rename, (f store).2.after past)) :
    Echoes past rename (ActionM.onStore f) (ActionM.onStore f') := by
  intro state
  have hstore : (state.after past).workspace.store = state.workspace.store.after past := rfl
  have hstate : state.after past = ⟨(state.after past).firing, (state.after past).workspace⟩ := rfl
  rw [hstate, run_onStore, hstore, h, run_onStore]
  cases (f state.workspace.store).1 <;> rfl

theorem removeMatched (index : Nat) : Echoes past id (ActionM.removeMatched index) (ActionM.removeMatched index) := by
  refine bind (factAt index) fun ref state => ?_
  obtain ⟨⟨rule, facts, bindings, removals, onLoop⟩, workspace⟩ := state
  have hremovals : removals.map (FactRef.after past) ++ [ref.after past] =
      (removals ++ [ref]).map (FactRef.after past) := by
    rw [List.map_append, List.map_singleton]
  rw [run_bind, run_bind, run_get, run_get]
  cases onLoop with
  | true =>
      refine Prod.ext rfl ?_
      let firing (removals : List FactRef) : Firing :=
        { rule, facts := facts.map (FactRef.after past), bindings, removals }
      exact congrArg (fun removals => ActionState.mk (firing removals) (workspace.after past)) hremovals
  | false => rfl

theorem modifyMatched (index : Nat) (values : List (String × Value)) :
    Echoes past id (ActionM.modifyMatched index values) (ActionM.modifyMatched index values) := by
  refine bind (factAt index) fun ref => onStore fun store => ?_
  rw [Store.setMany_after, Except.map_id]
  rfl

theorem createFact (type : String) (overrides : List (String × Value)) :
    Echoes past (FactRef.after past) (ActionM.createFact type overrides) (ActionM.createFact type overrides) :=
  onStore fun store => store.make_after past type overrides

end Echoes

end ActionM

namespace Command

theorem oblivious_of_echoes {command : Command}
    (h : ∀ past args, ActionM.Echoes past id (command.body args) (command.body args)) : command.Oblivious := by
  intro past args state
  have hbody : (command.body args).run (state.after past) = _ := h past args state
  unfold run
  rw [hbody]
  cases (command.body args).run state with
  | mk result next =>
      cases result with
      | ok _ => rfl
      | error abort => cases abort <;> rfl

end Command

namespace Builtin

theorem echoes_removeAll (args : List Value) : ActionM.Echoes past id (removeAll args) (removeAll args) := by
  induction args with
  | nil => exact .pure ()
  | cons arg args ih => exact .bind (.decoded _) fun index => .bind (.removeMatched index) fun _ => ih

theorem echoes_body (builtin : Builtin) (args : List Value) :
    ActionM.Echoes past id (builtin.body args) (builtin.body args) := by
  cases builtin with
  | bind =>
      match args with
      | [target, value] => exact .bind (.decoded _) fun name state => rfl
      | [] | [_] | _ :: _ :: _ :: _ => exact .fail _
  | halt =>
      match args with
      | [] =>
          exact fun state => Prod.ext rfl
            (congrArg (ActionState.mk (state.firing.after past)) (state.workspace.halt_after past))
      | _ :: _ => exact .fail _
  | make =>
      match args with
      | [] => exact .fail _
      | type :: rest =>
          refine .bind (.decoded _) fun type => .bind (.decoded _) fun overrides => ?_
          exact .bind (.createFact type overrides) fun _ => .pure ()
  | modify =>
      match args with
      | [] => exact .fail _
      | index :: rest =>
          exact .bind (.decoded _) fun index => .bind (.decoded _) fun values => .modifyMatched index values
  | remove =>
      match args with
      | [] => exact .fail _
      | arg :: args => exact echoes_removeAll past (arg :: args)
  | write =>
      exact fun state => Prod.ext rfl
        (congrArg (ActionState.mk (state.firing.after past)) (state.workspace.write_after past (line args)))

/-- The built-in commands work through references only. -/
theorem oblivious_command (builtin : Builtin) : builtin.command.Oblivious :=
  Command.oblivious_of_echoes fun past args => builtin.echoes_body past args

end Builtin

section Engines

def Ticket.after (ticket : Ticket) : Ticket := { ticket with serial := ticket.serial + past.tickets }

def Job.after (job : Job) : Job := { job with firing := job.firing.after past }

/-- A job and its ticket. -/
def Ticket.afterJob (job : Ticket × Job) : Ticket × Job := (job.1.after past, job.2.after past)

def Executor.after (executor : Executor Job) : Executor Job where
  pool := { executor.pool with queue := executor.pool.queue.map (Ticket.afterJob past) }
  tickets := executor.tickets.map (Ticket.after past)
  issued := executor.issued + past.tickets

def Engine.after (engine : Engine) : Engine :=
  { engine with
    executor := engine.executor.after past
    workspace := engine.workspace.after past
    rules := engine.rules.map (RuleInstance.after past)
    added := engine.added + past.rules
    lastFired := engine.lastFired.map (RuleInstance.after past) }

end Engines

theorem Ticket.after_injective : Function.Injective (Ticket.after past) := by
  rintro ⟨serial, rule⟩ ⟨serial', rule'⟩ h
  obtain ⟨hserial, rfl⟩ := Ticket.mk.inj h
  exact congrArg (Ticket.mk · rule) (Nat.add_right_cancel hserial)

namespace Executor

variable (executor : Executor Job) (store : Store)

theorem release_after (ticket : Ticket) :
    (executor.after past).release (store.after past) (ticket.after past) =
      ((executor.release store ticket).1.after past, (executor.release store ticket).2.after past) := by
  have htickets : (executor.tickets.map (Ticket.after past)).erase (ticket.after past) =
      (executor.tickets.erase ticket).map (Ticket.after past) :=
    (List.map_erase (Ticket.after_injective past) executor.tickets).symm
  exact Prod.ext (congrArg (fun tickets => { executor.after past with tickets }) htickets) (store.wake_after past)

theorem submit_after (rule : String) (job : Job) :
    (executor.after past).submit (store.after past) rule (job.after past) =
      let (result, next) := executor.submit store rule job
      (result.map (Ticket.after past), next.1.after past, next.2.after past) := by
  obtain ⟨⟨workers, accepting, queue⟩, tickets, issued⟩ := executor
  let ticket : Ticket := ⟨issued, rule⟩
  have htickets : tickets.map (Ticket.after past) ++ [ticket.after past] =
      (tickets ++ [ticket]).map (Ticket.after past) := by
    rw [List.map_append, List.map_singleton]
  have hissued : issued + past.tickets + 1 = issued + 1 + past.tickets := Nat.add_right_comm ..
  cases accepting with
  | true =>
      have hqueue : queue.map (Ticket.afterJob past) ++ [(ticket.after past, job.after past)] =
          (queue ++ [(ticket, job)]).map (Ticket.afterJob past) := by
        rw [List.map_append, List.map_singleton]
        rfl
      refine Prod.ext rfl (Prod.ext ?_ rfl)
      show Executor.mk ⟨workers, true, _⟩ _ _ = _
      exact congr (congr (congrArg (fun queue => Executor.mk ⟨workers, true, queue⟩) hqueue) htickets) hissued
  | false =>
      let issuing : Executor Job := ⟨⟨workers, false, queue⟩, tickets ++ [ticket], issued + 1⟩
      have hissuing : (⟨⟨workers, false, queue.map (Ticket.afterJob past)⟩,
          tickets.map (Ticket.after past) ++ [ticket.after past], issued + past.tickets + 1⟩ : Executor Job) =
          issuing.after past :=
        congr (congrArg (Executor.mk _) htickets) hissued
      refine Prod.ext rfl (Eq.trans ?_ (issuing.release_after past store ticket))
      exact congrArg (fun issuing => Executor.release issuing (store.after past) (ticket.after past)) hissuing

end Executor

namespace Engine

variable (engine : Engine)

theorem make_after (type : String) (overrides : List (String × Value)) :
    (engine.after past).make type overrides =
      ((engine.make type overrides).1.map (FactRef.after past), (engine.make type overrides).2.after past) :=
  congrArg (Prod.map id (engine.after past).withStore) (engine.store.make_after past type overrides)

theorem install_after (rule : Rule) : (engine.after past).install rule = (engine.install rule).after past := by
  simp only [install, after, List.map_append, List.map_singleton, RuleInstance.after, Nat.add_right_comm]

theorem arrange_after : (engine.after past).arrange = engine.arrange.after past := by
  let order (a b : RuleInstance) : Bool := b.rule.specificity ≤ a.rule.specificity
  have hsort : (engine.rules.map (RuleInstance.after past)).mergeSort order =
      (engine.rules.mergeSort order).map (RuleInstance.after past) :=
    (@List.map_mergeSort _ _ order order (RuleInstance.after past) engine.rules fun _ _ _ _ => rfl).symm
  have hconfig : (engine.after past).config = engine.config := rfl
  rw [arrange, arrange, hconfig]
  split
  · exact congrArg (fun rules => { engine.after past with rules }) hsort
  · rfl

theorem addRules_after (rules : List Rule) :
    (engine.after past).addRules rules = (engine.addRules rules).after past := by
  have hinstall : rules.foldl install (engine.after past) = (rules.foldl install engine).after past :=
    List.foldl_hom (Engine.after past) fun engine rule => engine.install_after past rule
  rw [addRules, addRules, hinstall, arrange_after]

theorem loadMap_after : LoadMap (Engine.after past) (FactRef.after past) where
  register _ _ := rfl
  make engine type values := engine.make_after past type values
  addRules engine rules := engine.addRules_after past rules

theorem exec_after {command : Command} (h : command.Oblivious) (args : List Value) (firing : Firing) :
    (engine.after past).exec command args (firing.after past) =
      ((engine.exec command args firing).1.after past, (engine.exec command args firing).2.after past) := by
  have hrun : command.run args ⟨firing.after past, (engine.after past).workspace⟩ = _ :=
    h past args ⟨firing, engine.workspace⟩
  simp only [exec, hrun]
  cases command.run args ⟨firing, engine.workspace⟩ with
  | mk failure next => cases failure <;> rfl

theorem applyRemovals_after (firing : Firing) :
    applyRemovals (firing.after past) (engine.after past) =
      ((applyRemovals firing engine).1.after past, (applyRemovals firing engine).2.after past) := by
  let removeIn (store : Store) (ref : FactRef) : Store := (store.remove ref).2
  have hremove : (firing.removals.map (FactRef.after past)).foldl removeIn (engine.store.after past) =
      (firing.removals.foldl removeIn engine.store).after past := by
    rw [List.foldl_map]
    exact List.foldl_hom (Store.after past) fun store ref => congrArg Prod.snd (store.remove_after past ref)
  exact Prod.ext rfl (congrArg (engine.after past).withStore hremove)

theorem handOver_after (command : Command) (args : List Value) (firing : Firing) :
    (engine.after past).handOver command args (firing.after past) =
      (engine.handOver command args firing).after past := by
  let job : Job := ⟨command, args, { firing with removals := [], onLoop := false }⟩
  have hsubmit : (engine.after past).executor.submit (engine.after past).store (firing.after past).rule
      ⟨command, args, { firing.after past with removals := [], onLoop := false }⟩ = _ :=
    engine.executor.submit_after past engine.store firing.rule job
  simp only [handOver, hsubmit]
  cases engine.executor.submit engine.store firing.rule job with
  | mk result next => cases result <;> rfl

theorem dispatch_after {action : Action} (h : action.command.Oblivious) (firing : Firing) :
    dispatch (firing.after past) (engine.after past) action =
      ((dispatch firing engine action).1.after past, (dispatch firing engine action).2.after past) := by
  have hbindings : (firing.after past).bindings = firing.bindings := rfl
  unfold dispatch
  rw [hbindings]
  cases Param.resolveAll firing.bindings action.params with
  | error cause => rfl
  | ok args =>
      dsimp only
      cases action.command.mode with
      | sync =>
          dsimp only
          rw [exec_after past engine h]
          exact applyRemovals_after past _ _
      | async => exact Prod.ext rfl (engine.handOver_after past action.command args firing)

theorem perform_after {job : Ticket × Job} (h : job.2.command.Oblivious) :
    (engine.after past).perform (Ticket.afterJob past job) = (engine.perform job).after past := by
  have hexec : (engine.after past).exec (Ticket.afterJob past job).2.command (Ticket.afterJob past job).2.args
      (Ticket.afterJob past job).2.firing = _ := engine.exec_after past h job.2.args job.2.firing
  let next := (engine.exec job.2.command job.2.args job.2.firing).2
  have hrelease : (next.after past).executor.release (next.after past).store (job.1.after past) = _ :=
    next.executor.release_after past next.store job.1
  unfold perform
  rw [hexec]
  exact congrArg (fun result : Executor Job × Store =>
    { (next.after past).withStore result.2 with executor := result.1 }) hrelease

theorem drain_after : (engine.after past).drain = engine.drain.after past :=
  congrArg (engine.after past).withStore (engine.store.drain_after past)

theorem outstanding_after : (engine.after past).outstanding = engine.outstanding := List.length_map _

theorem halt_after : (engine.after past).halt = engine.halt.after past :=
  congrArg (fun workspace => { engine.after past with workspace }) (engine.workspace.halt_after past)

theorem choose_after (hidle : ∀ pool ∈ engine.matchers, pool.queue = []) :
    (engine.after past).choose = engine.choose.map (Match.after past) := by
  have hall : (engine.after past).matchAll = engine.matchAll.map (Match.after past) := by
    have hview : (engine.after past).view = View.after past engine.view :=
      engine.store.view_after past engine.store.snapshot
    rw [matchAll, matchAll, Match.allBy_eq_all hidle, hview]
    exact (Match.allBy_eq_all hidle).trans (Match.all_after past engine.config.maxMatchFrames engine.view engine.rules)
  have hlast (found : Match) : (engine.after past).lastFired.any (found.after past).source.same =
      engine.lastFired.any found.source.same := by
    simp only [after, Option.any_map]
    exact congrArg (engine.lastFired.any ·) (funext fun last => found.source.same_after past last)
  rw [choose, hall]
  exact Conflict.select_map (Match.after past) hlast engine.matchAll

theorem settle_after (h : ∀ job ∈ engine.executor.pool.queue, job.2.command.Oblivious) :
    (engine.after past).settle = engine.settle.after past := by
  have hperform (jobs : List (Ticket × Job)) (hjobs : ∀ job ∈ jobs, job.2.command.Oblivious) (engine : Engine) :
      (jobs.map (Ticket.afterJob past)).foldl perform (engine.after past) = (jobs.foldl perform engine).after past := by
    induction jobs generalizing engine with
    | nil => rfl
    | cons job jobs ih =>
        obtain ⟨hjob, hrest⟩ := List.forall_mem_cons.1 hjobs
        rw [List.map_cons, List.foldl_cons, perform_after past engine hjob]
        exact ih hrest (engine.perform job)
  exact hperform engine.executor.pool.queue h { engine with executor := engine.executor.takeAll.2 }

theorem reset_after (h : ∀ job ∈ engine.executor.pool.queue, job.2.command.Oblivious) :
    (engine.after past).reset = engine.reset.after past := by
  unfold reset
  rw [settle_after past engine h]
  rfl

end Engine

end ProductionSystem
