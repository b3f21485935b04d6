import Mathlib.Data.List.Forall2
import ProductionSystem.Proofs.Agenda
import ProductionSystem.Proofs.WrittenLines

/-!
What becomes of an action. The loop dispatches it: its parameters stand for values or one of them does not; then its
command runs at once, or a job is handed over to the workers or turned away. A worker does the job later. Each of
these leaves at most one failure, which names the rule, the command and the cause; and an action whose command does
not run changes nothing else but that it may wake the loop.
-/

namespace ProductionSystem

namespace Param

/-- Does a parameter stand for a value? -/
def StandsFor (bindings : Bindings) : Param → Value → Prop
  | .literal value, other => value = other
  | .variable name, other => bindings.get? name = some other

def isUnbound (bindings : Bindings) : Param → Bool
  | .literal _ => false
  | .variable name => (bindings.get? name).isNone

variable {bindings : Bindings} {param : Param} {params : List Param}

theorem resolve_eq_ok_iff {value : Value} : resolve bindings param = .ok value ↔ param.StandsFor bindings value := by
  cases param with
  | literal other =>
      show Except.ok other = Except.ok value ↔ other = value
      rw [Except.ok.injEq]
  | «variable» name =>
      cases hname : bindings.get? name with
      | none => simp [resolve, StandsFor, hname]
      | some bound => simp [resolve, StandsFor, hname]

theorem resolve_eq_error_iff {cause : ErrorKind} :
    resolve bindings param = .error cause ↔
      param.isUnbound bindings = true ∧ ∃ name, param = .variable name ∧ .unboundVariable name = cause := by
  cases param with
  | literal other => exact ⟨nofun, nofun⟩
  | «variable» name =>
      cases hname : bindings.get? name with
      | none => simp [resolve, isUnbound, hname]
      | some bound => simp [resolve, isUnbound, hname]

theorem resolveAll_cons (param : Param) (params : List Param) :
    resolveAll bindings (param :: params) =
      match resolve bindings param with
      | .error cause => .error cause
      | .ok value =>
        match resolveAll bindings params with
        | .error cause => .error cause
        | .ok values => .ok (value :: values) := by
  rw [resolveAll, List.mapM_cons]
  cases resolve bindings param with
  | error cause => rfl
  | ok value =>
      rw [resolveAll]
      cases params.mapM (resolve bindings) with
      | error cause => rfl
      | ok values => rfl

theorem resolveAll_eq_ok_iff {values : List Value} :
    resolveAll bindings params = .ok values ↔ List.Forall₂ (StandsFor bindings) params values := by
  induction params generalizing values with
  | nil =>
      show Except.ok [] = Except.ok values ↔ _
      rw [List.forall₂_nil_left_iff, Except.ok.injEq, eq_comm]
  | cons param params ih =>
      rw [resolveAll_cons, List.forall₂_cons_left_iff]
      simp only [← resolve_eq_ok_iff, ← ih]
      cases resolve bindings param with
      | error cause => exact ⟨nofun, nofun⟩
      | ok value =>
          cases resolveAll bindings params with
          | error cause => exact ⟨nofun, nofun⟩
          | ok rest => simp [eq_comm]

/-- Parameters stand for nothing if a variable among them is not bound, and the first that is not is the error. -/
theorem resolveAll_eq_error_iff {cause : ErrorKind} :
    resolveAll bindings params = .error cause ↔
      ∃ name, params.find? (isUnbound bindings) = some (.variable name) ∧ .unboundVariable name = cause := by
  induction params with
  | nil => exact ⟨nofun, nofun⟩
  | cons param params ih =>
      rw [resolveAll_cons]
      cases hresolve : resolve bindings param with
      | error other =>
          obtain ⟨hunbound, name, rfl, rfl⟩ := resolve_eq_error_iff.1 hresolve
          rw [List.find?_cons_of_pos hunbound]
          simp
      | ok value =>
          have hbound : ¬param.isUnbound bindings = true := fun hunbound => by
            cases param with
            | literal _ => cases hunbound
            | «variable» name =>
                have hname : bindings.get? name = none := Option.isNone_iff_eq_none.1 hunbound
                rw [resolve, hname] at hresolve
                cases hresolve
          rw [List.find?_cons_of_neg hbound, ← ih]
          cases resolveAll bindings params with
          | error other => rfl
          | ok values => exact ⟨nofun, nofun⟩

end Param

/-- The error that a command ends with when it breaks off. -/
def Abort.cause (command : Command) : Abort → ErrorKind
  | failed cause => cause
  | panicked message => .internal (command.name ++ " panicked: " ++ message.getD "unknown panic")

/-- A command ends with an error exactly if its body breaks off. -/
theorem Command.run_eq (command : Command) (args : List Value) (state : ActionState) :
    command.run args state =
      match (command.body args).run state with
      | (.ok (), after) => (none, after)
      | (.error abort, after) => (some (abort.cause command), after) := by
  unfold run
  cases (command.body args).run state with
  | mk result after =>
      cases result with
      | ok _ => rfl
      | error abort => cases abort <;> rfl

/-- Does a command leave alone what rule is fired? It cannot get at that otherwise than to read it. -/
def Command.KeepsRule (command : Command) : Prop :=
  ∀ args state, (command.run args state).2.firing.rule = state.firing.rule

theorem Builtin.keepsRule (builtin : Builtin) (mode : Mode) : { builtin.command with mode }.KeepsRule := by
  have hsteps : ActionM.Steps fun state after => after.firing.rule = state.firing.rule :=
    { refl := fun _ => rfl
      trans := fun h h' => h'.trans h
      binds := fun _ _ _ => rfl
      queues := fun _ _ => rfl
      makes := fun _ _ _ => rfl
      modifies := fun _ _ _ _ => rfl
      halts := fun _ => rfl
      writes := fun _ _ => rfl }
  intro args state
  rw [Command.state_run]
  exact hsteps.body builtin args state

/-- Something that happens to an action. -/
inductive Happening where
  /-- The loop dispatches it. -/
  | dispatch (engine : Engine) (firing : Firing) (action : Action)
  /-- A worker does the job that was made of it. -/
  | perform (engine : Engine) (job : Ticket × Job)

/-- What becomes of an action when something happens to it. -/
inductive Fate where
  /-- A parameter does not stand for a value. -/
  | unresolved (cause : ErrorKind)
  /-- Its command runs, and fails or not. -/
  | executed (command : Command) (args : List Value) (failure? : Option ErrorKind)
  | handedOver (job : Ticket × Job)
  | turnedAway (cause : ErrorKind)

namespace Fate

/-- Why the action fails, if it does. -/
def cause? : Fate → Option ErrorKind
  | unresolved cause | turnedAway cause => some cause
  | executed _ _ failure? => failure?
  | handedOver _ => none

def handedOver? : Fate → Option (Ticket × Job)
  | handedOver job => some job
  | _ => none

def isExecuted : Fate → Bool
  | executed .. => true
  | _ => false

end Fate

/-- The job that is made of an action. -/
def Engine.jobOf (engine : Engine) (firing : Firing) (command : Command) (args : List Value) : Ticket × Job :=
  (⟨engine.executor.issued, firing.rule⟩, ⟨command, args, { firing with removals := [], onLoop := false }⟩)

namespace Happening

def firing : Happening → Firing
  | dispatch _ firing _ => firing
  | perform _ job => job.2.firing

def command : Happening → Command
  | dispatch _ _ action => action.command
  | perform _ job => job.2.command

/-- The action that the loop dispatches. -/
def action? : Happening → Option Action
  | dispatch _ _ action => some action
  | perform .. => none

/-- The job that a worker does. -/
def performed? : Happening → Option (Ticket × Job)
  | dispatch .. => none
  | perform _ job => some job

def fate : Happening → Fate
  | dispatch engine firing action =>
    match Param.resolveAll firing.bindings action.params with
    | .error cause => .unresolved cause
    | .ok args =>
      match action.command.mode with
      | .sync => .executed action.command args (action.command.run args ⟨firing, engine.workspace⟩).1
      | .async =>
        if engine.executor.pool.accepting then .handedOver (engine.jobOf firing action.command args)
        else .turnedAway .shutdown
  | perform engine job =>
    .executed job.2.command job.2.args (job.2.command.run job.2.args ⟨job.2.firing, engine.workspace⟩).1

/-- The failure that is reported. -/
def report? (happening : Happening) : Option Failure :=
  happening.fate.cause?.map (.of happening.firing.rule happening.command.name)

/-- What is to become of an action. -/
inductive Becomes : Happening → Fate → Prop
  | unresolved {engine : Engine} {firing : Firing} {action : Action} {name : String}
      (hunbound : action.params.find? (Param.isUnbound firing.bindings) = some (.variable name)) :
      Becomes (dispatch engine firing action) (.unresolved (.unboundVariable name))
  | succeeds {engine : Engine} {firing : Firing} {action : Action} {args : List Value} {after : ActionState}
      (hmode : action.command.mode = .sync)
      (hargs : List.Forall₂ (Param.StandsFor firing.bindings) action.params args)
      (hrun : (action.command.body args).run ⟨firing, engine.workspace⟩ = (.ok (), after)) :
      Becomes (dispatch engine firing action) (.executed action.command args none)
  | breaksOff {engine : Engine} {firing : Firing} {action : Action} {args : List Value} {abort : Abort}
      {after : ActionState} (hmode : action.command.mode = .sync)
      (hargs : List.Forall₂ (Param.StandsFor firing.bindings) action.params args)
      (hrun : (action.command.body args).run ⟨firing, engine.workspace⟩ = (.error abort, after)) :
      Becomes (dispatch engine firing action) (.executed action.command args (some (abort.cause action.command)))
  | handedOver {engine : Engine} {firing : Firing} {action : Action} {args : List Value}
      (hmode : action.command.mode = .async)
      (hargs : List.Forall₂ (Param.StandsFor firing.bindings) action.params args)
      (hopen : engine.executor.pool.accepting = true) :
      Becomes (dispatch engine firing action) (.handedOver (engine.jobOf firing action.command args))
  | turnedAway {engine : Engine} {firing : Firing} {action : Action} {args : List Value}
      (hmode : action.command.mode = .async)
      (hargs : List.Forall₂ (Param.StandsFor firing.bindings) action.params args)
      (hclosed : engine.executor.pool.accepting = false) :
      Becomes (dispatch engine firing action) (.turnedAway .shutdown)
  | jobSucceeds {engine : Engine} {job : Ticket × Job} {after : ActionState}
      (hrun : (job.2.command.body job.2.args).run ⟨job.2.firing, engine.workspace⟩ = (.ok (), after)) :
      Becomes (perform engine job) (.executed job.2.command job.2.args none)
  | jobBreaksOff {engine : Engine} {job : Ticket × Job} {abort : Abort} {after : ActionState}
      (hrun : (job.2.command.body job.2.args).run ⟨job.2.firing, engine.workspace⟩ = (.error abort, after)) :
      Becomes (perform engine job) (.executed job.2.command job.2.args (some (abort.cause job.2.command)))

section Fates

variable {engine : Engine} {firing : Firing} {action : Action} {args : List Value}

theorem fate_of_sync (hmode : action.command.mode = .sync)
    (hargs : Param.resolveAll firing.bindings action.params = .ok args) :
    (dispatch engine firing action).fate =
      .executed action.command args (action.command.run args ⟨firing, engine.workspace⟩).1 := by
  simp only [fate, hargs, hmode]

theorem fate_of_async (hmode : action.command.mode = .async)
    (hargs : Param.resolveAll firing.bindings action.params = .ok args) :
    (dispatch engine firing action).fate =
      if engine.executor.pool.accepting then .handedOver (engine.jobOf firing action.command args)
      else .turnedAway .shutdown := by
  simp only [fate, hargs, hmode]

end Fates

/-- What becomes of an action, and nothing else does. -/
theorem becomes_iff {happening : Happening} {fate : Fate} : happening.Becomes fate ↔ happening.fate = fate := by
  constructor
  · intro h
    cases h with
    | unresolved hunbound => rw [Happening.fate, Param.resolveAll_eq_error_iff.2 ⟨_, hunbound, rfl⟩]
    | succeeds hmode hargs hrun | breaksOff hmode hargs hrun =>
        rw [fate_of_sync hmode (Param.resolveAll_eq_ok_iff.2 hargs), Command.run_eq, hrun]
    | handedOver hmode hargs hopen =>
        rw [fate_of_async hmode (Param.resolveAll_eq_ok_iff.2 hargs), if_pos hopen]
    | turnedAway hmode hargs hclosed =>
        rw [fate_of_async hmode (Param.resolveAll_eq_ok_iff.2 hargs), hclosed, if_neg Bool.false_ne_true]
    | jobSucceeds hrun | jobBreaksOff hrun => simp only [Happening.fate, Command.run_eq, hrun]
  · rintro rfl
    cases happening with
    | dispatch engine firing action =>
        cases hargs : Param.resolveAll firing.bindings action.params with
        | error cause =>
            obtain ⟨name, hunbound, rfl⟩ := Param.resolveAll_eq_error_iff.1 hargs
            rw [Happening.fate, hargs]
            exact .unresolved hunbound
        | ok args =>
            have hstand := Param.resolveAll_eq_ok_iff.1 hargs
            cases hmode : action.command.mode with
            | sync =>
                rw [fate_of_sync hmode hargs, Command.run_eq]
                cases hrun : (action.command.body args).run ⟨firing, engine.workspace⟩ with
                | mk result after =>
                    cases result with
                    | ok _ => exact .succeeds hmode hstand hrun
                    | error abort => exact .breaksOff hmode hstand hrun
            | async =>
                rw [fate_of_async hmode hargs]
                split
                · rename_i hopen
                  exact .handedOver hmode hstand hopen
                · rename_i hclosed
                  exact .turnedAway hmode hstand (Bool.eq_false_iff.2 hclosed)
    | perform engine job =>
        have hfate : (perform engine job).fate = .executed job.2.command job.2.args
            (job.2.command.run job.2.args ⟨job.2.firing, engine.workspace⟩).1 := rfl
        rw [hfate, Command.run_eq]
        cases hrun : (job.2.command.body job.2.args).run ⟨job.2.firing, engine.workspace⟩ with
        | mk result after =>
            cases result with
            | ok _ => exact .jobSucceeds hrun
            | error abort => exact .jobBreaksOff hrun

/-- An action that is executed when it is dispatched. -/
theorem of_fate_eq_executed {engine : Engine} {firing : Firing} {action : Action} {command : Command}
    {args : List Value} {failure? : Option ErrorKind}
    (h : (dispatch engine firing action).fate = .executed command args failure?) :
    action.command.mode = .sync ∧ action.command = command ∧
      Param.resolveAll firing.bindings action.params = .ok args ∧
      failure? = (command.run args ⟨firing, engine.workspace⟩).1 := by
  cases becomes_iff.2 h with
  | succeeds hmode hargs hrun | breaksOff hmode hargs hrun =>
      refine ⟨hmode, rfl, Param.resolveAll_eq_ok_iff.2 hargs, ?_⟩
      rw [Command.run_eq, hrun]

/-- A job that is handed over is the one that is made of the action. -/
theorem of_handedOver? {happening : Happening} {job : Ticket × Job} (h : happening.fate.handedOver? = some job) :
    ∃ engine firing action args, happening = dispatch engine firing action ∧
      job = engine.jobOf firing action.command args := by
  cases hfate : happening.fate with
  | unresolved _ | executed _ _ _ | turnedAway _ =>
      rw [hfate] at h
      cases h
  | handedOver other =>
      rw [hfate] at h
      obtain rfl := Option.some.inj h
      cases becomes_iff.2 hfate with
      | handedOver hmode hargs hopen => exact ⟨_, _, _, _, rfl, rfl⟩

end Happening

namespace Engine

variable (engine : Engine) (firing : Firing) (action : Action) (command : Command) (args : List Value)

theorem failures_exec :
    (engine.exec command args firing).2.failures.toList =
      engine.failures.toList ++
        ((command.run args ⟨firing, engine.workspace⟩).1.map (.of firing.rule command.name)).toList := by
  unfold exec
  dsimp only
  cases (command.run args ⟨firing, engine.workspace⟩).1 with
  | none => exact (List.append_nil _).symm
  | some cause => exact Array.toList_push

/-- An action that is handed over: the job is queued, or turned away and reported, which wakes the loop. -/
theorem handOver_eq :
    engine.handOver command args firing =
      let executor := { engine.executor with issued := engine.executor.issued + 1 }
      let tickets := engine.executor.tickets ++ [(engine.jobOf firing command args).1]
      if engine.executor.pool.accepting then
        let queue := engine.executor.pool.queue ++ [engine.jobOf firing command args]
        { engine with executor := { executor with pool := { engine.executor.pool with queue }, tickets } }
      else
        ({ engine with
            executor := { executor with tickets := tickets.erase (engine.jobOf firing command args).1 }
            workspace := { engine.workspace with store := engine.store.wake } } : Engine).report
          firing.rule command.name .shutdown := by
  unfold handOver Executor.submit WorkerPool.submit
  split
  · rfl
  · rfl

theorem rule_exec (h : command.KeepsRule) : (engine.exec command args firing).1.rule = firing.rule := by
  have hrule := h args ⟨firing, engine.workspace⟩
  unfold exec
  dsimp only
  split
  · exact hrule
  · exact hrule

theorem rule_dispatch (h : action.command.KeepsRule) : (dispatch firing engine action).1.rule = firing.rule := by
  unfold dispatch
  split
  · rfl
  · split
    · exact engine.rule_exec firing action.command _ h
    · rfl

/-- A command that runs at once leaves what it did, whether it fails or not, and the facts it queued are removed. -/
theorem dispatch_of_executed {failure? : Option ErrorKind}
    (h : (Happening.dispatch engine firing action).fate = .executed command args failure?) :
    let ran := (command.run args ⟨firing, engine.workspace⟩).2
    (dispatch firing engine action).1 = { ran.firing with removals := [] } ∧
      (dispatch firing engine action).2.workspace =
        { ran.workspace with
          store := ran.firing.removals.foldl (fun store ref => (store.remove ref).2) ran.workspace.store } := by
  obtain ⟨hmode, rfl, hargs, -⟩ := Happening.of_fate_eq_executed h
  simp only [dispatch, hargs, hmode, exec]
  split
  · exact ⟨rfl, rfl⟩
  · exact ⟨rfl, rfl⟩

/-- What a dispatched action leaves behind is what its fate says: the failures, the jobs, and if its command does not
run, nothing else but that the loop may be woken. -/
theorem dispatch_meets_fate :
    let fate := (Happening.dispatch engine firing action).fate
    let after := dispatch firing engine action
    after.2.failures.toList =
        engine.failures.toList ++ (Happening.dispatch engine firing action).report?.toList ∧
      after.2.executor.pool.queue = engine.executor.pool.queue ++ fate.handedOver?.toList ∧
      (fate.isExecuted = false → after.1 = firing ∧
        (after.2.workspace = engine.workspace ∨
          after.2.workspace = { engine.workspace with store := engine.store.wake })) := by
  intro fate after
  cases hargs : Param.resolveAll firing.bindings action.params with
  | error cause =>
      have hfate : fate = .unresolved cause := by simp only [fate, Happening.fate, hargs]
      have hafter : after = (firing, engine.report firing.rule action.command.name cause) := by
        simp only [after, dispatch, hargs]
      rw [Happening.report?, show (Happening.dispatch engine firing action).fate = _ from hfate, hfate, hafter]
      exact ⟨Array.toList_push, (List.append_nil _).symm, fun _ => ⟨rfl, .inl rfl⟩⟩
  | ok args =>
      cases hmode : action.command.mode with
      | sync =>
          have hfate : fate = .executed action.command args (action.command.run args ⟨firing, engine.workspace⟩).1 :=
            Happening.fate_of_sync hmode hargs
          have hafter : after = applyRemovals (engine.exec action.command args firing).1
              (engine.exec action.command args firing).2 := by
            simp only [after, dispatch, hargs, hmode]
          rw [Happening.report?, show (Happening.dispatch engine firing action).fate = _ from hfate, hfate, hafter]
          refine ⟨engine.failures_exec firing action.command args, ?_, nofun⟩
          rw [show Fate.handedOver? (.executed _ _ _) = none from rfl, Option.toList_none, List.append_nil]
          exact congrArg (·.pool.queue) (executor_exec engine action.command args firing)
      | async =>
          have hfate : fate = if engine.executor.pool.accepting then .handedOver (engine.jobOf firing action.command args)
              else .turnedAway .shutdown := Happening.fate_of_async hmode hargs
          have hafter : after = (firing, engine.handOver action.command args firing) := by
            simp only [after, dispatch, hargs, hmode]
          rw [handOver_eq] at hafter
          rw [Happening.report?, hafter]
          simp only [fate, hfate]
          split
          · exact ⟨(List.append_nil _).symm, rfl, fun _ => ⟨trivial, .inl rfl⟩⟩
          · exact ⟨Array.toList_push, (List.append_nil _).symm, fun _ => ⟨trivial, .inr rfl⟩⟩

end Engine

end ProductionSystem
