import ProductionSystem.Proofs.Scripts
import ProductionSystem.Proofs.WrittenLines

/-!
The built-in commands as scripts. A command that only binds a variable or queues a removal makes no call; each
other one makes a single call. With nothing between the sections of the call, the script does what the command does.
-/

namespace ProductionSystem

/-- Does a script, with nothing between its calls, do what the command does? -/
def Reading.Fits (reading : Reading) (command : Command) : Prop :=
  ∀ args firing workspace,
    (reading command args firing).finish workspace =
      let (failure, after) := command.run args ⟨firing, workspace⟩
      ((failure, after.firing), after.workspace)

namespace ActionM

variable {α β : Type}

theorem run_onStore (f : Store → Except ErrorKind α × Store) (firing : Firing) (workspace : Workspace) :
    (onStore f).run ⟨firing, workspace⟩ =
      ((f workspace.store).1.mapError .failed, ⟨firing, workspace.withStore (f workspace.store).2⟩) := by
  show (ofExcept (f workspace.store).1).run ⟨firing, workspace.withStore (f workspace.store).2⟩ = _
  cases (f workspace.store).1 with
  | ok _ | error _ => rfl

theorem run_discard (program : ActionM α) (state : ActionState) :
    (discard program : ActionM PUnit).run state =
      ((program.run state).1.map fun _ => (), (program.run state).2) := by
  have hbind : (discard program : ActionM PUnit) = program >>= fun _ => Pure.pure () := rfl
  rw [hbind, run_bind]
  cases program.run state with
  | mk result next => cases result <;> rfl

/-- Does a program neither read nor change the workspace? -/
def KeepsToFiring (program : ActionM α) : Prop :=
  ∀ firing, ∃ result after, ∀ workspace, program.run ⟨firing, workspace⟩ = (result, ⟨after, workspace⟩)

namespace KeepsToFiring

theorem pure (a : α) : KeepsToFiring (Pure.pure a : ActionM α) := fun firing => ⟨_, firing, fun _ => rfl⟩

theorem fail (cause : ErrorKind) : KeepsToFiring (ActionM.fail cause : ActionM α) :=
  fun firing => ⟨_, firing, fun _ => rfl⟩

theorem bind {program : ActionM α} {rest : α → ActionM β} (h : program.KeepsToFiring)
    (hrest : ∀ a, (rest a).KeepsToFiring) : KeepsToFiring (program >>= rest) := by
  intro firing
  obtain ⟨result, middle, hprogram⟩ := h firing
  cases result with
  | error abort => exact ⟨.error abort, middle, fun workspace => by rw [run_bind, hprogram]⟩
  | ok a =>
      obtain ⟨last, after, hlast⟩ := hrest a middle
      exact ⟨last, after, fun workspace => by rw [run_bind, hprogram]; exact hlast workspace⟩

theorem decoded (result : Except ArgumentProblem α) : KeepsToFiring (ActionM.decoded result) := by
  cases result with
  | ok a => exact pure a
  | error problem => exact fail _

theorem factAt (index : Nat) : KeepsToFiring (ActionM.factAt index) := by
  intro firing
  cases hfact : firing.facts[index]? with
  | some ref => exact ⟨.ok ref, firing, fun workspace => by rw [run_factAt]; simp only [hfact]⟩
  | none =>
      exact ⟨.error (.failed (.index index firing.facts.length)), firing, fun workspace => by
        rw [run_factAt]; simp only [hfact]⟩

end KeepsToFiring

end ActionM

namespace Builtin

/-- The error of a result, if it is one. -/
def failure? {α : Type} : Except ErrorKind α → Option ErrorKind
  | .ok _ => none
  | .error cause => some cause

/-- The script of a command that makes no call. -/
def alone (builtin : Builtin) (args : List Value) (firing : Firing) : Script Ended :=
  let (failure, after) := builtin.command.run args ⟨firing, default⟩
  .done (failure, after.firing)

/-- The calls of a built-in command. -/
def script (builtin : Builtin) (args : List Value) (firing : Firing) : Script Ended :=
  match builtin, args with
  | halt, [] => .halt (.done (none, firing))
  | make, type :: rest =>
    match Arguments.name make.name type, Arguments.fields make.name rest with
    | .ok type, .ok overrides => .make type overrides fun result => .done (failure? result, firing)
    | _, _ => make.alone args firing
  | modify, index :: rest =>
    match Arguments.index modify.name index, Arguments.fields modify.name rest with
    | .ok index, .ok values =>
      match firing.facts[index]? with
      | some ref => .modify ref values fun result => .done (failure? result, firing)
      | none => modify.alone args firing
    | _, _ => modify.alone args firing
  | write, args => .write (line args) (.done (none, firing))
  | builtin, args => builtin.alone args firing

/-- The result of a command, the firing and the workspace that it leaves behind. -/
def outcome (builtin : Builtin) (args : List Value) (firing : Firing) (workspace : Workspace) : Ended × Workspace :=
  let (failure, after) := builtin.command.run args ⟨firing, workspace⟩
  ((failure, after.firing), after.workspace)

/-- A command that keeps to its firing needs no call. -/
theorem finish_alone (builtin : Builtin) (args : List Value) (firing : Firing) (workspace : Workspace)
    (h : (builtin.body args).KeepsToFiring) :
    (builtin.alone args firing).finish workspace = builtin.outcome args firing workspace := by
  obtain ⟨result, after, hrun⟩ := h firing
  have hbody : ∀ workspace, ((builtin.command.body args).run ⟨firing, workspace⟩) = (result, ⟨after, workspace⟩) := hrun
  simp only [alone, outcome, Command.run, hbody]
  cases result with
  | ok _ => rfl
  | error abort => cases abort <;> rfl

theorem keepsToFiring_removeAll (args : List Value) : (removeAll args).KeepsToFiring := by
  induction args with
  | nil => exact .pure ()
  | cons arg args ih =>
      refine (ActionM.KeepsToFiring.decoded _).bind fun index => ActionM.KeepsToFiring.bind ?_ fun _ => ih
      refine (ActionM.KeepsToFiring.factAt index).bind fun ref firing => ?_
      cases honLoop : firing.onLoop with
      | true =>
          refine ⟨.ok (), { firing with removals := firing.removals ++ [ref] }, fun workspace => ?_⟩
          rw [ActionM.run_bind, ActionM.run_get]
          simp only [honLoop, if_true]
          rfl
      | false =>
          refine ⟨.error (.failed (.asyncRemoval index)), firing, fun workspace => ?_⟩
          rw [ActionM.run_bind, ActionM.run_get]
          simp only [honLoop]
          rfl

theorem finish_make (type : Value) (rest : List Value) (firing : Firing) (workspace : Workspace) :
    (make.script (type :: rest) firing).finish workspace = make.outcome (type :: rest) firing workspace := by
  have hbody : make.command.body (type :: rest) =
      ActionM.decoded (Arguments.name make.name type) >>= fun type =>
        ActionM.decoded (Arguments.fields make.name rest) >>= fun overrides =>
          discard (ActionM.createFact type overrides) := rfl
  cases hname : Arguments.name make.name type with
  | error problem =>
      rw [hname] at hbody
      simp only [script, hname, alone, outcome, Command.run, hbody]
      rfl
  | ok name =>
      cases hfields : Arguments.fields make.name rest with
      | error problem =>
          rw [hname, hfields] at hbody
          simp only [script, hname, hfields, alone, outcome, Command.run, hbody]
          rfl
      | ok overrides =>
          rw [hname, hfields] at hbody
          have hrun : (make.command.body (type :: rest)).run ⟨firing, workspace⟩ =
              (discard (ActionM.createFact name overrides)).run ⟨firing, workspace⟩ := by rw [hbody]; rfl
          have hmake := ActionM.run_onStore (fun store => store.make name overrides) firing workspace
          rw [ActionM.run_discard, ActionM.createFact, hmake] at hrun
          simp only [script, hname, hfields, outcome, Command.run, hrun, Script.finish]
          cases (workspace.store.make name overrides).1 with
          | ok _ | error _ => rfl

theorem finish_modify (index : Value) (rest : List Value) (firing : Firing) (workspace : Workspace) :
    (modify.script (index :: rest) firing).finish workspace = modify.outcome (index :: rest) firing workspace := by
  have hbody : modify.command.body (index :: rest) =
      ActionM.decoded (Arguments.index modify.name index) >>= fun index =>
        ActionM.decoded (Arguments.fields modify.name rest) >>= fun values =>
          ActionM.modifyMatched index values := rfl
  cases hindex : Arguments.index modify.name index with
  | error problem =>
      rw [hindex] at hbody
      simp only [script, hindex, alone, outcome, Command.run, hbody]
      rfl
  | ok position =>
      cases hfields : Arguments.fields modify.name rest with
      | error problem =>
          rw [hindex, hfields] at hbody
          simp only [script, hindex, hfields, alone, outcome, Command.run, hbody]
          rfl
      | ok values =>
          rw [hindex, hfields] at hbody
          have hrun (workspace : Workspace) : (modify.command.body (index :: rest)).run ⟨firing, workspace⟩ =
              (ActionM.modifyMatched position values).run ⟨firing, workspace⟩ := by rw [hbody]; rfl
          cases hfact : firing.facts[position]? with
          | none =>
              have hfail (workspace : Workspace) : (ActionM.modifyMatched position values).run ⟨firing, workspace⟩ =
                  (.error (.failed (.index position firing.facts.length)), ⟨firing, workspace⟩) := by
                simp only [ActionM.run_modifyMatched, hfact]
              simp only [script, hindex, hfields, hfact, alone, outcome, Command.run, hrun, hfail]
              rfl
          | some ref =>
              have hset := ActionM.run_onStore (fun store => store.setMany ref values) firing workspace
              have hmodify : (ActionM.modifyMatched position values).run ⟨firing, workspace⟩ =
                  (ActionM.onStore fun store => store.setMany ref values).run ⟨firing, workspace⟩ := by
                simp only [ActionM.run_modifyMatched, hfact]
              simp only [script, hindex, hfields, hfact, outcome, Command.run, hrun, hmodify, hset, Script.finish]
              cases (workspace.store.setMany ref values).1 with
              | ok _ | error _ => rfl

theorem finish_script (builtin : Builtin) (args : List Value) (firing : Firing) (workspace : Workspace) :
    (builtin.script args firing).finish workspace = builtin.outcome args firing workspace := by
  cases builtin with
  | bind =>
      match args with
      | [target, value] =>
          have hbody : bind.command.body [target, value] =
              ActionM.decoded (Arguments.name bind.name target) >>= fun target => ActionM.bind target value := rfl
          cases hname : Arguments.name bind.name target with
          | error _ | ok _ =>
              rw [hname] at hbody
              simp only [script, alone, outcome, Command.run, hbody]
              rfl
      | [] | [_] | _ :: _ :: _ :: _ => rfl
  | halt =>
      match args with
      | [] | _ :: _ => rfl
  | make =>
      match args with
      | [] => rfl
      | type :: rest => exact finish_make type rest firing workspace
  | modify =>
      match args with
      | [] => rfl
      | index :: rest => exact finish_modify index rest firing workspace
  | remove =>
      match args with
      | [] => rfl
      | arg :: args => exact finish_alone _ _ _ _ (keepsToFiring_removeAll (arg :: args))
  | write => rfl

/-- Reads commands by the names of the built-in ones. -/
def reading : Reading := fun command args firing =>
  match all.find? (·.name = command.name) with
  | some builtin => builtin.script args firing
  | none => .done (none, firing)

theorem reading_command (builtin : Builtin) (mode : Mode) : reading { builtin.command with mode } = builtin.script := by
  cases builtin <;> rfl

theorem fits_reading (builtin : Builtin) (mode : Mode) : reading.Fits { builtin.command with mode } := by
  intro args firing workspace
  rw [reading_command]
  exact finish_script builtin args firing workspace

end Builtin

end ProductionSystem
