import ProductionSystem.Proofs.CommandBodies
import ProductionSystem.Proofs.EngineFrame
import ProductionSystem.Proofs.ParallelMatch

/-!
The lines that actions write. A command gets at them through the workspace; a built-in one puts new lines behind
the old ones, or leaves them alone. All that an engine does besides running commands leaves them alone, so with
such commands lines are only ever added.
-/

namespace ProductionSystem

/-- Are the lines of a workspace those of another one and perhaps more behind them? -/
def Workspace.Extended (workspace after : Workspace) : Prop := workspace.lines.toList <+: after.lines.toList

theorem Workspace.Extended.trans {workspace middle after : Workspace} (h : workspace.Extended middle)
    (h' : middle.Extended after) : workspace.Extended after := List.IsPrefix.trans h h'

theorem Workspace.Extended.of_lines {workspace after : Workspace} (h : after.lines = workspace.lines) :
    workspace.Extended after :=
  show workspace.lines.toList <+: after.lines.toList from h ▸ List.prefix_rfl

/-- Does a command, however it ends, only add lines? -/
def Command.AppendsLines (command : Command) : Prop :=
  ∀ (args : List Value) (state : ActionState), state.workspace.Extended (command.run args state).2.workspace

theorem Builtin.appendsLines (builtin : Builtin) : builtin.command.AppendsLines := by
  have hsteps : ActionM.Steps fun state after => state.workspace.Extended after.workspace :=
    { refl := fun _ => .of_lines rfl
      trans := Workspace.Extended.trans
      binds := fun _ _ _ => .of_lines rfl
      queues := fun _ _ => .of_lines rfl
      makes := fun _ _ _ => .of_lines rfl
      modifies := fun _ _ _ _ => .of_lines rfl
      halts := fun _ => .of_lines rfl
      writes := fun state line => by
        show state.workspace.lines.toList <+: (state.workspace.lines.push line).toList
        rw [Array.toList_push]
        exact List.prefix_append _ _ }
  intro args state
  rw [Command.state_run]
  exact hsteps.body builtin args state

namespace Engine

/-- The commands that an engine can come to run as it is: those of the rules that it matches, of any that its
matchers had queued before, and of the jobs of its workers. -/
def commands (engine : Engine) : List Command :=
  let matched := engine.rules ++ engine.matchers.toList.flatMap fun pool => pool.queue.map (·.2)
  (matched.flatMap fun source => source.rule.actions.map Action.command) ++
    engine.executor.pool.queue.map (·.2.command)

variable {engine : Engine}

theorem mem_commands_of_job {job : Ticket × Job} (hjob : job ∈ engine.executor.pool.queue) :
    job.2.command ∈ engine.commands := List.mem_append_right _ (List.mem_map_of_mem hjob)

theorem mem_matchAll_of_choose {found : Match} (hchoose : engine.choose = some found) : found ∈ engine.matchAll := by
  have hhead := List.mem_of_mem_head? hchoose
  unfold Conflict.contenders at hhead
  split at hhead
  · exact List.mem_of_mem_eraseP hhead
  · exact hhead

theorem mem_commands_of_choose {found : Match} (hchoose : engine.choose = some found) {action : Action}
    (haction : action ∈ found.source.rule.actions) : action.command ∈ engine.commands := by
  have hmem := mem_matchAll_of_choose hchoose
  refine List.mem_append_left _ (List.mem_flatMap.2 ⟨found.source, ?_, List.mem_map_of_mem haction⟩)
  rcases Match.source_mem_of_mem_allBy hmem with hrule | ⟨pool, hpool, hqueued⟩
  · exact List.mem_append_left _ hrule
  · exact List.mem_append_right _ (List.mem_flatMap.2 ⟨pool, Option.mem_toList.2 hpool, hqueued⟩)

/-- Running commands that it already can come to run gives an engine no new ones. -/
theorem commands_subset_of_worked {after : Engine} (h : engine.Worked after)
    (hqueue : ∀ job ∈ after.executor.pool.queue, job.2.command ∈ engine.commands) :
    after.commands ⊆ engine.commands := by
  intro command hcommand
  rcases List.mem_append.1 hcommand with hrule | hjob
  · rw [h.rules_eq, h.matchers_eq] at hrule
    exact List.mem_append_left _ hrule
  · obtain ⟨job, hqueued, rfl⟩ := List.mem_map.1 hjob
    exact hqueue job hqueued

section Extended

theorem extended_exec {command : Command} (h : command.AppendsLines) (args : List Value) (firing : Firing) :
    engine.workspace.Extended (engine.exec command args firing).2.workspace := by
  have hrun := h args ⟨firing, engine.workspace⟩
  unfold exec
  dsimp only
  split
  · exact hrun
  · exact hrun

theorem extended_handOver (command : Command) (args : List Value) (firing : Firing) :
    engine.workspace.Extended (engine.handOver command args firing).workspace := by
  refine .of_lines ?_
  unfold handOver
  dsimp only
  split
  · rfl
  · rfl

theorem extended_dispatch {action : Action} (h : action.command.AppendsLines) (firing : Firing) :
    engine.workspace.Extended (dispatch firing engine action).2.workspace := by
  unfold dispatch
  cases Param.resolveAll firing.bindings action.params with
  | error cause => exact .of_lines rfl
  | ok args =>
      cases action.command.mode with
      | sync => exact extended_exec h args firing
      | async => exact extended_handOver action.command args firing

theorem extended_fire {found : Match}
    (h : ∀ action ∈ found.source.rule.actions, action.command.AppendsLines) :
    engine.workspace.Extended (engine.fire found).workspace := by
  refine List.foldlRecOn (motive := fun state : Firing × Engine => engine.workspace.Extended state.2.workspace)
    found.source.rule.actions _ (.of_lines rfl) fun state hbefore action haction => ?_
  exact hbefore.trans (extended_dispatch (h action haction) state.1)

theorem extended_settle (h : ∀ job ∈ engine.executor.pool.queue, job.2.command.AppendsLines) :
    engine.workspace.Extended engine.settle.workspace := by
  let begun : Engine := { engine with executor := engine.executor.takeAll.2 }
  have hbegun : engine.workspace.Extended begun.workspace := .of_lines rfl
  refine List.foldlRecOn (motive := fun after => engine.workspace.Extended after.workspace)
    engine.executor.pool.queue perform hbegun fun middle hbefore job hjob => ?_
  have hperform : middle.workspace.Extended (middle.perform job).workspace :=
    extended_exec (h job hjob) job.2.args job.2.firing
  exact hbefore.trans hperform

end Extended

/-- Has an engine only lines added to those of a workspace, and will it only add more? -/
structure Adds (workspace : Workspace) (engine : Engine) : Prop where
  extended : workspace.Extended engine.workspace
  appends : ∀ command ∈ engine.commands, command.AppendsLines

namespace Adds

variable {workspace : Workspace}

theorem worked {after : Engine} (h : engine.Adds workspace) (hworked : engine.Worked after)
    (hqueue : ∀ job ∈ after.executor.pool.queue, job.2.command ∈ engine.commands)
    (hlines : engine.workspace.Extended after.workspace) : after.Adds workspace where
  extended := h.extended.trans hlines
  appends := fun command hcommand => h.appends command (commands_subset_of_worked hworked hqueue hcommand)

theorem drain (h : engine.Adds workspace) : engine.drain.Adds workspace := ⟨h.extended, h.appends⟩

theorem settle (h : engine.Adds workspace) : engine.settle.Adds workspace := by
  refine h.worked (.settle engine) (fun job hjob => ?_) (extended_settle fun job hjob => ?_)
  · rw [queue_settle] at hjob
    cases hjob
  · exact h.appends _ (mem_commands_of_job hjob)

theorem fire (h : engine.Adds workspace) {found : Match} (hchoose : engine.choose = some found) :
    (engine.fire found).Adds workspace := by
  have hbegun : Adds workspace { engine with lastFired := some found.source, firings := engine.firings + 1 } :=
    ⟨h.extended, h.appends⟩
  have happends : ∀ action ∈ found.source.rule.actions, action.command.AppendsLines :=
    fun action haction => h.appends _ (mem_commands_of_choose hchoose haction)
  have hlines : engine.workspace.Extended (engine.fire found).workspace := extended_fire happends
  refine hbegun.worked (.fire engine found) (fun job hjob => ?_) hlines
  rcases of_mem_queue_fire hjob with hqueued | ⟨action, haction, -, hcommand⟩
  · exact mem_commands_of_job hqueued
  · rw [hcommand]
    exact mem_commands_of_choose hchoose haction

end Adds

end Engine

theorem Workspace.lines_receive (workspace : Workspace) (signal : Signal) :
    (workspace.receive signal).lines = workspace.lines := by
  cases signal with
  | make type overrides => rfl
  | wake => rfl
  | halt => rfl

theorem Workspace.lines_await (workspace : Workspace) (seen : UInt64) (deadline : Option Nat)
    (arrivals : List Arrival) : (workspace.await seen deadline arrivals).workspace.lines = workspace.lines :=
  await_induction (P := fun later => later.lines = workspace.lines)
    (fun arrival _ later h => (later.lines_receive arrival.signal).trans h) rfl

namespace Run

variable {workspace : Workspace} {run : Run}

theorem adds_listened (h : run.engine.Adds workspace) (timeout : Nat) :
    (run.listened timeout).engine.Adds workspace := by
  have hwait := Workspace.Extended.of_lines
    (run.engine.workspace.lines_await run.engine.store.epoch (some (run.clock + timeout)) run.arrivals)
  exact ⟨h.extended.trans hwait, h.appends⟩

theorem adds_idle (h : run.engine.Adds workspace) : run.idle.toRun.engine.Adds workspace :=
  of_idle (P := fun later => later.engine.Adds workspace) (fun _ timeout h => adds_listened h timeout)
    (fun _ h => h.settle) (fun _ h => h.drain) h

theorem adds_cycle (h : run.engine.Adds workspace) : run.cycle.toRun.engine.Adds workspace := by
  cases hchoose : run.engine.drain.choose with
  | none =>
      rw [cycle_of_none hchoose]
      exact @adds_idle workspace { run with engine := run.engine.drain } h.drain
  | some found =>
      rw [cycle_of_some hchoose]
      exact h.drain.fire hchoose

theorem adds_close (h : run.engine.Adds workspace) (outcome : Outcome) : (run.close outcome).2.Adds workspace := by
  cases outcome with
  | stepLimit => exact ⟨h.extended, h.appends⟩
  | halted => exact ⟨h.settle.extended, h.settle.appends⟩
  | quiescent => exact ⟨h.settle.extended, h.settle.appends⟩

end Run

end ProductionSystem
