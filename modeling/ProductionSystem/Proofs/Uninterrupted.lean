import ProductionSystem.Proofs.BuiltinScripts
import ProductionSystem.Proofs.EnsembleAccounts

/-!
Threads that nothing interrupts. Where no other thread comes between the sections of a firing, what the loop comes to
is the firing of the engine, and where none comes between those of a job, what the worker comes to is the job of
the engine. So what the engine does with whole firings and jobs is one of the things that an ensemble can do.
-/

namespace ProductionSystem

namespace Engine

/-- After a command: a failure is reported. -/
def conclude (engine : Engine) (rule command : String) : Option ErrorKind → Engine
  | none => engine
  | some cause => engine.report rule command cause

theorem exec_eq {reading : Reading} {command : Command} (hfits : reading.Fits command) (engine : Engine)
    (args : List Value) (firing : Firing) :
    engine.exec command args firing =
      let ((failure, after), workspace) := (reading command args firing).finish engine.workspace
      (after, conclude { engine with workspace } firing.rule command.name failure) := by
  rw [hfits args firing engine.workspace, exec]
  dsimp only
  split
  · rename_i hfailure
    rw [hfailure]
    rfl
  · rename_i hfailure
    rw [hfailure]
    rfl

/-- A job does not depend on the jobs that are queued. -/
theorem perform_withQueue (engine : Engine) (job : Ticket × Job) (queue : List (Ticket × Job)) :
    let withQueue (engine : Engine) : Engine :=
      { engine with executor := { engine.executor with pool := { engine.executor.pool with queue } } }
    (withQueue engine).perform job = withQueue (engine.perform job) := by
  intro withQueue
  simp only [perform, exec, withQueue]
  split <;> rfl

/-- The workers may take the jobs one by one. -/
theorem settle_of_queue_eq_cons {engine : Engine} {job : Ticket × Job} {queue : List (Ticket × Job)}
    (hqueue : engine.executor.pool.queue = job :: queue) :
    engine.settle =
      (perform { engine with executor := { engine.executor with pool := { engine.executor.pool with queue } } }
        job).settle := by
  have hleft := perform_withQueue engine job queue
  have hnone := perform_withQueue engine job []
  dsimp only at hleft hnone
  rw [hleft]
  simp only [settle, Executor.takeAll, WorkerPool.takeAll, hqueue, List.foldl_cons]
  rw [hnone]

end Engine

/-- The engine after a job that ended with the given result, when the ticket is back. -/
def Engine.afterJob (engine : Engine) (entry : Ticket × Job) (result : Ended × Workspace) : Engine :=
  let ((failure, _), workspace) := result
  let engine := Engine.conclude { engine with workspace } entry.2.firing.rule entry.2.command.name failure
  let (executor, store) := engine.executor.release engine.store entry.1
  { engine.withStore store with executor }

theorem Engine.perform_eq {reading : Reading} {entry : Ticket × Job} (hfits : reading.Fits entry.2.command)
    (engine : Engine) :
    engine.perform entry =
      engine.afterJob entry ((reading entry.2.command entry.2.args entry.2.firing).finish engine.workspace) := by
  rw [perform, exec_eq hfits]
  rfl

/-- The loop after a command that ended with the given result. -/
def Machine.conclude (machine : Machine) (command : Command) (firing : Firing) (actions : List Action)
    (result : Ended × Workspace) : Machine :=
  let ((failure, after), workspace) := result
  let (next, engine) := Engine.applyRemovals after
    (Engine.conclude { machine.engine with workspace } firing.rule command.name failure)
  { machine with engine, point := .act next actions }

/-- Outside firings and match phases the loop changes the engine, and where it stands. -/
theorem Machine.exists_loop_eq (machine : Machine) (hacting : machine.point.isActing = false)
    (hmatching : machine.point ≠ .matching) :
    ∃ engine point, machine.loop = { machine with engine, point } := by
  obtain ⟨engine, point, limit, fired, taken, spent⟩ := machine
  cases point with
  | act _ _ => cases hacting
  | matching => exact (hmatching rfl).elim
  | between _ | drain | readEpoch | lookForFacts _ | lookForHalt _ | listen _ | lookForHaltAgain
  | countTicketsAgain => exact ⟨_, _, rfl⟩
  | start | countTickets _ =>
      simp only [loop]
      split
      · exact ⟨_, _, rfl⟩
      · split <;> exact ⟨_, _, rfl⟩
  | wait _ =>
      simp only [loop]
      split <;> exact ⟨_, _, rfl⟩
  | close outcome =>
      cases outcome with
      | stepLimit => exact ⟨_, _, rfl⟩
      | halted | quiescent =>
          simp only [loop]
          split <;> exact ⟨_, _, rfl⟩

namespace Ensemble

/-- The loop, as it is seen when nothing comes between its sections. -/
def machine (ensemble : Ensemble) : Machine where
  engine := ensemble.engine
  point := ensemble.point
  limit := ensemble.limit
  fired := ensemble.fired

/-- Is the loop between two deeds? -/
structure Ready (ensemble : Ensemble) : Prop where
  deed : ensemble.deed = .nothing
  calling : ensemble.floor.calling = []
  refused : ensemble.floor.refused = []

/-- Can turns take the loop where it is seen so, and between two deeds, with these jobs at work? -/
def Reaches (reading : Reading) (ensemble : Ensemble) (machine : Machine) (running : List (Running Job Progress)) :
    Prop :=
  ∃ turns, (ensemble.run reading turns).machine = machine ∧ (ensemble.run reading turns).Ready ∧
    (ensemble.run reading turns).floor.running = running

variable {reading : Reading} {ensemble : Ensemble} {machine : Machine} {running : List (Running Job Progress)}

namespace Reaches

theorem of_step (turn : Turn) (h : (ensemble.step reading turn).Reaches reading machine running) :
    ensemble.Reaches reading machine running := by
  obtain ⟨turns, hturns⟩ := h
  exact ⟨turn :: turns, hturns⟩

theorem trans {later : Machine} {last : List (Running Job Progress)} (h : ensemble.Reaches reading machine running)
    (hlater : ∀ between : Ensemble, between.machine = machine → between.Ready → between.floor.running = running →
      between.Reaches reading later last) : ensemble.Reaches reading later last := by
  obtain ⟨turns, hmachine, hready, hrunning⟩ := h
  obtain ⟨more, hmore⟩ := hlater _ hmachine hready hrunning
  exact ⟨turns ++ more, by rw [run_append]; exact hmore⟩

end Reaches

section Loop

variable {firing : Firing} {actions : List Action}

/-- The loop brings a command to its end, from wherever its thread stands. -/
theorem reaches_of_running {command : Command} {thread : Thread Ended} (hpoint : ensemble.point = .act firing actions)
    (hdeed : ensemble.deed = .running command thread) (hcalling : ensemble.floor.calling = [])
    (hrefused : ensemble.floor.refused = []) :
    ensemble.Reaches reading
      (ensemble.machine.conclude command firing actions (thread.finish ensemble.engine.workspace))
      ensemble.floor.running := by
  -- the induction is on what the thread still has to do, for all states of the rest
  have hrun := Thread.induction_to_end ensemble.log.lowered (P := fun thread workspace =>
    ∀ before : Ensemble, before.engine.workspace = workspace → before.log.lowered = ensemble.log.lowered →
      before.point = .act firing actions → before.deed = .running command thread → before.floor.calling = [] →
      before.floor.refused = [] →
      before.Reaches reading (before.machine.conclude command firing actions (thread.finish workspace))
        before.floor.running)
    ?_ ?_ thread ensemble.engine.workspace
  · exact hrun ensemble rfl rfl hpoint hdeed hcalling hrefused
  · rintro ⟨failure, after⟩ _ ⟨engine, point, limit, fired, deed, floor, outsiders, log⟩ rfl _ hpoint hdeed hcalling
      hrefused
    dsimp only at hpoint hdeed
    subst hpoint hdeed
    cases failure with
    | none => exact ⟨[.loop none], rfl, ⟨rfl, hcalling, hrefused⟩, rfl⟩
    | some cause => exact ⟨[.loop none, .loop none], rfl, ⟨rfl, hcalling, hrefused⟩, rfl⟩
  · intro thread workspace hgoing ih before hworkspace hlowered hpoint hdeed hcalling hrefused
    have hstep : before.step reading (.loop none) =
        { (before.go thread).2 with deed := .running command (before.go thread).1 } := by
      simp only [step, loop, hpoint, act, hdeed, hgoing]
    have hnext := ih (before.step reading (.loop none)) (by rw [hstep, ← hlowered, ← hworkspace]; rfl)
      (by rw [hstep]; exact hlowered) (by rw [hstep]; exact hpoint)
      (by rw [hstep, ← hlowered, ← hworkspace]; rfl) (by rw [hstep]; exact hcalling) (by rw [hstep]; exact hrefused)
    rw [thread.finish_step] at hnext
    refine .of_step (.loop none) ?_
    rw [hstep] at hnext ⊢
    exact hnext

/-- A submit call that nothing interrupts hands the job over, or reports that it was turned away. -/
theorem reaches_handOver {action : Action} (hready : ensemble.Ready)
    (hpoint : ensemble.point = .act firing (action :: actions)) {args : List Value}
    (hargs : Param.resolveAll firing.bindings action.params = .ok args) (hmode : action.command.mode = .async) :
    ensemble.Reaches reading
      { ensemble.machine with
        engine := ensemble.engine.handOver action.command args firing
        point := .act firing actions } ensemble.floor.running := by
  obtain ⟨hdeed, hcalling, hrefused⟩ := hready
  obtain ⟨engine, point, limit, fired, deed, floor, outsiders, log⟩ := ensemble
  obtain ⟨calling, refused, running, waiters, joining, shutdowns, submitted, accepted, begun, finished, rejected,
    signals⟩ := floor
  dsimp only at hdeed hpoint hcalling hrefused
  subst hdeed hpoint hcalling hrefused
  cases haccepts : engine.executor.pool.accepting with
  | true =>
      refine ⟨List.replicate 3 (.loop none), ?_⟩
      simp only [List.replicate, run, List.foldl_cons, List.foldl_nil, step, loop, act, hargs, hmode, withCrew, crew,
          Crew.call, Executor.issue, Crew.send, List.nil_append, List.getElem?_cons_zero, WorkerPool.submit, haccepts,
          if_true, List.eraseIdx_cons_zero, Engine.handOver, Executor.submit]
      exact ⟨rfl, ⟨rfl, rfl, rfl⟩, trivial⟩
  | false =>
      refine ⟨List.replicate 4 (.loop none), ?_⟩
      simp only [List.replicate, run, List.foldl_cons, List.foldl_nil, step, loop, act, hargs, hmode, withCrew, crew,
          Crew.call, Executor.issue, Crew.send, List.nil_append, List.getElem?_cons_zero, WorkerPool.submit, haccepts,
          Bool.false_eq_true, if_false, List.eraseIdx_cons_zero, Engine.handOver, Executor.submit, Crew.giveBack]
      exact ⟨rfl, ⟨rfl, rfl, rfl⟩, rfl⟩

/-- The loop dispatches an action. -/
theorem reaches_dispatch {action : Action} (hready : ensemble.Ready)
    (hpoint : ensemble.point = .act firing (action :: actions)) (hfits : reading.Fits action.command) :
    ensemble.Reaches reading
      { ensemble.machine with
        engine := (ensemble.engine.dispatch firing action).2
        point := .act (ensemble.engine.dispatch firing action).1 actions } ensemble.floor.running := by
  cases hargs : Param.resolveAll firing.bindings action.params with
  | error cause =>
      have hstep : ensemble.step reading (.loop none) =
          { ensemble with point := .act firing actions }.report firing.rule action.command.name cause := by
        simp only [step, loop, hpoint, act, hready.deed, hargs]
      refine .of_step (.loop none) ?_
      rw [hstep]
      simp only [Engine.dispatch, hargs]
      exact ⟨[], rfl, ⟨hready.deed, hready.calling, hready.refused⟩, rfl⟩
  | ok args =>
      cases hmode : action.command.mode with
      | async =>
          simp only [Engine.dispatch, hargs, hmode]
          exact reaches_handOver hready hpoint hargs hmode
      | sync =>
          have hstep : ensemble.step reading (.loop none) =
              { ensemble with
                point := .act firing actions
                deed := .running action.command (.between (reading action.command args firing)) } := by
            simp only [step, loop, hpoint, act, hready.deed, hargs, hmode]
          refine .of_step (.loop none) ?_
          rw [hstep]
          simp only [Engine.dispatch, hargs, hmode, Engine.exec_eq hfits]
          let working : Ensemble :=
            { ensemble with
              point := .act firing actions
              deed := .running action.command (.between (reading action.command args firing)) }
          exact @reaches_of_running reading working _ _ _ _ rfl rfl hready.calling hready.refused

/-- Where working memory is all that the loop shares, it does in one go what it always does. -/
theorem machine_look (ensemble : Ensemble) (hacting : ensemble.point.isActing = false)
    (hmatching : ensemble.point ≠ .matching) : ensemble.look.machine = ensemble.machine.loop := by
  obtain ⟨engine, point, hloop⟩ := Machine.exists_loop_eq ensemble.machine hacting hmatching
  have hsame : Machine.loop
      { engine := ensemble.engine, point := ensemble.point, limit := ensemble.limit, fired := ensemble.fired } =
      { ensemble.machine with engine, point } := hloop
  simp only [look, machine, hsame]

/-- Whatever the loop does in one go, it can do in sections. -/
theorem reaches_loop (hready : ensemble.Ready)
    (hfits : ∀ firing action actions, ensemble.point = .act firing (action :: actions) → reading.Fits action.command) :
    ensemble.Reaches reading ensemble.machine.loop ensemble.floor.running := by
  cases hpoint : ensemble.point with
  | act firing actions =>
      cases actions with
      | nil =>
          have hstep : ensemble.step reading (.loop none) = { ensemble with point := .start } := by
            simp only [step, loop, hpoint, act, hready.deed]
          refine .of_step (.loop none) ?_
          simp only [hstep, machine, hpoint, Machine.loop]
          exact ⟨[], rfl, ⟨hready.deed, hready.calling, hready.refused⟩, rfl⟩
      | cons action actions =>
          have hloop : ensemble.machine.loop =
              { ensemble.machine with
                engine := (ensemble.engine.dispatch firing action).2
                point := .act (ensemble.engine.dispatch firing action).1 actions } := by
            simp only [machine, hpoint, Machine.loop]
          rw [hloop]
          exact reaches_dispatch hready hpoint (hfits firing action actions hpoint)
  | matching =>
      refine .of_step (.loop ensemble.engine.choose) ?_
      simp only [step, loop, hpoint, machine, Machine.loop]
      cases ensemble.engine.choose with
      | none | some _ => exact ⟨[], rfl, ⟨hready.deed, hready.calling, hready.refused⟩, rfl⟩
  | between _ | start | drain | readEpoch | lookForFacts _ | lookForHalt _ | countTickets _ | wait _ | listen _
  | lookForHaltAgain | countTicketsAgain | close _ =>
      have hstep : ensemble.step reading (.loop none) = ensemble.look := by
        simp only [step, loop, hpoint]
      refine .of_step (.loop none) ?_
      rw [hstep]
      have hlook := ensemble.machine_look (by rw [hpoint]; rfl) (by rw [hpoint]; intro hmatching; cases hmatching)
      exact ⟨[], hlook, ⟨hready.deed, hready.calling, hready.refused⟩, rfl⟩

/-- A firing that nothing interrupts is a firing of the engine. -/
theorem reaches_fire {found : Match} (hready : ensemble.Ready) (hpoint : ensemble.point = .matching)
    (hfits : ∀ action ∈ found.source.rule.actions, reading.Fits action.command) :
    ensemble.Reaches reading
      { ensemble.machine with
        engine := ensemble.engine.fire found
        point := .start
        fired := ensemble.fired + 1 } ensemble.floor.running := by
  have hactions (actions : List Action) (hfits : ∀ action ∈ actions, reading.Fits action.command) :
      ∀ (ensemble : Ensemble) (firing : Firing), ensemble.Ready → ensemble.point = .act firing actions →
        ensemble.Reaches reading
          { ensemble.machine with
            engine := (actions.foldl (fun state action => Engine.dispatch state.1 state.2 action)
              (firing, ensemble.engine)).2
            point := .start } ensemble.floor.running := by
    induction actions with
    | nil =>
        intro ensemble firing hready hpoint
        have hend : ensemble.Reaches reading _ _ := reaches_loop hready fun _ _ _ hnext => by rw [hpoint] at hnext; cases hnext
        simp only [machine, hpoint, Machine.loop] at hend
        exact hend
    | cons action actions ih =>
        intro ensemble firing hready hpoint
        obtain ⟨hfit, hrest⟩ := List.forall_mem_cons.1 hfits
        refine (reaches_dispatch hready hpoint hfit).trans fun between hmachine hagain hrunning => ?_
        have hnext := ih hrest between _ hagain (congrArg Machine.point hmachine)
        rw [hmachine, hrunning, show between.engine = _ from congrArg Machine.engine hmachine] at hnext
        exact hnext
  refine .of_step (.loop (some found)) ?_
  have hstep : ensemble.step reading (.loop (some found)) = ensemble.choose (some found) := by
    simp only [step, loop, hpoint]
  rw [hstep]
  exact hactions _ hfits _ _ ⟨hready.deed, hready.calling, hready.refused⟩ rfl

end Loop

section Workers

@[simp] theorem eraseIdx_setProgress (ensemble : Ensemble) (index : Nat) (working : Running Job Progress)
    (progress : Progress) :
    (ensemble.setProgress index working progress).floor.running.eraseIdx index =
      ensemble.floor.running.eraseIdx index := List.eraseIdx_set_eq

/-- A worker that has reported its job gives the ticket back. -/
theorem reaches_release (hready : ensemble.Ready) {index : Nat} {working : Running Job Progress}
    (hworking : ensemble.floor.running[index]? = some working) (hreported : working.progress.reported = true) :
    ensemble.Reaches reading
      { ensemble.machine with
        engine :=
          { ensemble.engine.withStore (ensemble.engine.executor.release ensemble.engine.store working.ticket).2 with
            executor := (ensemble.engine.executor.release ensemble.engine.store working.ticket).1 } }
      (ensemble.floor.running.eraseIdx index) := by
  refine .of_step (.release index) ?_
  simp only [step, release, hworking, hreported, if_true, Crew.finish, crew]
  exact ⟨[], rfl, ⟨hready.deed, hready.calling, hready.refused⟩, rfl⟩

/-- A worker brings its job to the end, from wherever its thread stands, and gives the ticket back. -/
theorem reaches_of_working (hready : ensemble.Ready) {index : Nat} {working : Running Job Progress}
    (hworking : ensemble.floor.running[index]? = some working) (hunreported : working.progress.reported = false) :
    ensemble.Reaches reading
      { ensemble.machine with
        engine := ensemble.engine.afterJob working.entry
          (working.progress.thread.finish ensemble.engine.workspace) }
      (ensemble.floor.running.eraseIdx index) := by
  have hrun := Thread.induction_to_end ensemble.log.lowered (P := fun thread workspace =>
    ∀ (before : Ensemble) (made : List FactRef), before.engine.workspace = workspace →
      before.log.lowered = ensemble.log.lowered → before.Ready →
      before.floor.running[index]? = some { working with progress := ⟨thread, made, false⟩ } →
      before.Reaches reading
        { before.machine with engine := before.engine.afterJob working.entry (thread.finish workspace) }
        (before.floor.running.eraseIdx index))
    ?_ ?_ working.progress.thread ensemble.engine.workspace
  · exact hrun ensemble working.progress.made rfl rfl hready (by rw [hworking, ← hunreported])
  · rintro ⟨failure, after⟩ _ before made rfl _ hready hworking
    let told : Ensemble :=
      { before with
        engine := before.engine.conclude working.job.firing.rule working.job.command.name failure }
    let reported := told.setProgress index working ⟨.between (.done (failure, after)), made, true⟩
    have hstep : before.step reading (.proceed index) = reported := by
      simp only [step, proceed, hworking]
      cases failure with
      | none | some _ => rfl
    have hagain : reported.Ready := ⟨hready.deed, hready.calling, hready.refused⟩
    have hended : reported.floor.running[index]? =
        some { working with progress := ⟨.between (.done (failure, after)), made, true⟩ } :=
      List.getElem?_set_self (List.getElem?_eq_some_iff.1 hworking).1
    have hreturned : reported.Reaches reading _ _ := reaches_release hagain hended rfl
    rw [eraseIdx_setProgress] at hreturned
    refine .of_step (.proceed index) ?_
    rw [hstep]
    exact hreturned
  · intro thread workspace hgoing ih before made hworkspace hlowered hready hworking
    let later : List FactRef := made ++ thread.makes before.engine.store
    have hindex := (List.getElem?_eq_some_iff.1 hworking).1
    have hstep : before.step reading (.proceed index) =
        (before.go thread).2.setProgress index working ⟨(before.go thread).1, later, false⟩ := by
      simp only [step, proceed, hworking, hgoing]
      rfl
    have hnext := ih (before.step reading (.proceed index)) later (by rw [hstep, ← hlowered, ← hworkspace]; rfl)
      (by rw [hstep]; exact hlowered) (by rw [hstep]; exact ⟨hready.deed, hready.calling, hready.refused⟩)
      (by rw [hstep, ← hlowered, ← hworkspace]; exact List.getElem?_set_self hindex)
    rw [thread.finish_step] at hnext
    refine .of_step (.proceed index) ?_
    rw [hstep] at hnext ⊢
    rw [eraseIdx_setProgress] at hnext
    exact hnext

/-- A job that a worker does with nothing in between is a job of the engine. -/
theorem reaches_perform (hready : ensemble.Ready) {entry : Ticket × Job} {queue : List (Ticket × Job)}
    (hqueue : ensemble.engine.executor.pool.queue = entry :: queue)
    (hidle : ensemble.floor.running.length < ensemble.engine.executor.pool.workers)
    (hfits : reading.Fits entry.2.command) :
    ensemble.Reaches reading
      { ensemble.machine with
        engine := Engine.perform
          { ensemble.engine with
            executor := { ensemble.engine.executor with
              pool := { ensemble.engine.executor.pool with queue } } } entry }
      ensemble.floor.running := by
  obtain ⟨ticket, job⟩ := entry
  let working : Running Job Progress :=
    ⟨ticket, job, { thread := .between (reading job.command job.args job.firing) }⟩
  let taken := ensemble.step reading .take
  have htaken : taken.machine =
      { ensemble.machine with
        engine := { ensemble.engine with
          executor := { ensemble.engine.executor with
            pool := { ensemble.engine.executor.pool with queue } } } } ∧
      taken.Ready ∧ taken.floor.running = ensemble.floor.running ++ [working] := by
    simp only [taken, step, take, Crew.take, crew, hqueue, if_pos hidle]
    exact ⟨rfl, ⟨hready.deed, hready.calling, hready.refused⟩, rfl⟩
  obtain ⟨hmachine, hagain, hrunning⟩ := htaken
  have hworking : taken.floor.running[ensemble.floor.running.length]? = some working := by
    rw [hrunning]
    exact List.getElem?_concat_length
  have hreached : taken.Reaches reading _ _ := reaches_of_working hagain hworking rfl
  have hleft : taken.floor.running.eraseIdx ensemble.floor.running.length = ensemble.floor.running := by
    rw [hrunning, List.eraseIdx_append_of_length_le (Nat.le_refl _), Nat.sub_self]
    exact List.append_nil _
  rw [hleft, hmachine, show taken.engine = _ from congrArg Machine.engine hmachine] at hreached
  refine .of_step .take ?_
  rw [Engine.perform_eq hfits]
  exact hreached

/-- The workers do all queued jobs, with nothing in between, as the engine does when it settles. -/
theorem reaches_settle (hready : ensemble.Ready) (hidle : ensemble.floor.running = [])
    (hworkers : 0 < ensemble.engine.executor.pool.workers)
    (hfits : ∀ entry ∈ ensemble.engine.executor.pool.queue, reading.Fits entry.2.command) :
    ensemble.Reaches reading { ensemble.machine with engine := ensemble.engine.settle } [] := by
  generalize hqueue : ensemble.engine.executor.pool.queue = queue at hfits
  induction queue generalizing ensemble with
  | nil =>
      exact ⟨[], by rw [Engine.settle_of_queue_eq_nil hqueue]; rfl, hready, hidle⟩
  | cons entry queue ih =>
      obtain ⟨hfit, hrest⟩ := List.forall_mem_cons.1 hfits
      have hperform := reaches_perform hready hqueue (by rw [hidle]; exact hworkers) hfit
      rw [Engine.settle_of_queue_eq_cons hqueue]
      refine hperform.trans fun between hmachine hagain hrunning => ?_
      have hengine : between.engine = _ := congrArg Machine.engine hmachine
      have hnext := ih hagain (hrunning.trans hidle) (by rw [hengine, Engine.pool_perform]; exact hworkers)
        (by rw [hengine, Engine.pool_perform]) hrest
      rw [hmachine, hengine] at hnext
      exact hnext

end Workers

end Ensemble

end ProductionSystem
