import ProductionSystem.Proofs.Crew
import ProductionSystem.Proofs.EngineFrame
import ProductionSystem.Proofs.Interleaving
import ProductionSystem.Proofs.Scripts

/-!
An engine whose threads come between one another at every locked section: the loop, the workers, and producers and
halt callers outside. Any number of threads takes turns in any order; a turn that is not possible changes nothing.
What rule a match phase finds is left open, as its reads of facts come between everything else, and so are
the scripts of the commands. A log that no thread reads tells what happened.
-/

namespace ProductionSystem

/-- How far a worker has come with a job. -/
structure Progress where
  thread : Thread Ended
  /-- The facts that the job has made. -/
  made : List FactRef := []
  /-- Is the job over, and reported if it failed? -/
  reported : Bool := false

/-- What the loop is in the middle of in a firing. -/
inductive Deed where
  | nothing
  /-- Running a command. -/
  | running (command : Command) (thread : Thread Ended)
  /-- Handing a job over. -/
  | handingOver
  /-- Before the report of a job that was turned away. -/
  | reporting (refusal : Refusal Job)

/-- What the caller of runs does to the engine between two of them. -/
inductive Errand where
  | program (rules : List RuleInstance) (added : Nat)
  | drain
  | remove (ref : FactRef)
  | forgetTemplates
  | forgetPending
  | forgetLive
  | forgetHistory
  /-- Lowers the flag that stops the loop. -/
  | lower
  /-- Dismisses the workers after the jobs that they have. -/
  | dismiss

/-- What happened so far. -/
structure Log where
  /-- How often the flag was lowered. -/
  lowered : Nat := 0
  /-- For each halt that is over, how often the flag had been lowered when it was raised. -/
  halts : List Nat := []
  /-- The signals since the loop last read the epoch. -/
  signals : Nat := 0
  /-- The facts that have left the queue. -/
  left : List FactRef := []
  /-- The facts that were made, by whomever. -/
  made : List FactRef := []
  /-- The facts that were enqueued without being made. -/
  offered : List FactRef := []
  /-- How many jobs were over when the failures were last forgotten. -/
  overBefore : Nat := 0
  /-- How many jobs had been turned away by then. -/
  awayBefore : Nat := 0

/-- An engine, its caller, its workers, and the threads outside. -/
structure Ensemble where
  engine : Engine
  point : Point := .between none
  limit : Option Nat := none
  fired : Nat := 0
  deed : Deed := .nothing
  floor : Floor Job Progress := {}
  outsiders : List (Thread Unit) := []
  log : Log := {}

/-- A turn of one of the threads. -/
inductive Turn where
  | errand (errand : Errand)
  | begin (limit : Option Nat)
  /-- The loop goes on. If the turn ends a match phase, this is what was found. -/
  | loop (found : Option Match)
  | take
  /-- A worker goes on with its job, or reports it if it is over. -/
  | proceed (index : Nat)
  /-- A worker gives the ticket of a job back. -/
  | release (index : Nat)
  /-- Somebody outside begins to act. -/
  | join (script : Script Unit)
  | outside (index : Nat)

namespace Turn

/-- Is it a turn of a worker? -/
def byWorkers : Turn → Bool
  | take | proceed _ | release _ => true
  | errand _ | begin _ | loop _ | join _ | outside _ => false

/-- Does the turn begin a run? -/
def begins : Turn → Bool
  | begin _ => true
  | _ => false

end Turn

namespace Errand

def apply (engine : Engine) : Errand → Engine
  | program rules added => { engine with rules, added }
  | drain => engine.drain
  | remove ref => engine.withStore (engine.store.remove ref).2
  | forgetTemplates => engine.withStore { engine.store with templates := {} }
  | forgetPending => engine.withStore { engine.store with pending := [] }
  | forgetLive => engine.withStore { engine.store with live := Dictionary.empty }
  | forgetHistory => { engine with lastFired := none, firings := 0, failures := #[], state := .idle }
  | lower => { engine with workspace := engine.workspace.clearHalt }
  | dismiss => engine.dismissWorkers

/-- Only the history waits until no ticket is out. -/
def allowed (engine : Engine) : Errand → Bool
  | forgetHistory => engine.outstanding = 0
  | _ => true

/-- What resets an engine, once no ticket is out. -/
def resetting (added : Nat) : List Errand :=
  [program [] added, forgetTemplates, forgetPending, forgetLive, forgetHistory, lower]

theorem foldl_resetting {engine : Engine} (hidle : engine.executor.pool.queue = []) :
    (resetting engine.added).foldl apply engine = engine.reset := by
  rw [Engine.reset, Engine.settle_of_queue_eq_nil hidle]
  rfl

end Errand

namespace Log

/-- Writes down the next section of a thread. -/
def note {R : Type} (log : Log) (thread : Thread R) (store : Store) : Log :=
  { log with
    halts := log.halts ++ thread.raised
    signals := log.signals + thread.signals
    made := log.made ++ thread.makes store
    offered := log.offered ++ thread.offers }

def signal (log : Log) : Log := { log with signals := log.signals + 1 }

/-- The facts in the queue leave it. -/
def leave (log : Log) (store : Store) : Log := { log with left := log.left ++ store.pending }

/-- The flag is lowered. -/
def lower (log : Log) : Log := { log with lowered := log.lowered + 1 }

end Log

namespace Ensemble

def new (config : Config) : Ensemble := { engine := .new config }

/-- How the last run ended, if the loop is between runs. -/
def returned (ensemble : Ensemble) : Option Outcome :=
  match ensemble.point with
  | .between last => last
  | _ => none

def crew (ensemble : Ensemble) : Crew Job Progress where
  executor := ensemble.engine.executor
  store := ensemble.engine.store
  floor := ensemble.floor

def withCrew (ensemble : Ensemble) (crew : Crew Job Progress) : Ensemble :=
  { ensemble with
    engine := { ensemble.engine.withStore crew.store with executor := crew.executor }
    floor := crew.floor }

def signal (ensemble : Ensemble) : Ensemble := { ensemble with log := ensemble.log.signal }

def report (ensemble : Ensemble) (rule command : String) (cause : ErrorKind) : Ensemble :=
  { ensemble with engine := ensemble.engine.report rule command cause }

/-- The next section of a thread. -/
def go {R : Type} (ensemble : Ensemble) (thread : Thread R) : Thread R × Ensemble :=
  let (next, workspace) := thread.step ensemble.log.lowered ensemble.engine.workspace
  (next,
    { ensemble with
      engine := { ensemble.engine with workspace }
      log := ensemble.log.note thread ensemble.engine.store })

/-- The loop goes on where working memory is all that it shares. -/
def look (ensemble : Ensemble) : Ensemble :=
  let { engine, point, limit, fired, .. } := ensemble
  let next := Machine.loop { engine, point, limit, fired }
  let log :=
    match point with
    | .readEpoch => { ensemble.log with signals := 0 }
    | .drain | .wait _ | .listen _ => ensemble.log.leave engine.store
    | _ => ensemble.log
  { ensemble with engine := next.engine, point := next.point, log }

/-- The loop ends a match phase. -/
def choose (ensemble : Ensemble) : Option Match → Ensemble
  | some found =>
    let { engine, point, limit, fired, .. } := ensemble
    let next := Machine.fire { engine, point, limit, fired } found
    { ensemble with engine := next.engine, point := next.point, fired := next.fired }
  | none => { ensemble with point := .readEpoch }

variable (reading : Reading)

/-- The loop goes on in a firing. -/
def act (ensemble : Ensemble) (firing : Firing) (actions : List Action) : Ensemble :=
  match ensemble.deed with
  | .nothing =>
    match actions with
    | [] => { ensemble with point := .start }
    | action :: actions =>
      let ensemble := { ensemble with point := .act firing actions }
      match Param.resolveAll firing.bindings action.params with
      | .error cause => ensemble.report firing.rule action.command.name cause
      | .ok args =>
        match action.command.mode with
        | .sync =>
          { ensemble with deed := .running action.command (.between (reading action.command args firing)) }
        | .async =>
          let job : Job := ⟨action.command, args, { firing with removals := [], onLoop := false }⟩
          { ensemble.withCrew (ensemble.crew.call firing.rule job) with deed := .handingOver }
  | .running command thread =>
    match thread.result? with
    | none =>
      let (thread, ensemble) := ensemble.go thread
      { ensemble with deed := .running command thread }
    | some (some cause, after) =>
      { ensemble.report firing.rule command.name cause with deed := .running command (.between (.done (none, after))) }
    | some (none, after) =>
      let (firing, engine) := Engine.applyRemovals after ensemble.engine
      { ensemble with engine, point := .act firing actions, deed := .nothing }
  | .handingOver =>
    match ensemble.floor.calling, ensemble.floor.refused with
    | _ :: _, _ => ensemble.withCrew (ensemble.crew.send 0)
    | [], refusal :: _ =>
      { (ensemble.withCrew (ensemble.crew.giveBack 0)).signal with deed := .reporting refusal }
    | [], [] => { ensemble with deed := .nothing }
  | .reporting refusal =>
    { ensemble.report refusal.job.firing.rule refusal.job.command.name refusal.cause with deed := .nothing }

def loop (ensemble : Ensemble) (found : Option Match) : Ensemble :=
  match ensemble.point with
  | .matching => ensemble.choose found
  | .act firing actions => ensemble.act reading firing actions
  | _ => ensemble.look

def take (ensemble : Ensemble) : Ensemble :=
  ensemble.withCrew (ensemble.crew.take fun job =>
    { thread := .between (reading job.command job.args job.firing) })

def setProgress (ensemble : Ensemble) (index : Nat) (running : Running Job Progress) (progress : Progress) :
    Ensemble :=
  { ensemble with
    floor := { ensemble.floor with running := ensemble.floor.running.set index { running with progress } } }

def proceed (ensemble : Ensemble) (index : Nat) : Ensemble :=
  match ensemble.floor.running[index]? with
  | none => ensemble
  | some running =>
    let { thread, made, reported } := running.progress
    match thread.result? with
    | none =>
      let (next, after) := ensemble.go thread
      after.setProgress index running
        { thread := next, made := made ++ thread.makes ensemble.engine.store, reported }
    | some (failure, _) =>
      if reported then ensemble
      else
        let told :=
          match failure with
          | none => ensemble
          | some cause => ensemble.report running.job.firing.rule running.job.command.name cause
        told.setProgress index running { thread, made, reported := true }

def release (ensemble : Ensemble) (index : Nat) : Ensemble :=
  match ensemble.floor.running[index]? with
  | none => ensemble
  | some running =>
    if running.progress.reported then (ensemble.withCrew (ensemble.crew.finish index .returned)).signal
    else ensemble

def outside (ensemble : Ensemble) (index : Nat) : Ensemble :=
  match ensemble.outsiders[index]? with
  | none => ensemble
  | some thread =>
    let (next, after) := ensemble.go thread
    { after with outsiders := after.outsiders.set index next }

/-- The caller of runs is between two of them. -/
def attend (ensemble : Ensemble) (errand : Errand) : Ensemble :=
  if errand.allowed ensemble.engine then
    let log := ensemble.log
    { ensemble with
      engine := errand.apply ensemble.engine
      point := .between none
      log :=
        match errand with
        | .drain | .forgetPending => log.leave ensemble.engine.store
        | .lower => log.lower
        | .forgetHistory =>
          { log with
            overBefore := ensemble.floor.finished.length
            awayBefore := ensemble.floor.rejected.length }
        | _ => log }
  else ensemble

def begin (ensemble : Ensemble) (limit : Option Nat) : Ensemble :=
  { ensemble with
    engine := (ensemble.engine.begin []).engine
    point := .start
    limit
    fired := 0
    log := ensemble.log.lower }

def step (ensemble : Ensemble) : Turn → Ensemble
  | .errand errand =>
    match ensemble.point with
    | .between _ => ensemble.attend errand
    | _ => ensemble
  | .begin limit =>
    match ensemble.point with
    | .between _ => ensemble.begin limit
    | _ => ensemble
  | .loop found => ensemble.loop reading found
  | .take => ensemble.take reading
  | .proceed index => ensemble.proceed index
  | .release index => ensemble.release index
  | .join script => { ensemble with outsiders := ensemble.outsiders ++ [.between script] }
  | .outside index => ensemble.outside index

def run (ensemble : Ensemble) (turns : List Turn) : Ensemble := turns.foldl (step reading) ensemble

theorem run_append (ensemble : Ensemble) (turns later : List Turn) :
    ensemble.run reading (turns ++ later) = (ensemble.run reading turns).run reading later := List.foldl_append

variable {reading}

section Turns

/-!
What each turn does, case by case. The names of the cases say what happens in them.
-/

variable {ensemble : Ensemble} {P : Ensemble → Prop}

@[elab_as_elim]
theorem act_cases {firing : Firing} {actions : List Action}
    (ends : ensemble.deed = .nothing → P { ensemble with point := .start })
    (unresolved : ∀ (action : Action) rest cause, ensemble.deed = .nothing →
      P ({ ensemble with point := .act firing rest }.report firing.rule action.command.name cause))
    (runs : ∀ (action : Action) rest args, ensemble.deed = .nothing →
      P { ensemble with
        point := .act firing rest
        deed := .running action.command (.between (reading action.command args firing)) })
    (calls : ∀ rest job, ensemble.deed = .nothing →
      P { ensemble.withCrew (ensemble.crew.call firing.rule job) with
        point := .act firing rest
        deed := .handingOver })
    (goes : ∀ command thread, ensemble.deed = .running command thread → thread.result? = none →
      P { (ensemble.go thread).2 with deed := .running command (ensemble.go thread).1 })
    (fails : ∀ command thread cause after, ensemble.deed = .running command thread →
      P { ensemble.report firing.rule command.name cause with
        deed := .running command (.between (.done (none, after))) })
    (succeeds : ∀ command thread after, ensemble.deed = .running command thread →
      P { ensemble with
        engine := (Engine.applyRemovals after ensemble.engine).2
        point := .act (Engine.applyRemovals after ensemble.engine).1 actions
        deed := .nothing })
    (sends : ensemble.deed = .handingOver → P (ensemble.withCrew (ensemble.crew.send 0)))
    (givesBack : ∀ refusal rest, ensemble.deed = .handingOver → ensemble.floor.refused = refusal :: rest →
      P { (ensemble.withCrew (ensemble.crew.giveBack 0)).signal with deed := .reporting refusal })
    (leaves : ensemble.deed = .handingOver → ensemble.floor.calling = [] → ensemble.floor.refused = [] →
      P { ensemble with deed := .nothing })
    (reports : ∀ refusal, ensemble.deed = .reporting refusal →
      P { ensemble.report refusal.job.firing.rule refusal.job.command.name refusal.cause with deed := .nothing }) :
    P (ensemble.act reading firing actions) := by
  unfold act
  split
  · rename_i hdeed
    split
    · exact ends hdeed
    · rename_i action rest
      dsimp only
      split
      · exact unresolved action rest _ hdeed
      · split
        · exact runs action rest _ hdeed
        · exact calls rest _ hdeed
  · rename_i command thread hdeed
    split
    · rename_i hgoing
      exact goes command thread hdeed hgoing
    · exact fails command thread _ _ hdeed
    · exact succeeds command thread _ hdeed
  · rename_i hdeed
    split
    · exact sends hdeed
    · rename_i refusal rest hcalling hrefused
      exact givesBack refusal rest hdeed hrefused
    · rename_i hcalling hrefused
      exact leaves hdeed hcalling hrefused
  · rename_i refusal hdeed
    exact reports refusal hdeed

@[elab_as_elim]
theorem take_cases (nobody : P ensemble)
    (takes : ∀ ticket job queue, ensemble.floor.running.length < ensemble.engine.executor.pool.workers →
      ensemble.engine.executor.pool.queue = (ticket, job) :: queue →
      P { ensemble with
        engine := { ensemble.engine with
          executor := { ensemble.engine.executor with pool := { ensemble.engine.executor.pool with queue } } }
        floor := { ensemble.floor with
          running := ensemble.floor.running ++
            [⟨ticket, job, { thread := .between (reading job.command job.args job.firing) }⟩]
          begun := ensemble.floor.begun ++ [(ticket, job)] } }) :
    P (ensemble.take reading) := by
  unfold take Crew.take
  dsimp only
  split
  · rename_i hidle
    split
    · exact nobody
    · rename_i ticket job queue hqueue
      exact takes ticket job queue hidle hqueue
  · exact nobody

@[elab_as_elim]
theorem proceed_cases {index : Nat} (nobody : P ensemble)
    (goes : ∀ running, ensemble.floor.running[index]? = some running → running.progress.thread.result? = none →
      P ((ensemble.go running.progress.thread).2.setProgress index running
        ⟨(ensemble.go running.progress.thread).1,
          running.progress.made ++ running.progress.thread.makes ensemble.engine.store, running.progress.reported⟩))
    (succeeds : ∀ running after, ensemble.floor.running[index]? = some running →
      running.progress.thread.result? = some (none, after) → running.progress.reported = false →
      P (ensemble.setProgress index running { running.progress with reported := true }))
    (fails : ∀ running cause after, ensemble.floor.running[index]? = some running →
      running.progress.thread.result? = some (some cause, after) → running.progress.reported = false →
      P ((ensemble.report running.job.firing.rule running.job.command.name cause).setProgress index running
        { running.progress with reported := true })) :
    P (ensemble.proceed index) := by
  unfold proceed
  split
  · exact nobody
  rename_i running hrunning
  dsimp only
  split
  · rename_i hgoing
    exact goes running hrunning hgoing
  · rename_i failure after hended
    split
    · exact nobody
    · rename_i hsilent
      have hunreported : running.progress.reported = false := Bool.eq_false_iff.2 hsilent
      cases failure with
      | none => exact succeeds running after hrunning hended hunreported
      | some cause => exact fails running cause after hrunning hended hunreported

@[elab_as_elim]
theorem release_cases {index : Nat} (nobody : P ensemble)
    (returns : ∀ running, ensemble.floor.running[index]? = some running → running.progress.reported = true →
      P (ensemble.withCrew (ensemble.crew.finish index .returned)).signal) :
    P (ensemble.release index) := by
  unfold release
  split
  · exact nobody
  rename_i running hrunning
  split
  · rename_i hsaid
    exact returns running hrunning hsaid
  · exact nobody

@[elab_as_elim]
theorem outside_cases {index : Nat} (nobody : P ensemble)
    (goes : ∀ thread, ensemble.outsiders[index]? = some thread →
      P { (ensemble.go thread).2 with outsiders := ensemble.outsiders.set index (ensemble.go thread).1 }) :
    P (ensemble.outside index) := by
  unfold outside
  split
  · exact nobody
  · rename_i thread hthread
    exact goes thread hthread

end Turns

/-- A property that each turn keeps is kept by all of them. -/
theorem run_induction {P : Ensemble → Prop} (hstep : ∀ ensemble turn, P ensemble → P (ensemble.step reading turn))
    {ensemble : Ensemble} (h : P ensemble) (turns : List Turn) : P (ensemble.run reading turns) :=
  List.foldlRecOn turns (step reading) h fun ensemble hensemble turn _ => hstep ensemble turn hensemble

end Ensemble

end ProductionSystem
