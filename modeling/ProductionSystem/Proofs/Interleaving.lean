import ProductionSystem.Run

/-!
Loop and workers in any order. The loop moves from one read or write of what it shares with the workers to
the next; a worker takes a job, does it, and gives its ticket back; producers outside signal when they
like. A schedule is a list of such moves, and a move that is not possible changes nothing. So whatever holds
after every schedule holds for any number of workers and however the threads are timed.
-/

namespace ProductionSystem

/-- Where the loop stands. -/
inductive Point where
  /-- Between two runs. How the last one ended is known as long as nothing was done to the engine. -/
  | between (last : Option Outcome)
  /-- At the start of a cycle. -/
  | start
  | drain
  | matching
  /-- In a firing, before the actions that are still to be dispatched. -/
  | act (firing : Firing) (actions : List Action)
  /-- No rule matched. -/
  | readEpoch
  | lookForFacts (seen : UInt64)
  | lookForHalt (seen : UInt64)
  | countTickets (seen : UInt64)
  /-- Waiting for the workers. -/
  | wait (seen : UInt64)
  /-- Waiting for facts from outside, until the time for that is over. -/
  | listen (seen : UInt64)
  | lookForHaltAgain
  | countTicketsAgain
  /-- The run is over, once the workers are done if it did not stop at its limit. -/
  | close (outcome : Outcome)

/-- An engine whose loop and workers are seen at every step. -/
structure Machine where
  engine : Engine
  point : Point := .between none
  limit : Option Nat := none
  /-- How many rules the run has fired. -/
  fired : Nat := 0
  /-- The jobs that workers have taken. -/
  taken : List (Ticket × Job) := []
  /-- The tickets of the jobs that are done, until they are given back. -/
  spent : List Ticket := []

/-- A move of one of the threads. -/
inductive Move where
  /-- The caller does to the engine, between two runs, whatever leaves the workers alone. -/
  | prepare (engine : Engine)
  /-- The caller dismisses the workers after the jobs that they have. -/
  | dismiss
  /-- The caller begins a run, with a limit or without one. -/
  | begin (limit : Option Nat)
  | loop
  /-- A worker takes the next job. -/
  | take
  /-- A worker does a job that is taken. -/
  | perform (index : Nat)
  /-- A worker gives the ticket of a job back. -/
  | release (index : Nat)
  /-- A producer outside makes a fact, wakes the loop or halts it. -/
  | receive (signal : Signal)

namespace Move

/-- Is it a move of a worker or of a producer outside? -/
def byOthers : Move → Bool
  | take | perform _ | release _ | receive _ => true
  | prepare _ | dismiss | begin _ | loop => false

/-- Can the move change working memory, unless it is the loop that moves? -/
def acts : Move → Bool
  | perform _ | receive _ => true
  | _ => false

/-- What workers and producers outside do. -/
def others (moves : List Move) : List Move := moves.filter byOthers

end Move

/-- Closes the pool of the workers, who still do the jobs that they have, and matches on the loop from now on. -/
def Engine.dismissWorkers (engine : Engine) : Engine :=
  let executor := engine.executor
  { engine with
    matchers := none
    executor := { executor with pool := { executor.pool with accepting := false } }
    state := .halted }

namespace Machine

def new (config : Config) : Machine := { engine := .new config }

/-- How the last run ended, if the machine is between runs. -/
def returned (machine : Machine) : Option Outcome :=
  match machine.point with
  | .between last => last
  | _ => none

/-- The loop begins to fire a rule for its match. -/
def fire (machine : Machine) (found : Match) : Machine :=
  let rule := found.source.rule
  { machine with
    engine := { machine.engine with lastFired := some found.source, firings := machine.engine.firings + 1 }
    fired := machine.fired + 1
    point := .act { rule := rule.name, facts := found.facts, bindings := found.bindings } rule.actions }

/-- The next move of the loop. A loop that waits stays where it is. -/
def loop (machine : Machine) : Machine :=
  let engine := machine.engine
  match machine.point with
  | .between _ => machine
  | .start =>
    if engine.workspace.halted then { machine with point := .close .halted }
    else if machine.limit.any (· ≤ machine.fired) then { machine with point := .close .stepLimit }
    else { machine with point := .drain }
  | .drain => { machine with engine := engine.drain, point := .matching }
  | .matching =>
    match engine.choose with
    | some found => machine.fire found
    | none => { machine with point := .readEpoch }
  | .act _ [] => { machine with point := .start }
  | .act firing (action :: actions) =>
    let (firing, engine) := engine.dispatch firing action
    { machine with engine, point := .act firing actions }
  | .readEpoch => { machine with point := .lookForFacts engine.store.epoch }
  | .lookForFacts seen =>
    { machine with point := if engine.store.hasPending then .start else .lookForHalt seen }
  | .lookForHalt seen =>
    { machine with point := if engine.workspace.halted then .start else .countTickets seen }
  | .countTickets seen =>
    if engine.outstanding ≠ 0 then { machine with point := .wait seen }
    else
      match engine.config.idleTimeout with
      | some _ => { machine with point := .listen seen }
      | none => { machine with point := .close .quiescent }
  | .wait seen =>
    if engine.store.quietSince seen then machine
    else { machine with engine := engine.drain, point := .start }
  | .listen _ =>
    { machine with
      engine := engine.drain
      point := if engine.store.hasPending then .start else .lookForHaltAgain }
  | .lookForHaltAgain =>
    { machine with point := if engine.workspace.halted then .start else .countTicketsAgain }
  | .countTicketsAgain =>
    { machine with point := if engine.outstanding ≠ 0 then .start else .close .quiescent }
  | .close .stepLimit =>
    { machine with engine := { engine with state := .idle }, point := .between (some .stepLimit) }
  | .close outcome =>
    if engine.outstanding ≠ 0 then machine
    else { machine with engine := { engine with state := .halted }, point := .between (some outcome) }

/-- The loop looks and at most says what the engine is doing; or it drains the queue, begins a firing, or dispatches an
action of it. -/
theorem loop_moves {P : Machine → Prop} (machine : Machine)
    (looks : ∀ state point, (∀ firing actions, point ≠ .act firing actions) →
      P { machine with engine := { machine.engine with state }, point })
    (drains : ∀ point, (∀ firing actions, point ≠ .act firing actions) →
      P { machine with engine := machine.engine.drain, point })
    (fires : ∀ found, machine.point = .matching → machine.engine.choose = some found → P (machine.fire found))
    (acts : ∀ firing action actions, machine.point = .act firing (action :: actions) →
      P { machine with
        engine := (machine.engine.dispatch firing action).2
        point := .act (machine.engine.dispatch firing action).1 actions }) : P machine.loop := by
  obtain ⟨engine, point, limit, fired, taken, spent⟩ := machine
  have moves (next : Point) (h : ∀ firing actions, next ≠ .act firing actions) :
      P ⟨engine, next, limit, fired, taken, spent⟩ := looks engine.state next h
  cases point with
  | between last => exact moves _ nofun
  | start =>
      simp only [loop]
      split
      · exact moves _ nofun
      · split <;> exact moves _ nofun
  | drain => exact drains _ nofun
  | matching =>
      simp only [loop]
      split
      · rename_i found hchoose
        exact fires found rfl hchoose
      · exact moves _ nofun
  | act firing actions =>
      cases actions with
      | nil => exact moves _ nofun
      | cons action actions => exact acts firing action actions rfl
  | readEpoch => exact moves _ nofun
  | lookForFacts _ | lookForHalt _ | lookForHaltAgain | countTicketsAgain =>
      simp only [loop]
      split <;> exact moves _ nofun
  | countTickets seen =>
      simp only [loop]
      split
      · exact moves _ nofun
      · split <;> exact moves _ nofun
  | wait seen =>
      simp only [loop]
      split
      · exact moves _ nofun
      · exact drains _ nofun
  | listen seen =>
      simp only [loop]
      split <;> exact drains _ nofun
  | close outcome =>
      cases outcome with
      | stepLimit => exact looks .idle _ nofun
      | halted | quiescent =>
          simp only [loop]
          split
          · exact moves _ nofun
          · exact looks .halted _ nofun

/-- A worker takes the next job. -/
def take (machine : Machine) : Machine :=
  let executor := machine.engine.executor
  match executor.pool.queue with
  | [] => machine
  | job :: queue =>
    { machine with
      engine := { machine.engine with executor := { executor with pool := { executor.pool with queue } } }
      taken := machine.taken ++ [job] }

/-- A worker does a job: it runs the command, and reports it if it fails. -/
def perform (machine : Machine) (index : Nat) : Machine :=
  match machine.taken[index]? with
  | none => machine
  | some job =>
    { machine with
      engine := (machine.engine.exec job.2.command job.2.args job.2.firing).2
      taken := machine.taken.eraseIdx index
      spent := machine.spent ++ [job.1] }

/-- A worker gives a ticket back, which wakes the loop. -/
def release (machine : Machine) (index : Nat) : Machine :=
  match machine.spent[index]? with
  | none => machine
  | some ticket =>
    let (executor, store) := machine.engine.executor.release machine.engine.store ticket
    { machine with
      engine := { machine.engine.withStore store with executor }
      spent := machine.spent.eraseIdx index }

def step (machine : Machine) : Move → Machine
  | .prepare engine =>
    match machine.point with
    | .between _ =>
      let { config, matchers, executor, .. } := machine.engine
      { machine with engine := { engine with config, matchers, executor }, point := .between none }
    | _ => machine
  | .dismiss =>
    match machine.point with
    | .between _ => { machine with engine := machine.engine.dismissWorkers, point := .between none }
    | _ => machine
  | .begin limit =>
    match machine.point with
    | .between _ => { machine with engine := (machine.engine.begin []).engine, point := .start, limit, fired := 0 }
    | _ => machine
  | .loop => machine.loop
  | .take => machine.take
  | .perform index => machine.perform index
  | .release index => machine.release index
  | .receive signal =>
    { machine with
      engine := { machine.engine with workspace := machine.engine.workspace.receive signal } }

def run (machine : Machine) (moves : List Move) : Machine := moves.foldl step machine

theorem run_cons (machine : Machine) (move : Move) (moves : List Move) :
    machine.run (move :: moves) = (machine.step move).run moves := rfl

theorem run_append (machine : Machine) (moves later : List Move) :
    machine.run (moves ++ later) = (machine.run moves).run later := List.foldl_append

theorem run_concat (machine : Machine) (moves : List Move) (move : Move) :
    machine.run (moves ++ [move]) = (machine.run moves).step move := run_append machine moves [move]

end Machine

end ProductionSystem
