import ProductionSystem.Proofs.FactShapes
import ProductionSystem.Proofs.Scripts

/-!
Producers that make facts through handles while the loop drains and removes facts. A call reads the template,
then takes an id and builds the fact, then enqueues it; a drain takes the queue and then puts what it has taken
among the live facts. Whatever is locked is locked for one of these steps only, so the threads come between one
another at all of them, and ids need not come into the queue in their order.
-/

namespace ProductionSystem

/-- A call that makes a fact. -/
structure MakeCall where
  type : String
  overrides : List (String × Value)

/-- How far a producer has come with a call. -/
inductive MakeStage where
  | before
  /-- With the template read. -/
  | reading (template : Template)
  /-- With the fact built, and not enqueued. -/
  | built (fact : Fact)

/-- What comes of a call. -/
abbrev MakeResult := Except ErrorKind FactRef

/-- A thread that makes one fact after the other. -/
structure Producer where
  /-- The calls that are not over. The producer is with the first of them. -/
  calls : List MakeCall
  stage : MakeStage := .before
  /-- The calls that are over, each with what came of it. -/
  ended : List (MakeCall × MakeResult) := []

namespace Producer

/-- The facts that the producer has made, in order. -/
def made (producer : Producer) : List FactRef := producer.ended.filterMap fun entry => entry.2.toOption

/-- The calls of the producer, from the first to the last. -/
def allCalls (producer : Producer) : List MakeCall := producer.ended.map (·.1) ++ producer.calls

/-- The call that the producer is with is over. -/
def finish (producer : Producer) (call : MakeCall) (calls : List MakeCall) (result : MakeResult) : Producer where
  calls
  ended := producer.ended ++ [(call, result)]

/-- The next step of a producer. -/
def step (producer : Producer) (store : Store) : Producer × Store :=
  match producer.calls with
  | [] => (producer, store)
  | call :: calls =>
    match producer.stage with
    | .before =>
      match store.template? call.type with
      | none => (producer.finish call calls (.error (.schema call.type)), store)
      | some template => ({ producer with stage := .reading template }, store)
    | .reading template =>
      let (id, store) := store.takeId
      match template.instantiate id call.overrides with
      | .error cause => (producer.finish call calls (.error cause), store)
      | .ok fact => ({ producer with stage := .built fact }, store)
    | .built fact =>
      let (ref, store) := store.enter fact
      (producer.finish call calls (.ok ref), store.enqueue ref)

/-- The id that the next step takes. -/
def takes (producer : Producer) (store : Store) : List FactId :=
  match producer.calls, producer.stage with
  | _ :: _, .reading _ => [store.takeId.1]
  | _, _ => []

/-- The fact that the next step enqueues. -/
def enters (producer : Producer) (store : Store) : List FactRef :=
  match producer.calls, producer.stage with
  | _ :: _, .built fact => [(store.enter fact).1]
  | _, _ => []

/-- The id of the fact that is built and not enqueued. -/
def held (producer : Producer) : List FactId :=
  match producer.calls, producer.stage with
  | _ :: _, .built fact => [fact.id]
  | _, _ => []

/-- The calls of a producer as those of a thread, up to their results. -/
def script : List MakeCall → List MakeResult → Script (List MakeResult)
  | [], results => .done results
  | call :: calls, results => .make call.type call.overrides fun result => script calls (results ++ [result])

def thread (producer : Producer) : Thread (List MakeResult) :=
  let results := producer.ended.map (·.2)
  match producer.calls, producer.stage with
  | call :: calls, .reading template =>
    .making template call.overrides fun result => script calls (results ++ [result])
  | _ :: calls, .built fact => .offering fact fun result => script calls (results ++ [result])
  | calls, _ => .between (script calls results)

theorem thread_finish (producer : Producer) (call : MakeCall) (calls : List MakeCall) (result : MakeResult) :
    (producer.finish call calls result).thread =
      .between (script calls (producer.ended.map (·.2) ++ [result])) := by
  have hresults : (producer.finish call calls result).ended.map (·.2) = producer.ended.map (·.2) ++ [result] := by
    rw [finish, List.map_append, List.map_singleton]
  rw [← hresults]
  cases calls <;> rfl

/-- A producer is a thread whose script makes one fact after the other. -/
theorem step_thread (producer : Producer) (lowered : Nat) (workspace : Workspace) :
    producer.thread.step lowered workspace =
      ((producer.step workspace.store).1.thread, workspace.withStore (producer.step workspace.store).2) := by
  obtain ⟨calls, stage, ended⟩ := producer
  cases calls with
  | nil => cases stage <;> rfl
  | cons call calls =>
      cases stage with
      | before =>
          show (Thread.between (script (call :: calls) _)).step lowered workspace = _
          simp only [script, step, Thread.step]
          cases workspace.store.template? call.type with
          | none => simp only [thread_finish, Workspace.withStore]
          | some template => rfl
      | reading template =>
          show (Thread.making template call.overrides _).step lowered workspace = _
          simp only [step, Thread.step]
          cases template.instantiate workspace.store.takeId.1 call.overrides with
          | error cause => simp only [thread_finish]
          | ok fact => rfl
      | built fact =>
          show (Thread.offering fact _).step lowered workspace = _
          simp only [step, Thread.step, thread_finish]

/-- What a step of a producer does, case by case: to itself, to memory, which id it takes, and which fact it
enqueues. -/
@[elab_as_elim]
theorem step_cases {producer : Producer} {store : Store} {P : Producer → Store → List FactId → List FactRef → Prop}
    (rests : P producer store [] [])
    (misses : ∀ call calls, producer.calls = call :: calls → producer.stage = .before →
      P (producer.finish call calls (.error (.schema call.type))) store [] [])
    (reads : ∀ call calls template, producer.calls = call :: calls → producer.stage = .before →
      store.template? call.type = some template → P { producer with stage := .reading template } store [] [])
    (fails : ∀ call calls template cause, producer.calls = call :: calls → producer.stage = .reading template →
      P (producer.finish call calls (.error cause)) store.takeId.2 [store.takeId.1] [])
    (builds : ∀ call calls template fact, producer.calls = call :: calls → producer.stage = .reading template →
      template.instantiate store.takeId.1 call.overrides = .ok fact →
      P { producer with stage := .built fact } store.takeId.2 [store.takeId.1] [])
    (enqueues : ∀ call calls fact, producer.calls = call :: calls → producer.stage = .built fact →
      P (producer.finish call calls (.ok (store.enter fact).1)) ((store.enter fact).2.enqueue (store.enter fact).1) []
        [(store.enter fact).1]) :
    P (producer.step store).1 (producer.step store).2 (producer.takes store) (producer.enters store) := by
  obtain ⟨calls, stage, ended⟩ := producer
  cases calls with
  | nil => exact rests
  | cons call calls =>
      cases stage with
      | before =>
          simp only [step, takes, enters]
          cases htemplate : store.template? call.type with
          | none => exact misses call calls rfl rfl
          | some template => exact reads call calls template rfl rfl htemplate
      | reading template =>
          simp only [step, takes, enters]
          cases hfact : template.instantiate store.takeId.1 call.overrides with
          | error cause => exact fails call calls template cause rfl rfl
          | ok fact => exact builds call calls template fact rfl rfl hfact
      | built fact => exact enqueues call calls fact rfl rfl

theorem made_finish (producer : Producer) (call : MakeCall) (calls : List MakeCall) (result : MakeResult) :
    (producer.finish call calls result).made = producer.made ++ result.toOption.toList := by
  rw [made, finish, List.filterMap_append, ← made]
  cases result <;> rfl

theorem held_finish (producer : Producer) (call : MakeCall) (calls : List MakeCall) (result : MakeResult) :
    (producer.finish call calls result).held = [] := by
  cases calls <;> rfl

theorem allCalls_finish {producer : Producer} {call : MakeCall} {calls : List MakeCall}
    (hcalls : producer.calls = call :: calls) (result : MakeResult) :
    (producer.finish call calls result).allCalls = producer.allCalls := by
  simp only [allCalls, finish, hcalls, List.map_append, List.map_cons, List.map_nil, List.append_assoc,
    List.singleton_append]

theorem allCalls_step (producer : Producer) (store : Store) : (producer.step store).1.allCalls = producer.allCalls := by
  refine step_cases (P := fun next _ _ _ => next.allCalls = producer.allCalls) rfl ?misses (fun _ _ _ _ _ _ => rfl)
    ?fails (fun _ _ _ _ _ _ _ => rfl) ?enqueues
  case misses => exact fun _ _ hcalls _ => allCalls_finish hcalls _
  case fails => exact fun _ _ _ _ hcalls _ => allCalls_finish hcalls _
  case enqueues => exact fun _ _ _ hcalls _ => allCalls_finish hcalls _

end Producer

/-- Working memory, its producers, and the loop that drains it. -/
structure Supply where
  store : Store
  producers : List Producer
  /-- The batch that a drain has taken, before it is live. -/
  hand : Option (List FactRef) := none
  /-- The batches that drains have put among the live facts, the first one first. -/
  placed : List (List FactRef) := []
  /-- The ids that were given out, in order. -/
  ids : List FactId := []
  /-- The facts that were enqueued, in order, each with the place of its producer. -/
  entered : List (Nat × FactRef) := []

/-- A step of a producer, of the loop, or of somebody else who uses memory. -/
inductive SupplyEvent where
  | produce (index : Nat)
  /-- The loop takes the queue, or puts what it has taken among the live facts. -/
  | drain
  /-- The loop removes a fact, unless it is in the middle of a drain. -/
  | remove (ref : FactRef)
  | register (template : Template)
  | write (ref : FactRef) (values : List (String × Value))
  | wake

namespace Supply

def start (store : Store) (calls : List (List MakeCall)) : Supply where
  store
  producers := calls.map fun calls => { calls }

/-- The batches that were drained, one after the other, and then the queue. -/
def queued (supply : Supply) : List FactRef :=
  supply.placed.flatten ++ supply.hand.getD [] ++ supply.store.pending

/-- The facts that a producer has made, in order. -/
def madeBy (supply : Supply) (index : Nat) : List FactRef :=
  match supply.producers[index]? with
  | some producer => producer.made
  | none => []

def produce (supply : Supply) (index : Nat) : Supply :=
  match supply.producers[index]? with
  | none => supply
  | some producer =>
    let (next, store) := producer.step supply.store
    { supply with
      store
      producers := supply.producers.set index next
      ids := supply.ids ++ producer.takes supply.store
      entered := supply.entered ++ (producer.enters supply.store).map (index, ·) }

/-- The supply when a producer has gone on, with the ids that it has taken and the facts that it has enqueued. -/
def advance (supply : Supply) (index : Nat) (next : Producer) (store : Store) (taken : List FactId)
    (entered : List FactRef) : Supply :=
  { supply with
    store
    producers := supply.producers.set index next
    ids := supply.ids ++ taken
    entered := supply.entered ++ entered.map (index, ·) }

def drain (supply : Supply) : Supply :=
  let store := supply.store
  match supply.hand with
  | none => { supply with store := { store with pending := [] }, hand := some store.pending }
  | some batch =>
    { supply with
      store := { store with live := batch.foldl store.enliven store.live }
      hand := none
      placed := supply.placed ++ [batch] }

def step (supply : Supply) : SupplyEvent → Supply
  | .produce index => supply.produce index
  | .drain => supply.drain
  | .remove ref => if supply.hand.isNone then { supply with store := (supply.store.remove ref).2 } else supply
  | .register template => { supply with store := supply.store.register template }
  | .write ref values => { supply with store := (supply.store.setMany ref values).2 }
  | .wake => { supply with store := supply.store.wake }

def run (supply : Supply) (events : List SupplyEvent) : Supply := events.foldl step supply

/-- A drain with nothing between its two steps. -/
theorem store_drain_drain {supply : Supply} (h : supply.hand = none) :
    supply.drain.drain.store = supply.store.drain := by
  simp only [drain, h]
  rfl

end Supply

end ProductionSystem
