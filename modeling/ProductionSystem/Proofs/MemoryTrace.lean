import ProductionSystem.Proofs.BuiltinScripts
import ProductionSystem.Proofs.EngineActs
import ProductionSystem.Proofs.FactShapes

/-!
What an engine does to working memory, operation by operation. Statements that are loaded, commands on the loop and with
the workers, the loop itself and all others come to it by operations only. The trace of a history lists them in
order, and whoever performs the trace comes to the same memory.
-/

namespace ProductionSystem

/-- Templates that are built field by field. -/
inductive Template.Built : Template → Prop
  | new (type : String) : Built { type }
  | withField {template : Template} (h : template.Built) (name : String) (default : Value) :
      Built (template.withField name default)

theorem Template.built_withFields {template : Template} (h : template.Built) (fields : Fields) :
    (template.withFields fields).Built :=
  List.foldlRecOn (motive := Built) fields _ h fun _ h field _ => h.withField field.1 field.2

namespace Operation

/-- Is an operation a drain that may have to wait, and others act meanwhile? -/
def waits : Operation → Bool
  | drainSince _ _ _ | drainBlocking _ _ => true
  | _ => false

/-- Is an operation a single one, and one by which facts enter memory only through being made, from templates that
were built? -/
def Lawful : Operation → Prop
  | register template => template.Built
  | create _ _ _ | enqueue _ | drainSince _ _ _ | drainBlocking _ _ => False
  | _ => True

end Operation

/-- Are all calls of a script lawful operations? -/
def Script.Lawful {R : Type} : Script R → Prop
  | done _ => True
  | look next => ∀ workspace, (next workspace).Lawful
  | register template next => template.Built ∧ next.Lawful
  | make _ _ next => ∀ result, (next result).Lawful
  | enqueue _ _ => False
  | modify _ _ next => ∀ result, (next result).Lawful
  | wake next | halt next | write _ next => next.Lawful

namespace Store

variable (store : Store)

/-- Memory after an operation. -/
def operate (operation : Operation) : Store := (({ store } : Session).step operation).2.store

/-- Memory after operations, one after the other. -/
def undergo (operations : List Operation) : Store := operations.foldl operate store

theorem undergo_append (operations later : List Operation) :
    store.undergo (operations ++ later) = (store.undergo operations).undergo later := List.foldl_append

/-- An operation on an unknown instance changes nothing. -/
theorem operate_of_unknown {operation : Operation} {ref : FactRef} (hsubject : operation.subject? = some ref)
    (hunknown : store.fact? ref = none) : store.operate operation = store := by
  simp [operate, Session.step, hsubject, hunknown]

theorem operate_of_known {operation : Operation} {ref : FactRef} (hsubject : operation.subject? = some ref)
    {fact : Fact} (hfact : store.fact? ref = some fact) :
    store.operate operation = (({ store } : Session).perform operation).2.store := by
  simp [operate, Session.step, hsubject, hfact]

theorem operate_setMany (ref : FactRef) (values : List (String × Value)) :
    store.operate (.setMany ref values) = (store.setMany ref values).2 := by
  cases hfact : store.fact? ref with
  | none =>
      rw [operate_of_unknown store rfl hfact, setMany, hfact]
  | some fact => rw [operate_of_known store rfl hfact]; rfl

theorem operate_set (ref : FactRef) (field : String) (value : Value) :
    store.operate (.set ref field value) = (store.set ref field value).2 := by
  cases hfact : store.fact? ref with
  | none => rw [operate_of_unknown store rfl hfact, set, hfact]
  | some fact => rw [operate_of_known store rfl hfact]; rfl

theorem operate_remove (ref : FactRef) : store.operate (.remove ref) = (store.remove ref).2 := by
  cases hfact : store.fact? ref with
  | none => rw [operate_of_unknown store rfl hfact, remove, hfact]
  | some fact => rw [operate_of_known store rfl hfact]; rfl

theorem undergo_removals (refs : List FactRef) :
    store.undergo (refs.map .remove) = refs.foldl (fun store ref => (store.remove ref).2) store := by
  rw [undergo, List.foldl_map]
  exact congrArg (fun step => refs.foldl step store) (funext fun store => funext store.operate_remove)

end Store

section Waiting

/-- What a signal does to memory. -/
def Signal.operation : Signal → Operation
  | make type overrides => .make type overrides
  | wake | halt => .wake

/-- What others do to memory during a wait. -/
def Workspace.awaited (seen : UInt64) (deadline : Option Nat) (workspace : Workspace) : List Arrival → List Operation
  | [] => []
  | arrival :: later =>
    if deadline.all (arrival.time ≤ ·) then
      let workspace := workspace.receive arrival.signal
      arrival.signal.operation :: if workspace.store.quietSince seen then workspace.awaited seen deadline later else []
    else []

theorem Workspace.store_await (seen : UInt64) (deadline : Option Nat) (workspace : Workspace)
    (arrivals : List Arrival) :
    (workspace.await seen deadline arrivals).workspace.store =
      workspace.store.undergo (workspace.awaited seen deadline arrivals) := by
  induction arrivals generalizing workspace with
  | nil => rfl
  | cons arrival later ih =>
      have hreceive : (workspace.receive arrival.signal).store = workspace.store.operate arrival.signal.operation := by
        cases arrival.signal <;> rfl
      simp only [await, awaited]
      split
      · split
        · rw [ih, hreceive]
          rfl
        · exact hreceive
      · rfl

theorem Workspace.lawful_awaited (seen : UInt64) (deadline : Option Nat) (workspace : Workspace)
    (arrivals : List Arrival) : ∀ operation ∈ workspace.awaited seen deadline arrivals, operation.Lawful := by
  induction arrivals generalizing workspace with
  | nil => exact List.forall_mem_nil _
  | cons arrival later ih =>
      have hsignal : arrival.signal.operation.Lawful := by cases arrival.signal <;> exact trivial
      unfold awaited
      split
      · refine List.forall_mem_cons.2 ⟨hsignal, ?_⟩
        split
        · exact ih _
        · exact List.forall_mem_nil _
      · exact List.forall_mem_nil _

namespace Store

/-- A drain that may have to wait, operation by operation. -/
def drainOperations (store : Store) (seen : UInt64) (timeout : Option Nat) (arrivals : List Arrival) : List Operation :=
  if store.quietSince seen then
    ({ store } : Workspace).awaited seen timeout arrivals ++
      if (({ store } : Workspace).await seen timeout arrivals).signal?.isSome || timeout.isSome then [.drain] else []
  else [.drain]

/-- An operation, with what others do while it waits. -/
def singly (store : Store) : Operation → List Operation
  | .drainSince seen timeout arrivals => store.drainOperations seen timeout arrivals
  | .drainBlocking timeout arrivals => store.drainOperations store.epoch timeout arrivals
  | operation => [operation]

theorem undergo_drainOperations (store : Store) (seen : UInt64) (timeout : Option Nat) (arrivals : List Arrival) :
    (store.drainSince seen timeout arrivals).2 = store.undergo (store.drainOperations seen timeout arrivals) := by
  rw [drainSince_eq, drainOperations]
  split
  · have hwaited := Workspace.store_await seen timeout { store } arrivals
    dsimp only at hwaited ⊢
    rw [undergo_append, ← hwaited]
    split <;> rfl
  · rfl

theorem operate_eq_undergo (store : Store) (operation : Operation) :
    store.operate operation = store.undergo (store.singly operation) := by
  cases operation with
  | drainSince seen timeout arrivals => exact store.undergo_drainOperations seen timeout arrivals
  | drainBlocking timeout arrivals => exact store.undergo_drainOperations store.epoch timeout arrivals
  | _ => rfl

theorem lawful_singly {store : Store} {operation : Operation} (h : operation.waits = true ∨ operation.Lawful) :
    ∀ single ∈ store.singly operation, single.Lawful := by
  have hdrain (seen : UInt64) (timeout : Option Nat) (arrivals : List Arrival) :
      ∀ single ∈ store.drainOperations seen timeout arrivals, single.Lawful := by
    intro single hsingle
    unfold drainOperations at hsingle
    split at hsingle
    · rcases List.mem_append.1 hsingle with hsingle | hsingle
      · exact Workspace.lawful_awaited seen timeout { store } arrivals single hsingle
      · split at hsingle
        · rw [List.mem_singleton.1 hsingle]
          exact trivial
        · cases hsingle
    · rw [List.mem_singleton.1 hsingle]
      exact trivial
  cases operation with
  | drainSince seen timeout arrivals => exact hdrain seen timeout arrivals
  | drainBlocking timeout arrivals => exact hdrain store.epoch timeout arrivals
  | _ => exact List.forall_mem_singleton.2 (h.resolve_left Bool.noConfusion)

end Store

end Waiting

namespace Script

variable {R : Type}

/-- The calls of a script, as operations. -/
def operations : Script R → Workspace → List Operation
  | done _, _ => []
  | look next, workspace => (next workspace).operations workspace
  | register template next, workspace =>
    .register template :: next.operations (workspace.withStore (workspace.store.register template))
  | make type overrides next, workspace =>
    let (result, store) := workspace.store.make type overrides
    .make type overrides :: (next result).operations (workspace.withStore store)
  | enqueue ref next, workspace => .enqueue ref :: next.operations (workspace.withStore (workspace.store.enqueue ref))
  | wake next, workspace => .wake :: next.operations (workspace.withStore workspace.store.wake)
  | halt next, workspace => .wake :: next.operations workspace.halt
  | modify ref values next, workspace =>
    let (result, store) := workspace.store.setMany ref values
    .setMany ref values :: (next result).operations (workspace.withStore store)
  | write line next, workspace => next.operations (workspace.write line)

variable {script : Script R} (h : script.Lawful) (workspace : Workspace)

include h

theorem store_finish : (script.finish workspace).2.store = workspace.store.undergo (script.operations workspace) := by
  induction script generalizing workspace with
  | done result => rfl
  | look next ih => exact ih workspace (h workspace) workspace
  | register template next ih => exact ih h.2 _
  | make type overrides next ih => exact ih _ (h _) _
  | enqueue ref next ih => exact h.elim
  | wake next ih => exact ih h _
  | halt next ih => exact ih h _
  | modify ref values next ih =>
      refine (ih _ (h _) _).trans ?_
      rw [operations, Store.undergo, Store.undergo, List.foldl_cons, Store.operate_setMany]
      rfl
  | write line next ih => exact ih h _

theorem lawful_operations : ∀ operation ∈ script.operations workspace, operation.Lawful := by
  induction script generalizing workspace with
  | done result => exact List.forall_mem_nil _
  | look next ih => exact ih workspace (h workspace) workspace
  | register template next ih => exact List.forall_mem_cons.2 ⟨h.1, ih h.2 _⟩
  | make type overrides next ih => exact List.forall_mem_cons.2 ⟨trivial, ih _ (h _) _⟩
  | enqueue ref next ih => exact h.elim
  | wake next ih | halt next ih => exact List.forall_mem_cons.2 ⟨trivial, ih h _⟩
  | modify ref values next ih => exact List.forall_mem_cons.2 ⟨trivial, ih _ (h _) _⟩
  | write line next ih => exact ih h _

end Script

section Loads

/-- What a statement does to memory. -/
def Statement.operations : Statement → List Operation
  | literalize template => [.register template]
  | make type values => [.make type values]
  | rule _ | skipped => []

namespace Loading

variable (registry : Registry)

/-- What the statement that a part of a file is does to memory. -/
def singleOperations (json : Json) : List Operation :=
  match Statement.ofJson registry json with
  | .ok statement => statement.operations
  | .error _ => []

/-- What statements do to memory, up to the first that fails. -/
def operations (loading : Loading) : List Json → List Operation
  | [] => []
  | json :: rest =>
    singleOperations registry json ++
      match loading.step registry json with
      | (.ok (), next) => next.operations rest
      | (.error _, _) => []

theorem store_step (loading : Loading) (json : Json) :
    (loading.step registry json).2.engine.store = loading.engine.store.undergo (singleOperations registry json) := by
  unfold step singleOperations
  cases Statement.ofJson registry json with
  | error problem => rfl
  | ok statement =>
      cases statement with
      | literalize _ | rule _ | skipped => rfl
      | make type values =>
          have hmake : (loading.engine.make type values).2.store =
              loading.engine.store.undergo [.make type values] := rfl
          simp only [apply]
          cases hresult : loading.engine.make type values with
          | mk result next =>
              rw [hresult] at hmake
              cases result <;> exact hmake

theorem lawful_singleOperations (json : Json) : ∀ operation ∈ singleOperations registry json, operation.Lawful := by
  unfold singleOperations
  cases hstatement : Statement.ofJson registry json with
  | error problem => exact List.forall_mem_nil _
  | ok statement =>
      cases Statement.ofJson_eq_ok_iff.1 hstatement with
      | literalize _ => exact List.forall_mem_singleton.2 (Template.built_withFields (.new _) _)
      | make _ => exact List.forall_mem_singleton.2 trivial
      | rule _ _ | short _ | unknown _ => exact List.forall_mem_nil _

theorem store_steps (loading : Loading) (index : Nat) (ops : List Json) :
    (loading.steps registry index ops).2.engine.store =
      loading.engine.store.undergo (loading.operations registry ops) := by
  induction ops generalizing loading index with
  | nil => rfl
  | cons json rest ih =>
      have hstep := store_step registry loading json
      rw [steps, operations, Store.undergo_append, ← hstep]
      cases loading.step registry json with
      | mk result next =>
          cases result with
          | ok _ => exact ih next (index + 1)
          | error cause => rfl

theorem lawful_operations (loading : Loading) (ops : List Json) :
    ∀ operation ∈ loading.operations registry ops, operation.Lawful := by
  induction ops generalizing loading with
  | nil => exact List.forall_mem_nil _
  | cons json rest ih =>
      refine List.forall_mem_append.2 ⟨lawful_singleOperations registry json, ?_⟩
      split
      · exact ih _
      · exact List.forall_mem_nil _

end Loading

namespace Engine

variable (engine : Engine) (registry : Registry)

def documentOperations (json : Json) : List Operation :=
  match Document.ofJson json with
  | .error _ => []
  | .ok document =>
    match document.ops with
    | none => []
    | some ops => ({ engine, summary := { name := document.name } } : Loading).operations registry ops

def textOperations (text : String) : List Operation :=
  match Json.read? nestingLimit text with
  | some json => engine.documentOperations registry json
  | none => []

/-- What a load does to memory. -/
def loadOperations : LoadSource → List Operation
  | .document json => engine.documentOperations registry json
  | .text text => engine.textOperations registry text
  | .file _ (.ok text) => engine.textOperations registry text
  | .file _ (.error _) => []

theorem store_load (source : LoadSource) :
    (engine.load registry source).2.store = engine.store.undergo (engine.loadOperations registry source) := by
  have hdocument (json : Json) : (engine.loadDocument registry json).2.store =
      engine.store.undergo (engine.documentOperations registry json) := by
    unfold loadDocument documentOperations
    cases Document.ofJson json with
    | error problem => rfl
    | ok document =>
        dsimp only
        cases document.ops with
        | none => rfl
        | some ops =>
            have hsteps := Loading.store_steps registry { engine, summary := { name := document.name } } 0 ops
            dsimp only at hsteps ⊢
            rw [← hsteps]
            split <;> rename_i heq <;> rw [heq]
            · rw [store, Loading.finish, workspace_addRules]
              rfl
  have htext (text : String) : (engine.loadText registry text).2.store =
      engine.store.undergo (engine.textOperations registry text) := by
    unfold loadText textOperations
    cases Json.read? nestingLimit text with
    | none => rfl
    | some json => exact hdocument json
  cases source with
  | document json => exact hdocument json
  | text text => exact htext text
  | file path contents =>
      cases contents with
      | error reason => rfl
      | ok text =>
          refine Eq.trans ?_ (htext text)
          simp only [load, loadFile]
          split <;> rename_i heq <;> rw [heq]

theorem lawful_loadOperations (source : LoadSource) :
    ∀ operation ∈ engine.loadOperations registry source, operation.Lawful := by
  have hdocument (json : Json) : ∀ operation ∈ engine.documentOperations registry json, operation.Lawful := by
    unfold documentOperations
    split
    · exact List.forall_mem_nil _
    · split
      · exact List.forall_mem_nil _
      · exact Loading.lawful_operations registry _ _
  have htext (text : String) : ∀ operation ∈ engine.textOperations registry text, operation.Lawful := by
    unfold textOperations
    split
    · exact hdocument _
    · exact List.forall_mem_nil _
  cases source with
  | document json => exact hdocument json
  | text text => exact htext text
  | file path contents =>
      cases contents with
      | error reason => exact List.forall_mem_nil _
      | ok text => exact htext text

end Engine

end Loads

/-- Does a reading give a script for a command that does what the command does, by lawful operations only? -/
def Reading.Lawful (reading : Reading) (command : Command) : Prop :=
  reading.Fits command ∧ ∀ args firing, (reading command args firing).Lawful

theorem Builtin.lawful_script (builtin : Builtin) (args : List Value) (firing : Firing) :
    (builtin.script args firing).Lawful := by
  have halone (builtin : Builtin) : (builtin.alone args firing).Lawful := trivial
  unfold script
  split
  · exact trivial
  · split
    · exact fun _ => trivial
    · exact halone make
  · split
    · split
      · exact fun _ => trivial
      · exact halone modify
    · exact halone modify
  · exact trivial
  · exact halone _

/-- The built-in commands use memory lawfully. -/
theorem Builtin.lawful_reading (builtin : Builtin) (mode : Mode) : reading.Lawful { builtin.command with mode } := by
  refine ⟨fits_reading builtin mode, fun args firing => ?_⟩
  rw [reading_command]
  exact builtin.lawful_script args firing

theorem Registry.lawful_of_builtins {command : Command} (h : builtins.Names command) :
    Builtin.reading.Lawful command := by
  obtain ⟨builtin, rfl⟩ := exists_of_names_builtins h
  exact builtin.lawful_reading .sync

namespace Engine

variable (reading : Reading) (engine : Engine)

/-- What a command does to memory. -/
def execOperations (command : Command) (args : List Value) (firing : Firing) : List Operation :=
  (reading command args firing).operations engine.workspace

/-- What an action does to memory when it is dispatched. -/
def dispatchOperations (firing : Firing) (action : Action) : List Operation :=
  match Param.resolveAll firing.bindings action.params with
  | .error _ => []
  | .ok args =>
    match action.command.mode with
    | .sync =>
      engine.execOperations reading action.command args firing ++
        (engine.exec action.command args firing).1.removals.map .remove
    | .async => if engine.executor.pool.accepting then [] else [.wake]

variable {reading}

theorem store_exec {command : Command} (h : reading.Lawful command) (args : List Value) (firing : Firing) :
    (engine.exec command args firing).2.store =
      engine.store.undergo (engine.execOperations reading command args firing) := by
  have hfinish := Script.store_finish (h.2 args firing) engine.workspace
  rw [h.1] at hfinish
  refine Eq.trans ?_ hfinish
  unfold exec
  cases command.run args ⟨firing, engine.workspace⟩ with
  | mk failure next => cases failure <;> rfl

theorem store_handOver (command : Command) (args : List Value) (firing : Firing) :
    (engine.handOver command args firing).store =
      engine.store.undergo (if engine.executor.pool.accepting then [] else [.wake]) := by
  obtain ⟨config, matchers, ⟨⟨workers, accepting, queue⟩, tickets, issued⟩, workspace, rules, added, state, lastFired,
    firings, failures⟩ := engine
  cases accepting <;> rfl

theorem store_dispatch {action : Action} (h : reading.Lawful action.command) (firing : Firing) :
    (dispatch firing engine action).2.store =
      engine.store.undergo (engine.dispatchOperations reading firing action) := by
  unfold dispatch dispatchOperations
  cases Param.resolveAll firing.bindings action.params with
  | error cause => rfl
  | ok args =>
      dsimp only
      cases action.command.mode with
      | sync =>
          rw [Store.undergo_append, ← store_exec engine h, Store.undergo_removals]
          rfl
      | async => exact engine.store_handOver action.command args firing

theorem lawful_dispatchOperations {action : Action} (h : reading.Lawful action.command) (firing : Firing) :
    ∀ operation ∈ engine.dispatchOperations reading firing action, operation.Lawful := by
  unfold dispatchOperations
  split
  · exact List.forall_mem_nil _
  · split
    · refine List.forall_mem_append.2 ⟨Script.lawful_operations (h.2 _ firing) engine.workspace, ?_⟩
      exact List.forall_mem_map.2 fun _ _ => trivial
    · split
      · exact List.forall_mem_nil _
      · exact List.forall_mem_singleton.2 trivial

end Engine

namespace Machine

variable (reading : Reading)

/-- What the next move of the loop does to memory. -/
def loopOperations (machine : Machine) : List Operation :=
  match machine.point with
  | .drain | .listen _ => [.drain]
  | .wait seen => if machine.engine.store.quietSince seen then [] else [.drain]
  | .act firing (action :: _) => machine.engine.dispatchOperations reading firing action
  | _ => []

/-- What an act that need not wait does to memory. -/
def grantOperations (machine : Machine) : Act → List Operation
  | .load registry source => machine.engine.loadOperations registry source
  | .memory operation => machine.engine.store.singly operation
  | .reset => if machine.engine.outstanding = 0 then [.reset] else []
  | .halt => [.wake]
  | .loop => machine.loopOperations reading
  | .perform index =>
    match machine.taken[index]? with
    | some job => machine.engine.execOperations reading job.2.command job.2.args job.2.firing
    | none => []
  | .release index => if machine.spent[index]?.isSome then [.wake] else []
  | _ => []

def actOperations (machine : Machine) (act : Act) : List Operation :=
  if act.isForOwner && !machine.rests then [] else machine.grantOperations reading act

/-- What a history does to memory. -/
def trace (machine : Machine) : List Act → List Operation
  | [] => []
  | act :: acts => machine.actOperations reading act ++ (machine.act act).2.trace acts

end Machine

/-- Does an act bring in lawful commands only, and use memory lawfully? -/
def Act.Lawful (reading : Reading) (act : Act) : Prop :=
  (∀ command, act.Brings command → reading.Lawful command) ∧
    match act with
    | .memory operation => operation.waits = true ∨ operation.Lawful
    | _ => True

namespace Machine

variable {reading : Reading} {config : Config} {machine : Machine}

theorem lawful_of_begun (h : ∀ command ∈ machine.commands, reading.Lawful command) {firing : Firing} {action : Action}
    {actions : List Action} (hpoint : machine.point = .act firing (action :: actions)) :
    reading.Lawful action.command :=
  h _ (mem_commands_iff.2 (.inr (.inl (by rw [hpoint]; exact List.mem_cons_self))))

theorem lawful_of_taken (h : ∀ command ∈ machine.commands, reading.Lawful command) {index : Nat} {job : Ticket × Job}
    (hjob : machine.taken[index]? = some job) : reading.Lawful job.2.command :=
  h _ (mem_commands_iff.2 (.inr (.inr ⟨job, List.mem_of_getElem? hjob, rfl⟩)))

theorem store_loop (h : ∀ command ∈ machine.commands, reading.Lawful command) :
    machine.loop.engine.store = machine.engine.store.undergo (machine.loopOperations reading) := by
  obtain ⟨engine, point, limit, fired, taken, spent⟩ := machine
  cases point with
  | act firing actions =>
      cases actions with
      | nil => rfl
      | cons action actions => exact engine.store_dispatch (lawful_of_begun h rfl) firing
  | between _ | readEpoch | drain | listen _ | lookForFacts _ | lookForHalt _ | lookForHaltAgain | countTicketsAgain =>
      rfl
  | matching =>
      simp only [Machine.loop]
      split <;> rfl
  | start =>
      simp only [Machine.loop]
      split
      · rfl
      · split <;> rfl
  | countTickets seen =>
      simp only [Machine.loop]
      split
      · rfl
      · split <;> rfl
  | wait seen =>
      simp only [Machine.loop, loopOperations]
      split <;> rfl
  | close outcome =>
      cases outcome with
      | stepLimit => rfl
      | halted | quiescent =>
          simp only [Machine.loop]
          split <;> rfl

theorem store_grant (hsound : machine.Sound config) (h : ∀ command ∈ machine.commands, reading.Lawful command)
    (act : Act) :
    (machine.grant act).2.engine.store = machine.engine.store.undergo (machine.grantOperations reading act) := by
  cases act with
  | addRules rules => exact congrArg Workspace.store (Engine.workspace_addRules machine.engine rules)
  | load registry source => exact machine.engine.store_load registry source
  | memory operation => exact machine.engine.store.operate_eq_undergo operation
  | begin limit | dismiss =>
      simp only [grant, step]
      split <;> rfl
  | reset =>
      simp only [grant, grantOperations]
      split
      · -- no job is under way, so there is none to settle first
        rename_i hzero
        have hsettle := Engine.settle_of_queue_eq_nil
          (List.eq_nil_of_length_eq_zero (hsound.nothing_under_way hzero).1)
        exact congrArg (fun engine : Engine => engine.store.reset) hsettle
      · rfl
  | loop => exact store_loop h
  | take =>
      simp only [grant, Machine.take]
      split <;> rfl
  | perform index =>
      simp only [grant, grantOperations, Machine.perform]
      cases hjob : machine.taken[index]? with
      | none => rfl
      | some job => exact machine.engine.store_exec (lawful_of_taken h hjob) job.2.args job.2.firing
  | release index =>
      simp only [grant, grantOperations, Machine.release]
      cases machine.spent[index]? <;> rfl
  | snapshot | search _ _ _ | look | template _ | get _ | fact _ | halt | lower => rfl

theorem store_act (hsound : machine.Sound config) (h : ∀ command ∈ machine.commands, reading.Lawful command)
    (act : Act) :
    (machine.act act).2.engine.store = machine.engine.store.undergo (machine.actOperations reading act) := by
  unfold Machine.act actOperations
  split
  · rfl
  · exact store_grant hsound h act

theorem lawful_actOperations (h : ∀ command ∈ machine.commands, reading.Lawful command) {act : Act}
    (hact : act.Lawful reading) : ∀ operation ∈ machine.actOperations reading act, operation.Lawful := by
  have hone {operation : Operation} (h : operation.Lawful) : ∀ other ∈ [operation], other.Lawful :=
    List.forall_mem_singleton.2 h
  unfold actOperations
  split
  · exact List.forall_mem_nil _
  · cases act with
    | load registry source => exact machine.engine.lawful_loadOperations registry source
    | memory operation => exact Store.lawful_singly hact.2
    | reset =>
        simp only [grantOperations]
        split
        · exact hone trivial
        · exact List.forall_mem_nil _
    | halt => exact hone trivial
    | loop =>
        simp only [grantOperations, loopOperations]
        split
        · exact hone trivial
        · exact hone trivial
        · split
          · exact List.forall_mem_nil _
          · exact hone trivial
        · rename_i hpoint
          exact machine.engine.lawful_dispatchOperations (lawful_of_begun h hpoint) _
        · exact List.forall_mem_nil _
    | perform index =>
        simp only [grantOperations]
        cases hjob : machine.taken[index]? with
        | none => exact List.forall_mem_nil _
        | some job => exact Script.lawful_operations ((lawful_of_taken h hjob).2 _ _) _
    | release index =>
        simp only [grantOperations]
        split
        · exact hone trivial
        · exact List.forall_mem_nil _
    | _ => exact List.forall_mem_nil _

/-- **The trace is what memory went through.** -/
theorem store_acts (hsound : machine.Sound config) (h : ∀ command ∈ machine.commands, reading.Lawful command)
    {acts : List Act} (hacts : ∀ act ∈ acts, act.Lawful reading) :
    (machine.acts acts).2.engine.store = machine.engine.store.undergo (machine.trace reading acts) ∧
      ∀ operation ∈ machine.trace reading acts, operation.Lawful := by
  induction acts generalizing machine with
  | nil => exact ⟨rfl, List.forall_mem_nil _⟩
  | cons act acts ih =>
      obtain ⟨hact, hrest⟩ := List.forall_mem_cons.1 hacts
      have hnext : ∀ command ∈ (machine.act act).2.commands, reading.Lawful command :=
        fun command hcommand => (of_mem_commands_act hcommand).elim (h command) (hact.1 command)
      obtain ⟨hstore, hlawful⟩ := ih (hsound.act act) hnext hrest
      refine ⟨hstore.trans ?_, List.forall_mem_append.2 ⟨lawful_actOperations h hact, hlawful⟩⟩
      rw [store_act hsound h act, trace, Store.undergo_append]

end Machine

end ProductionSystem
