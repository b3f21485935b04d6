import ProductionSystem.Proofs.ActionFates
import ProductionSystem.Proofs.EngineActs

/-!
The failures are a log. An engine adds to it and never reads it, so what failed shows nowhere else: an engine goes on
as if nothing had been reported.
-/

namespace ProductionSystem

/-- The engine, as if nothing had been reported. -/
def Engine.unreported (engine : Engine) : Engine := { engine with failures := #[] }

/-- The machine, as if nothing had been reported. -/
def Machine.unreported (machine : Machine) : Machine := { machine with engine := machine.engine.unreported }

/-- The reply, as if nothing had been reported. -/
def Reply.unreported : Reply → Reply
  | .sight seen => .sight { seen with failures := #[] }
  | reply => reply

namespace Engine

variable (engine : Engine)

theorem addRules_unreported (rules : List Rule) :
    engine.unreported.addRules rules = (engine.addRules rules).unreported := by
  have hinstall : rules.foldl install engine.unreported = (rules.foldl install engine).unreported :=
    List.foldl_hom unreported fun _ _ => rfl
  rw [addRules, addRules, hinstall]
  unfold arrange unreported
  dsimp only
  split <;> rfl

theorem loadMap_unreported : LoadMap unreported id where
  register _ _ := rfl
  make _ _ _ := Prod.ext (Except.map_id ▸ rfl) rfl
  addRules engine rules := engine.addRules_unreported rules

theorem exec_unreported (command : Command) (args : List Value) (firing : Firing) :
    (engine.unreported.exec command args firing).1 = (engine.exec command args firing).1 ∧
      (engine.unreported.exec command args firing).2.unreported = (engine.exec command args firing).2.unreported := by
  have hworkspace : engine.unreported.workspace = engine.workspace := rfl
  simp only [exec, hworkspace]
  cases command.run args ⟨firing, engine.workspace⟩ with
  | mk failure after => cases failure <;> exact ⟨rfl, rfl⟩

theorem dispatch_unreported (firing : Firing) (action : Action) :
    (engine.unreported.dispatch firing action).1 = (engine.dispatch firing action).1 ∧
      (engine.unreported.dispatch firing action).2.unreported = (engine.dispatch firing action).2.unreported := by
  unfold dispatch
  cases Param.resolveAll firing.bindings action.params with
  | error cause => exact ⟨rfl, rfl⟩
  | ok args =>
      cases action.command.mode with
      | sync =>
          obtain ⟨hfiring, hengine⟩ := engine.exec_unreported action.command args firing
          dsimp only [applyRemovals]
          rw [hfiring]
          refine ⟨rfl, ?_⟩
          exact congrArg (fun middle : Engine => middle.withStore (List.foldl (fun store ref => (store.remove ref).2)
            middle.store (engine.exec action.command args firing).1.removals)) hengine
      | async =>
          refine ⟨rfl, ?_⟩
          show (engine.unreported.handOver action.command args firing).unreported =
            (engine.handOver action.command args firing).unreported
          have hexecutor : engine.unreported.executor = engine.executor := rfl
          simp only [handOver_eq, hexecutor]
          split
          · rfl
          · rfl

theorem perform_unreported {engine engine' : Engine} (h : engine.unreported = engine'.unreported)
    (job : Ticket × Job) : (engine.perform job).unreported = (engine'.perform job).unreported := by
  have hstep (engine : Engine) : (engine.unreported.perform job).unreported = (engine.perform job).unreported :=
    congrArg (fun done : Engine =>
      { done.withStore (done.executor.release done.store job.1).2 with
        executor := (done.executor.release done.store job.1).1 }) (engine.exec_unreported job.2.command job.2.args job.2.firing).2
  rw [← hstep, h, hstep]

theorem settle_unreported : engine.unreported.settle.unreported = engine.settle.unreported := by
  have hfold (jobs : List (Ticket × Job)) {engine engine' : Engine} (h : engine.unreported = engine'.unreported) :
      (jobs.foldl perform engine).unreported = (jobs.foldl perform engine').unreported := by
    induction jobs generalizing engine engine' with
    | nil => exact h
    | cons job jobs ih => exact ih (perform_unreported h job)
  exact hfold _ rfl

theorem reset_unreported : engine.unreported.reset = engine.reset :=
  congrArg (fun settled : Engine =>
    { settled with
      rules := []
      workspace := { settled.workspace with store := settled.store.reset, halted := false }
      lastFired := none
      firings := 0
      failures := #[]
      state := .idle }) engine.settle_unreported

end Engine

namespace Machine

variable (machine : Machine)

theorem loop_unreported : machine.unreported.loop.unreported = machine.loop.unreported := by
  obtain ⟨engine, point, limit, fired, taken, spent⟩ := machine
  have hworkspace : engine.unreported.workspace = engine.workspace := rfl
  have hstore : engine.unreported.store = engine.store := rfl
  have houtstanding : engine.unreported.outstanding = engine.outstanding := rfl
  have htimeout : engine.unreported.config = engine.config := rfl
  have hchoose : engine.unreported.choose = engine.choose := rfl
  show (loop ⟨engine.unreported, point, limit, fired, taken, spent⟩).unreported = _
  cases point with
  | between _ | drain | readEpoch => rfl
  | act firing actions =>
      cases actions with
      | nil => rfl
      | cons action actions =>
          obtain ⟨hfiring, hengine⟩ := engine.dispatch_unreported firing action
          simp only [loop, unreported, hfiring, hengine]
  | start | matching | lookForFacts _ | lookForHalt _ | wait _ | listen _ | lookForHaltAgain | countTicketsAgain =>
      simp only [loop, hworkspace, hstore, houtstanding, hchoose]
      split
      · rfl
      · first | rfl | split <;> rfl
  | countTickets _ =>
      simp only [loop, houtstanding, htimeout]
      split
      · rfl
      · split <;> rfl
  | close outcome =>
      cases outcome with
      | stepLimit => rfl
      | halted | quiescent =>
          simp only [loop, houtstanding]
          split <;> rfl

theorem report_unreported : machine.unreported.report = machine.report := by
  have hlast := congrArg returned machine.loop_unreported
  have hreturned : machine.unreported.loop.returned = machine.loop.returned := hlast
  have hrests : machine.unreported.rests = machine.rests := rfl
  have hfired : machine.unreported.fired = machine.fired := rfl
  simp only [report, hrests, hreturned, hfired]

theorem grant_unreported (act : Act) :
    (machine.unreported.grant act).1.unreported = (machine.grant act).1.unreported ∧
      (machine.unreported.grant act).2.unreported = (machine.grant act).2.unreported := by
  obtain ⟨engine, point, limit, fired, taken, spent⟩ := machine
  have hstore : engine.unreported.store = engine.store := rfl
  have houtstanding : engine.unreported.outstanding = engine.outstanding := rfl
  cases act with
  | addRules rules =>
      exact ⟨rfl, congrArg (Machine.mk ·.unreported point limit fired taken spent) (engine.addRules_unreported rules)⟩
  | load registry source =>
      have hload : engine.unreported.load registry source = _ := Engine.loadMap_unreported.load engine registry source
      show (Reply.loaded (engine.unreported.load registry source).1).unreported = _ ∧
        Machine.mk (engine.unreported.load registry source).2.unreported point limit fired taken spent = _
      rw [hload]
      exact ⟨rfl, rfl⟩
  | begin limit | dismiss => cases point <;> exact ⟨rfl, rfl⟩
  | reset =>
      simp only [grant, unreported, houtstanding, engine.reset_unreported]
      split <;> exact ⟨rfl, rfl⟩
  | loop => exact ⟨congrArg Reply.unreported (report_unreported _), loop_unreported _⟩
  | take =>
      refine ⟨rfl, ?_⟩
      have hexecutor : engine.unreported.executor = engine.executor := rfl
      simp only [grant, Machine.take, unreported, hexecutor]
      split <;> rfl
  | perform index =>
      refine ⟨rfl, ?_⟩
      simp only [grant, Machine.perform, unreported]
      split
      · rfl
      · rename_i job _
        rw [(engine.exec_unreported job.2.command job.2.args job.2.firing).2]
  | release index =>
      refine ⟨rfl, ?_⟩
      simp only [grant, Machine.release, unreported]
      split <;> rfl
  | memory _ | snapshot | search _ _ _ | look | template _ | get _ | fact _ | halt | lower => exact ⟨rfl, rfl⟩

theorem act_unreported (act : Act) :
    (machine.unreported.act act).1.unreported = (machine.act act).1.unreported ∧
      (machine.unreported.act act).2.unreported = (machine.act act).2.unreported := by
  have hrests : machine.unreported.rests = machine.rests := rfl
  unfold Machine.act
  rw [hrests]
  split
  · exact ⟨rfl, rfl⟩
  · exact machine.grant_unreported act

/-- What failed does not show, but in the failures: whatever is done, and whatever is answered, is the same. -/
theorem acts_unreported {machine machine' : Machine} (h : machine.unreported = machine'.unreported)
    (acts : List Act) :
    (machine.acts acts).1.map Reply.unreported = (machine'.acts acts).1.map Reply.unreported ∧
      (machine.acts acts).2.unreported = (machine'.acts acts).2.unreported := by
  induction acts generalizing machine machine' with
  | nil => exact ⟨rfl, h⟩
  | cons act acts ih =>
      obtain ⟨hreply, hnext⟩ := machine.act_unreported act
      obtain ⟨hreply', hnext'⟩ := machine'.act_unreported act
      rw [h] at hreply hnext
      obtain ⟨hreplies, hlast⟩ := ih (hnext.symm.trans hnext')
      exact ⟨congrArg₂ List.cons (hreply.symm.trans hreply') hreplies, hlast⟩

end Machine

end ProductionSystem
