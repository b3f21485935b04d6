import ProductionSystem.Proofs.Backtracking
import ProductionSystem.Proofs.CrewAccounts
import ProductionSystem.Proofs.FailureLog

/-!
What a firing reports. The loop takes the actions of a rule one after the other, whatever becomes of them, while the
workers do jobs of this and of earlier firings in any order and others use the engine. Each action that fails is
reported once, and each that can be executed is executed or handed over once. Until an engine is reset, failures are
only added.
-/

namespace ProductionSystem

namespace Act

def isLoop : Act → Bool
  | loop => true
  | _ => false

theorem eq_loop {act : Act} (h : act.isLoop = true) : act = loop := by
  cases act with
  | loop => rfl
  | _ => cases h

theorem countP_cons_of_other {act : Act} (hother : act.isLoop = false) (acts : List Act) :
    (act :: acts).countP isLoop = acts.countP isLoop :=
  List.countP_cons_of_neg (by rw [hother]; exact Bool.false_ne_true)

end Act

namespace Machine

/-- The jobs that are handed over and not done. -/
def jobs (machine : Machine) : List (Ticket × Job) := machine.engine.executor.pool.queue ++ machine.taken

/-- What an act makes happen to an action. -/
def happening? (machine : Machine) : Act → Option Happening
  | .loop =>
    match machine.point with
    | .act firing (action :: _) => some (.dispatch machine.engine firing action)
    | _ => none
  | .perform index => machine.taken[index]?.map (.perform machine.engine)
  | _ => none

/-- What happens to actions in the course of acts. -/
def happenings (machine : Machine) : List Act → List Happening
  | [] => []
  | act :: acts => (machine.happening? act).toList ++ (machine.act act).2.happenings acts

variable {machine : Machine} {firing : Firing} {action : Action} {actions : List Action} {act : Act}

theorem loop_of_acting (hpoint : machine.point = .act firing (action :: actions)) :
    machine.loop =
      { machine with
        engine := (machine.engine.dispatch firing action).2
        point := .act (machine.engine.dispatch firing action).1 actions } := by
  simp only [loop, hpoint]

theorem act_of_refused (hbusy : machine.rests = false) (howner : act.isForOwner = true) :
    (machine.act act).2 = machine := by
  rw [Machine.act, howner, hbusy]
  rfl

theorem act_of_granted (hforall : act.isForOwner = false) : (machine.act act).2 = (machine.grant act).2 := by
  rw [Machine.act, hforall]
  rfl

theorem happening?_loop (hpoint : machine.point = .act firing (action :: actions)) :
    machine.happening? .loop = some (.dispatch machine.engine firing action) := by
  simp only [happening?, hpoint]

/-- Things happen to actions when the loop dispatches one, and when a job that is taken is done. -/
theorem of_happening? {happening : Happening} (h : machine.happening? act = some happening) :
    (∃ firing action actions, act = .loop ∧ machine.point = .act firing (action :: actions) ∧
        happening = .dispatch machine.engine firing action) ∨
      ∃ index job, act = .perform index ∧ machine.taken[index]? = some job ∧
        happening = .perform machine.engine job := by
  cases act with
  | loop =>
      simp only [happening?] at h
      split at h
      · rename_i firing action actions hpoint
        exact .inl ⟨firing, action, actions, rfl, hpoint, (Option.some.inj h).symm⟩
      · cases h
  | perform index =>
      obtain ⟨job, hjob, rfl⟩ := Option.map_eq_some_iff.1 h
      exact .inr ⟨index, job, rfl, hjob, rfl⟩
  | _ => cases h

theorem failures_addRules (engine : Engine) (rules : List Rule) :
    (engine.addRules rules).failures = engine.failures := by
  rw [Engine.addRules_eq]

theorem failures_load (engine : Engine) (registry : Registry) (source : LoadSource) :
    (engine.load registry source).2.failures = engine.failures := by
  obtain ⟨store, heq | ⟨rules, heq⟩⟩ := Engine.loaded_load engine registry source
  · rw [heq]
    rfl
  · rw [heq, failures_addRules]
    rfl

theorem executor_load (engine : Engine) (registry : Registry) (source : LoadSource) :
    (engine.load registry source).2.executor = engine.executor := by
  obtain ⟨store, heq | ⟨rules, heq⟩⟩ := Engine.loaded_load engine registry source
  · rw [heq]
    rfl
  · rw [heq, Engine.executor_addRules]
    rfl

theorem happening?_of_refused (hrefused : (act.isForOwner && !machine.rests) = true) :
    machine.happening? act = none := by
  cases act with
  | loop | perform _ => cases hrefused
  | _ => rfl

/-- An act that makes nothing happen leaves failures and jobs alone, unless it forgets the failures. -/
theorem act_aside (hnone : machine.happening? act = none) (hkept : act = .reset → machine.rests = false) :
    (machine.act act).2.engine.failures = machine.engine.failures ∧ machine.jobs.Perm (machine.act act).2.jobs := by
  have hsame {next : Machine} (hfailures : next.engine.failures = machine.engine.failures)
      (hqueue : next.engine.executor.pool.queue = machine.engine.executor.pool.queue)
      (htaken : next.taken = machine.taken) :
      next.engine.failures = machine.engine.failures ∧ machine.jobs.Perm next.jobs := by
    rw [jobs, jobs, hqueue, htaken]
    exact ⟨hfailures, .refl _⟩
  cases hrefused : act.isForOwner && !machine.rests with
  | true =>
      rw [Machine.act, if_pos hrefused]
      exact hsame rfl rfl rfl
  | false =>
      rw [Machine.act, hrefused, if_neg Bool.false_ne_true]
      cases act with
      | loop =>
          refine loop_moves (P := fun next => next.engine.failures = machine.engine.failures ∧
            machine.jobs.Perm next.jobs) machine (fun _ _ _ => hsame rfl rfl rfl) (fun _ _ => hsame rfl rfl rfl)
            (fun _ _ _ => hsame rfl rfl rfl) ?_
          intro firing action actions hpoint
          rw [happening?_loop hpoint] at hnone
          cases hnone
      | perform index =>
          have hnothing : machine.perform index = machine := by
            simp only [perform, Option.map_eq_none_iff.1 hnone]
          exact hsame (congrArg (·.engine.failures) hnothing) (congrArg (·.engine.executor.pool.queue) hnothing)
            (congrArg Machine.taken hnothing)
      | take =>
          simp only [grant, Machine.take]
          split
          · exact hsame rfl rfl rfl
          · rename_i job queue hqueue
            refine ⟨rfl, ?_⟩
            rw [jobs, jobs, hqueue, List.cons_append, ← List.append_assoc]
            exact (List.perm_append_singleton _ _).symm
      | release index =>
          simp only [grant, Machine.release]
          split
          · exact hsame rfl rfl rfl
          · exact hsame rfl rfl rfl
      | reset =>
          rw [hkept rfl] at hrefused
          cases hrefused
      | addRules rules =>
          exact hsame (failures_addRules _ rules) (congrArg (·.pool.queue) (Engine.executor_addRules _ rules)) rfl
      | load registry source =>
          exact hsame (failures_load _ registry source) (congrArg (·.pool.queue) (executor_load _ registry source)) rfl
      | begin limit | dismiss =>
          simp only [grant, step]
          split
          · exact hsame rfl rfl rfl
          · exact hsame rfl rfl rfl
      | memory _ | snapshot | search _ _ _ | look | template _ | get _ | fact _ | halt | lower =>
          exact hsame rfl rfl rfl

theorem perform_of_taken {index : Nat} {job : Ticket × Job} (hjob : machine.taken[index]? = some job) :
    machine.perform index =
      { machine with
        engine := (machine.engine.exec job.2.command job.2.args job.2.firing).2
        taken := machine.taken.eraseIdx index
        spent := machine.spent ++ [job.1] } := by
  simp only [perform, hjob]

/-- What an act adds to the failures is what is reported of what it makes happen, unless it forgets them. -/
theorem failures_act (hkept : act = .reset → machine.rests = false) :
    (machine.act act).2.engine.failures.toList =
      machine.engine.failures.toList ++ ((machine.happening? act).bind Happening.report?).toList := by
  cases hhappens : machine.happening? act with
  | none =>
      rw [(act_aside hhappens hkept).1]
      exact (List.append_nil _).symm
  | some happening =>
      rcases of_happening? hhappens with ⟨firing, action, actions, rfl, hpoint, rfl⟩ | ⟨index, job, rfl, hjob, rfl⟩
      · show machine.loop.engine.failures.toList = _
        rw [loop_of_acting hpoint]
        exact (machine.engine.dispatch_meets_fate firing action).1
      · show (machine.perform index).engine.failures.toList = _
        rw [perform_of_taken hjob]
        exact Engine.failures_exec _ _ _ _

/-- The jobs that are done and those still to be done are those before and the ones handed over. -/
theorem jobs_act (hkept : act = .reset → machine.rests = false) :
    (machine.jobs ++ ((machine.happening? act).bind fun happening => happening.fate.handedOver?).toList).Perm
      (((machine.happening? act).bind Happening.performed?).toList ++ (machine.act act).2.jobs) := by
  cases hhappens : machine.happening? act with
  | none =>
      show (machine.jobs ++ []).Perm _
      rw [List.append_nil]
      exact (act_aside hhappens hkept).2
  | some happening =>
      rcases of_happening? hhappens with ⟨firing, action, actions, rfl, hpoint, rfl⟩ | ⟨index, job, rfl, hjob, rfl⟩
      · have hqueue := (machine.engine.dispatch_meets_fate firing action).2.1
        show (machine.jobs ++ _).Perm machine.loop.jobs
        rw [loop_of_acting hpoint, jobs, jobs]
        dsimp only
        rw [hqueue, List.append_assoc, List.append_assoc]
        exact List.Perm.append_left _ List.perm_append_comm
      · show (machine.jobs ++ []).Perm ([job] ++ (machine.perform index).jobs)
        rw [perform_of_taken hjob, List.append_nil, List.singleton_append, jobs, jobs, Engine.executor_exec]
        exact ((perm_cons_eraseIdx hjob).append_left _).trans List.perm_middle

theorem acting_busy (hpoint : machine.point = .act firing actions) : machine.rests = false := by
  rw [rests, hpoint]

/-- While the machine does not rest, only the loop goes on. -/
theorem point_act (hbusy : machine.rests = false) (hother : act.isLoop = false) :
    (machine.act act).2.point = machine.point := by
  cases howner : act.isForOwner with
  | true => rw [act_of_refused hbusy howner]
  | false =>
      rw [act_of_granted howner]
      cases act with
      | loop => cases hother
      | perform index =>
          simp only [grant, perform]
          split <;> rfl
      | take =>
          simp only [grant, Machine.take]
          split <;> rfl
      | release index =>
          simp only [grant, Machine.release]
          split <;> rfl
      | addRules _ | load _ _ | snapshot | begin _ | reset | dismiss => cases howner
      | memory _ | search _ _ _ | look | template _ | get _ | fact _ | halt | lower => rfl

/-- Only the loop goes on in a firing. -/
theorem point_act_of_acting (hpoint : machine.point = .act firing actions) (hother : act.isLoop = false) :
    (machine.act act).2.point = .act firing actions :=
  (point_act (acting_busy hpoint) hother).trans hpoint

/-- Only the loop dispatches actions. -/
theorem happening?_of_other (machine : Machine) (hother : act.isLoop = false) :
    machine.happening? act = none ∨ ∃ job, machine.happening? act = some (.perform machine.engine job) := by
  cases hhappens : machine.happening? act with
  | none => exact .inl rfl
  | some happening =>
      rcases of_happening? hhappens with ⟨_, _, _, rfl, -⟩ | ⟨_, job, -, -, rfl⟩
      · cases hother
      · exact .inr ⟨job, rfl⟩

/-- The course of a firing: the loop dispatches its actions one after the other, and between them others act. -/
@[elab_as_elim]
theorem acting_induction {P : Machine → List Action → List Act → Prop}
    (stops : ∀ machine firing actions, machine.point = .act firing actions → P machine actions [])
    (aside : ∀ machine firing actions act later, machine.point = .act firing actions → act.isLoop = false →
      P (machine.act act).2 actions later → P machine actions (act :: later))
    (dispatches : ∀ machine firing action actions later, machine.point = .act firing (action :: actions) →
      P machine.loop actions later → P machine (action :: actions) (.loop :: later))
    {machine : Machine} {firing : Firing} {actions : List Action} {later : List Act}
    (hpoint : machine.point = .act firing actions) (hlater : later.countP Act.isLoop ≤ actions.length) :
    P machine actions later := by
  induction later generalizing machine firing actions with
  | nil => exact stops machine firing actions hpoint
  | cons act later ih =>
      cases hact : act.isLoop with
      | false =>
          rw [Act.countP_cons_of_other hact] at hlater
          exact aside machine firing actions act later hpoint hact (ih (point_act_of_acting hpoint hact) hlater)
      | true =>
          rw [List.countP_cons_of_pos hact] at hlater
          obtain rfl := Act.eq_loop hact
          cases actions with
          | nil => exact absurd hlater (Nat.not_succ_le_zero _)
          | cons action actions =>
              have hnext : machine.loop.point = .act (machine.engine.dispatch firing action).1 actions := by
                rw [loop_of_acting hpoint]
              exact dispatches machine firing action actions later hpoint (ih hnext (Nat.le_of_succ_le_succ hlater))

section Accounts

variable {later : List Act}

theorem happenings_cons (act : Act) (later : List Act) :
    machine.happenings (act :: later) = (machine.happening? act).toList ++ (machine.act act).2.happenings later := rfl

theorem happenings_append (later more : List Act) :
    machine.happenings (later ++ more) = machine.happenings later ++ (machine.acts later).2.happenings more := by
  induction later generalizing machine with
  | nil => rfl
  | cons act later ih =>
      rw [List.cons_append, happenings_cons, happenings_cons, ih, List.append_assoc]
      rfl

theorem filterMap_toList {α β : Type} (f : α → Option β) (a? : Option α) :
    a?.toList.filterMap f = (a?.bind f).toList := by
  cases a? with
  | none => rfl
  | some a =>
      rw [Option.toList_some, Option.bind_some, List.filterMap_cons, List.filterMap_nil]
      cases f a <;> rfl

/-- Are failures and jobs all accounted for? What is reported of what happens is added to the failures in its order;
and every job is done once or still to be done, and no other is done. -/
structure Accounts (machine after : Machine) (happened : List Happening) : Prop where
  failures : after.engine.failures.toList = machine.engine.failures.toList ++ happened.filterMap Happening.report?
  jobs : (machine.jobs ++ happened.filterMap fun happening => happening.fate.handedOver?).Perm
    (happened.filterMap Happening.performed? ++ after.jobs)

namespace Accounts

theorem refl (machine : Machine) : machine.Accounts machine [] where
  failures := (List.append_nil _).symm
  jobs := by
    show (machine.jobs ++ []).Perm machine.jobs
    rw [List.append_nil]

theorem trans {middle last : Machine} {first second : List Happening} (h : machine.Accounts middle first)
    (h' : middle.Accounts last second) : machine.Accounts last (first ++ second) where
  failures := by rw [h'.failures, h.failures, List.filterMap_append, List.append_assoc]
  jobs := by
    rw [List.filterMap_append, List.filterMap_append, ← List.append_assoc, List.append_assoc _ _ (Machine.jobs _)]
    refine (h.jobs.append_right _).trans ?_
    rw [List.append_assoc]
    exact h'.jobs.append_left _

theorem of_act (hkept : act = .reset → machine.rests = false) :
    machine.Accounts (machine.act act).2 (machine.happening? act).toList where
  failures := by
    rw [filterMap_toList]
    exact failures_act hkept
  jobs := by
    rw [filterMap_toList, filterMap_toList]
    exact jobs_act hkept

/-- Unless an engine is reset, all is accounted for. -/
theorem acts (hkept : .reset ∉ later) : machine.Accounts (machine.acts later).2 (machine.happenings later) := by
  induction later generalizing machine with
  | nil => exact refl machine
  | cons act later ih =>
      rw [List.mem_cons, not_or] at hkept
      exact (of_act fun heq => absurd heq.symm hkept.1).trans (ih hkept.2)

end Accounts

end Accounts

section Course

variable {later : List Act}

variable (hpoint : machine.point = .act firing actions) (hlater : later.countP Act.isLoop ≤ actions.length)

include hpoint hlater

/-- The loop dispatches the actions in their order. -/
theorem actions_happenings :
    (machine.happenings later).filterMap Happening.action? = actions.take (later.countP Act.isLoop) := by
  refine acting_induction (P := fun machine actions later =>
    (machine.happenings later).filterMap Happening.action? = actions.take (later.countP Act.isLoop))
    ?stops ?aside ?dispatches hpoint hlater
  case stops => exact fun _ _ _ _ => rfl
  case aside =>
    intro machine firing actions act later hpoint hact ih
    rw [happenings_cons, List.filterMap_append, ih, Act.countP_cons_of_other hact]
    rcases happening?_of_other machine hact with h | ⟨job, h⟩
    · rw [h]
      rfl
    · rw [h]
      rfl
  case dispatches =>
    intro machine firing action actions later hpoint ih
    rw [happenings_cons, happening?_loop hpoint, List.countP_cons_of_pos rfl, List.take_succ_cons, ← ih]
    rfl

/-- The firing goes on with the actions that are left. -/
theorem point_acts : ∃ firing, (machine.acts later).2.point = .act firing (actions.drop (later.countP Act.isLoop)) := by
  refine acting_induction (P := fun machine actions later =>
    ∃ firing, (machine.acts later).2.point = .act firing (actions.drop (later.countP Act.isLoop)))
    ?stops ?aside ?dispatches hpoint hlater
  case stops => exact fun machine firing actions hpoint => ⟨firing, hpoint⟩
  case aside =>
    intro machine firing actions act later hpoint hact ih
    rw [Act.countP_cons_of_other hact]
    exact ih
  case dispatches =>
    intro machine firing action actions later hpoint ih
    rw [List.countP_cons_of_pos rfl, List.drop_succ_cons]
    exact ih

/-- A reset has to wait, so that all is accounted for. -/
theorem Accounts.course : machine.Accounts (machine.acts later).2 (machine.happenings later) := by
  refine acting_induction (P := fun machine _ later =>
    machine.Accounts (machine.acts later).2 (machine.happenings later)) ?stops ?aside ?dispatches hpoint hlater
  case stops => exact fun machine _ _ _ => refl machine
  case aside => exact fun _ _ _ _ _ hpoint _ ih => (Accounts.of_act fun _ => acting_busy hpoint).trans ih
  case dispatches =>
    intro machine _ _ _ _ _ ih
    have hact : machine.Accounts (machine.act .loop).2 (machine.happening? .loop).toList := .of_act nofun
    exact hact.trans ih

/-- What each dispatch keeps, for the firing and the actions that are left, is so whenever an action is dispatched. -/
theorem exists_of_mem_happenings {Q : Firing → List Action → Prop}
    (hkeep : ∀ (engine : Engine) firing action actions,
      Q firing (action :: actions) → Q (engine.dispatch firing action).1 actions)
    (hbegin : Q firing actions) {engine : Engine} {firing' : Firing} {action : Action}
    (hmem : .dispatch engine firing' action ∈ machine.happenings later) : ∃ rest, Q firing' (action :: rest) := by
  suffices ∀ firing, machine.point = .act firing actions → Q firing actions →
      .dispatch engine firing' action ∈ machine.happenings later → ∃ rest, Q firing' (action :: rest) from
    this firing hpoint hbegin hmem
  refine acting_induction (P := fun machine actions later =>
    ∀ firing, machine.point = .act firing actions → Q firing actions →
      .dispatch engine firing' action ∈ machine.happenings later → ∃ rest, Q firing' (action :: rest))
    ?stops ?aside ?dispatches hpoint hlater
  case stops => exact fun _ _ _ _ _ _ _ hmem => absurd hmem List.not_mem_nil
  case aside =>
    intro machine _ actions act later _ hact ih firing hpoint hbegin hmem
    rw [happenings_cons, List.mem_append] at hmem
    refine ih firing (point_act_of_acting hpoint hact) hbegin (hmem.resolve_left ?_)
    rcases happening?_of_other machine hact with h | ⟨job, h⟩
    · rw [h]
      exact List.not_mem_nil
    · rw [h]
      exact fun hmem => nomatch List.mem_singleton.1 hmem
  case dispatches =>
    intro machine _ action' actions later _ ih firing hpoint hbegin hmem
    rw [happenings_cons, happening?_loop hpoint, List.mem_append, Option.toList_some, List.mem_singleton] at hmem
    rcases hmem with hmem | hmem
    · cases hmem
      exact ⟨actions, hbegin⟩
    · exact ih _ (by rw [loop_of_acting hpoint]) (hkeep machine.engine firing action' actions hbegin) hmem

/-- What is dispatched belongs to the rule that is fired. -/
theorem rule_of_mem_happenings (hkeep : ∀ action ∈ actions, action.command.KeepsRule) {engine : Engine}
    {firing' : Firing} {action : Action} (hmem : .dispatch engine firing' action ∈ machine.happenings later) :
    firing'.rule = firing.rule := by
  obtain ⟨_, hrule, -⟩ := exists_of_mem_happenings hpoint hlater
    (Q := fun firing' actions => firing'.rule = firing.rule ∧ ∀ action ∈ actions, action.command.KeepsRule)
    (fun engine firing' action _ h =>
      ⟨(engine.rule_dispatch firing' action (h.2 action List.mem_cons_self)).trans h.1,
        fun other hother => h.2 other (List.mem_cons_of_mem _ hother)⟩)
    ⟨rfl, hkeep⟩ hmem
  exact hrule

end Course

/-- **Failures are isolated, and reported exactly.** A rule is fired. While the loop dispatches its actions, and
afterwards, workers and others do what they like, but for a reset after the firing. Then

* the loop dispatches the actions one after the other, each once, for the rule, and goes on after the last;
* of each action that is dispatched and each job that is done becomes one thing;
* each of these adds one failure if it fails, in the order in which it happens, and nothing else adds any: the failure
  names the rule, the command and the cause;
* each job that is handed over is done once or still to be done, and no other is done;
* an action whose command does not run changes nothing but that it may wake the loop, and one whose command runs
  leaves what the command did, whether it fails or not;
* from then on all goes as if no failure had been reported. -/
theorem failures_are_isolated (machine : Machine) {found : Match} (hpoint : machine.point = .matching)
    (hchoose : machine.engine.choose = some found)
    (hkeep : ∀ action ∈ found.source.rule.actions, action.command.KeepsRule) (later more : List Act)
    (hlater : later.countP Act.isLoop ≤ found.source.rule.actions.length) (hmore : .reset ∉ more) :
    let rule := found.source.rule
    let start := machine.loop
    let fired := (start.acts later).2
    let dispatched := later.countP Act.isLoop
    let last := (start.acts (later ++ more)).2
    let happened := start.happenings (later ++ more)
    ((start.happenings later).filterMap Happening.action? = rule.actions.take dispatched ∧
        (∀ engine firing action, .dispatch engine firing action ∈ start.happenings later → firing.rule = rule.name) ∧
        (∃ firing, fired.point = .act firing (rule.actions.drop dispatched)) ∧
        (dispatched = rule.actions.length → fired.loop = { fired with point := .start })) ∧
      (∀ happening ∈ happened, ∀ fate, happening.Becomes fate ↔ happening.fate = fate) ∧
      (last.engine.failures.toList = machine.engine.failures.toList ++ happened.filterMap Happening.report? ∧
        ∀ happening ∈ happened, happening.report? = happening.fate.cause?.map fun cause =>
          let rule := happening.firing.rule
          let command := happening.command.name
          ⟨rule, command, ⟨.action rule command cause.message, some { source := some rule, stack := [command] }⟩⟩) ∧
      (start.jobs ++ happened.filterMap fun happening => happening.fate.handedOver?).Perm
        (happened.filterMap Happening.performed? ++ last.jobs) ∧
      (∀ engine firing action, .dispatch engine firing action ∈ happened →
        let fate := (Happening.dispatch engine firing action).fate
        let after := engine.dispatch firing action
        (fate.isExecuted = false → after.1 = firing ∧ (after.2.workspace = engine.workspace ∨
          after.2.workspace = { engine.workspace with store := engine.store.wake })) ∧
        ∀ command args failure?, fate = .executed command args failure? →
          let ran := (command.run args ⟨firing, engine.workspace⟩).2
          after.1 = { ran.firing with removals := [] } ∧ after.2.workspace =
            { ran.workspace with
              store := ran.firing.removals.foldl (fun store ref => (store.remove ref).2) ran.workspace.store }) ∧
      ∀ other : Machine, other.unreported = last.unreported → ∀ acts,
        (other.acts acts).1.map Reply.unreported = (last.acts acts).1.map Reply.unreported ∧
          (other.acts acts).2.unreported = (last.acts acts).2.unreported := by
  intro rule start fired dispatched last happened
  have hstart : start = machine.fire found := loop_of_choose hpoint hchoose
  have hbegun : start.point =
      .act { rule := rule.name, facts := found.facts, bindings := found.bindings } rule.actions := by
    rw [hstart]
    rfl
  have hlast : last = (fired.acts more).2 := by
    simp only [last, acts_append]
    rfl
  have haccounts : start.Accounts last happened := by
    rw [hlast, show happened = _ from happenings_append later more]
    exact (Accounts.course hbegun hlater).trans (.acts hmore)
  refine ⟨⟨actions_happenings hbegun hlater, fun _ _ _ => rule_of_mem_happenings hbegun hlater hkeep,
    point_acts hbegun hlater, ?_⟩, fun _ _ _ => Happening.becomes_iff, ⟨?_, fun _ _ => rfl⟩, haccounts.jobs,
    fun engine firing action _ => ⟨(engine.dispatch_meets_fate firing action).2.2,
      fun command args _ => engine.dispatch_of_executed firing action command args⟩,
    fun _ h acts => acts_unreported h acts⟩
  · intro hall
    obtain ⟨firing, hfired⟩ := point_acts hbegun hlater
    rw [show later.countP Act.isLoop = _ from hall, List.drop_length] at hfired
    show fired.loop = _
    simp only [loop, show fired.point = _ from hfired]
  · rw [haccounts.failures, hstart]
    rfl

/-- A command that panics. -/
def explode : Command := ⟨"explode", .sync, fun _ => throw (.panicked (some "boom"))⟩

/-- A rule whose actions fail in different ways, but for the last. -/
def inspecting : Rule where
  name := "inspect"
  conditions := [⟨"part", []⟩]
  actions := [
    ⟨Builtin.write.command, [.variable "$missing"]⟩,
    ⟨{ Builtin.remove.command with mode := .async }, [.literal (.int 0)]⟩,
    ⟨explode, []⟩,
    ⟨Builtin.write.command, [.literal (.str "done")]⟩]

def partInspecting : List Act := [
  .memory (.register ⟨"part", []⟩), .memory (.make "part" []), .addRules [inspecting], .begin none, .loop, .loop]

def partsInspected : Machine := ((Machine.new .sequential).acts partInspecting).2

def inspectingMatch : Match := ⟨⟨0, inspecting⟩, [⟨0⟩], Dictionary.empty⟩

/-- A parameter fails, then a command, and then a job that a worker took before. -/
theorem failures_are_isolated_inspecting :
    let later : List Act := [.loop, .loop, .take, .loop, .perform 0, .loop]
    let more : List Act := [.loop, .release 0]
    let start := partsInspected.loop
    let last := (start.acts (later ++ more)).2
    let happened := start.happenings (later ++ more)
    (start.happenings later).filterMap Happening.action? = inspecting.actions ∧
      happened.length = 5 ∧ last.engine.failures.toList = happened.filterMap Happening.report? ∧
      last.engine.failures.toList.map (fun failure => (failure.command, failure.error.message)) = [
        ("write", "action write in rule inspect failed: unbound variable: $missing"),
        ("explode", "action explode in rule inspect failed: internal error: explode panicked: boom"),
        ("remove",
          "action remove in rule inspect failed: cannot remove matched fact 0 outside the engine loop thread")] ∧
      (happened.filterMap fun happening => happening.fate.handedOver?).Perm (happened.filterMap Happening.performed?) ∧
      last.engine.workspace.lines = #["done"] := by
  intro later more start last happened
  have hall : partsInspected.engine.matchAll = Match.all none partsInspected.engine.view [⟨0, inspecting⟩] := rfl
  have hchoose : partsInspected.engine.choose = some inspectingMatch := by
    rw [Engine.choose_of_matchAll hall]
    rfl
  have hpoint : partsInspected.point = .matching := rfl
  have hstart : start = partsInspected.fire inspectingMatch := loop_of_choose hpoint hchoose
  have hkeep : ∀ action ∈ inspectingMatch.source.rule.actions, action.command.KeepsRule :=
    List.forall_mem_cons.2 ⟨Builtin.keepsRule .write .sync,
      List.forall_mem_cons.2 ⟨Builtin.keepsRule .remove .async,
        List.forall_mem_cons.2 ⟨fun _ _ => rfl,
          List.forall_mem_singleton.2 (Builtin.keepsRule .write .sync)⟩⟩⟩
  obtain ⟨⟨hactions, -⟩, -, ⟨hfailures, -⟩, hjobs, -⟩ :=
    failures_are_isolated partsInspected hpoint hchoose hkeep later more (by decide) (by simp [more])
  refine ⟨hactions, ?_, hfailures, ?_, ?_, ?_⟩
  · show (start.happenings _).length = 5
    rw [hstart]
    rfl
  · show List.map _ (start.acts _).2.engine.failures.toList = _
    rw [hstart]
    rfl
  · have hbegun : start.jobs = [] := by
      rw [hstart]
      rfl
    have hdone : last.jobs = [] := by
      show (start.acts _).2.jobs = []
      rw [hstart]
      rfl
    have hperm : (start.jobs ++ happened.filterMap fun happening => happening.fate.handedOver?).Perm
      (happened.filterMap Happening.performed? ++ last.jobs) := hjobs
    rwa [hbegun, hdone, List.nil_append, List.append_nil] at hperm
  · show (start.acts _).2.engine.workspace.lines = _
    rw [hstart]
    rfl

end Machine

end ProductionSystem
