import ProductionSystem.Proofs.CommandChanges
import ProductionSystem.Proofs.FactLifetime
import ProductionSystem.Proofs.FailureReports
import ProductionSystem.Proofs.FrameBudget
import ProductionSystem.Proofs.MemoryTrace

/-!
What a firing changes in memory. Its actions are built-in commands, on the loop or with the workers, and commands that
only fail. Whatever happens to an action removes, makes and writes what its arguments say, and nothing else happens to
memory until the loop drains the queue again. That holds wherever the workers do their jobs between the steps of the
loop, also after its last action.
-/

namespace ProductionSystem

namespace Happening

def engine : Happening → Engine
  | dispatch engine _ _ => engine
  | perform engine _ => engine

variable (kind : Command → Option Builtin)

/-- The facts that are removed: only an action on the loop removes any. -/
def removed : Happening → List FactRef
  | dispatch engine firing action =>
    match (dispatch engine firing action).fate with
    | .executed command args _ => Builtin.queued (kind command) firing.facts args
    | _ => []
  | perform _ _ => []

/-- The fact that is made. -/
def made? (happening : Happening) : Option FactRef :=
  match happening.fate with
  | .executed command args _ => Builtin.made? (kind command) happening.engine.store args
  | _ => none

/-- The fields that are written to: only a modification that succeeds writes. -/
def written? (happening : Happening) : Option Write :=
  match happening.fate with
  | .executed command args none => Builtin.written? (kind command) happening.firing.facts args
  | _ => none

variable {kind}

/-- Only matched facts are removed. -/
theorem mem_facts_of_removed {happening : Happening} {ref : FactRef} (h : ref ∈ happening.removed kind) :
    ref ∈ happening.firing.facts := by
  cases happening with
  | dispatch engine firing action =>
      dsimp only [removed] at h
      split at h
      · exact Builtin.mem_facts_of_queued h
      · cases h
  | perform engine job => cases h

/-- Only matched facts are written to. -/
theorem mem_facts_of_written? {happening : Happening} {write : Write} (h : happening.written? kind = some write) :
    write.1 ∈ happening.firing.facts := by
  unfold written? at h
  split at h
  · unfold Builtin.written? at h
    split at h
    · unfold Builtin.write? at h
      split at h
      · cases h
      · split at h
        · obtain ⟨ref, href, rfl⟩ := Option.map_eq_some_iff.1 h
          exact List.mem_of_getElem? href
        · cases h
    · cases h
  · cases h

/-- Only a command that makes facts makes one. -/
theorem made?_of_ne {engine : Engine} {firing : Firing} {action : Action} (hplain : kind action.command ≠ some .make) :
    (dispatch engine firing action).made? kind = none := by
  unfold made?
  split
  · rename_i command args failure? hfate
    obtain ⟨-, rfl, -⟩ := of_fate_eq_executed hfate
    unfold Builtin.made?
    split
    · exact absurd ‹_› hplain
    · rfl
  · rfl

end Happening

/-- Is a job one of a firing? -/
structure Job.Of (kind : Command → Option Builtin) (facts : List FactRef) (job : Job) : Prop where
  command : job.command.Is (kind job.command)
  facts : job.firing.facts = facts
  onLoop : job.firing.onLoop = false

namespace Engine

variable {kind : Command → Option Builtin} {known : Nat} (engine : Engine)

theorem workspace_exec (command : Command) (args : List Value) (firing : Firing) :
    (engine.exec command args firing).2.workspace = (command.run args ⟨firing, engine.workspace⟩).2.workspace := by
  unfold exec
  dsimp only
  split <;> rfl

/-- A write is made exactly if the command succeeds. -/
theorem written?_of_executed {happening : Happening} {command : Command} {args : List Value}
    {failure? : Option ErrorKind} (hfate : happening.fate = .executed command args failure?) :
    happening.written? kind =
      (Builtin.written? (kind command) happening.firing.facts args).filter fun _ => failure?.isNone := by
  have hkept (write? : Option Write) : write?.filter (fun _ => true) = write? := by cases write? <;> rfl
  rw [Happening.written?, hfate]
  cases failure? with
  | none => exact (hkept _).symm
  | some cause => exact (Option.filter_eq_none_iff.2 fun _ _ => Bool.false_ne_true).symm

theorem changed_wake (store : Store) : store.Changed store.wake [] [] [] := .of_same rfl rfl rfl rfl

/-- A command on the loop makes and writes, and then the facts that it queued are removed. -/
theorem store_dispatch_of_executed {firing : Firing} {action : Action} {command : Command} {args : List Value}
    {failure? : Option ErrorKind} (hkind : action.command.Is (kind action.command)) (honLoop : firing.onLoop = true)
    (hremovals : firing.removals = [])
    (hfate : (Happening.dispatch engine firing action).fate = .executed command args failure?) :
    let happening : Happening := .dispatch engine firing action
    let after := engine.dispatch firing action
    (∃ store : Store, engine.store.Changed store [] (happening.made? kind).toList (happening.written? kind).toList ∧
        after.2.store = (happening.removed kind).foldl (fun store ref => (store.remove ref).2) store) ∧
      after.1.facts = firing.facts ∧ after.1.onLoop = true ∧ after.1.removals = [] := by
  intro happening after
  obtain ⟨-, rfl, -, hfailure⟩ := Happening.of_fate_eq_executed hfate
  obtain ⟨hfiring, hworkspace⟩ := engine.dispatch_of_executed firing action _ args hfate
  have htouched := hkind.touched args ⟨firing, engine.workspace⟩
  rw [← hfailure] at htouched
  generalize (action.command.run args ⟨firing, engine.workspace⟩).2 = ran at hfiring hworkspace htouched
  have hqueued : ran.firing.removals = Builtin.queued (kind action.command) firing.facts args := by
    rw [htouched.removals, honLoop, hremovals]
    rfl
  have hstore : after.2.store =
      ran.firing.removals.foldl (fun store ref => (store.remove ref).2) ran.workspace.store :=
    congrArg Workspace.store hworkspace
  rw [show after.1 = _ from hfiring, hstore, hqueued]
  refine ⟨⟨ran.workspace.store, ?_, ?_⟩, htouched.facts, htouched.onLoop.trans honLoop, rfl⟩
  · rw [written?_of_executed hfate, Happening.made?, hfate]
    exact htouched.store
  · rw [Happening.removed, hfate]

/-- What a dispatched action changes in memory. -/
theorem changed_dispatch {firing : Firing} {action : Action} (hkind : action.command.Is (kind action.command))
    (htidy : engine.store.Tidy known) (hfacts : ∀ ref ∈ firing.facts, ref.index < known)
    (honLoop : firing.onLoop = true) (hremovals : firing.removals = []) :
    let happening : Happening := .dispatch engine firing action
    let after := engine.dispatch firing action
    engine.store.Changed after.2.store (happening.removed kind) (happening.made? kind).toList
        (happening.written? kind).toList ∧
      after.1.facts = firing.facts ∧ after.1.onLoop = true ∧ after.1.removals = [] := by
  intro happening after
  cases hfate : (Happening.dispatch engine firing action).fate with
  | executed command args failure? =>
      obtain ⟨⟨written, hchanged, hstore⟩, hfiring⟩ :=
        engine.store_dispatch_of_executed hkind honLoop hremovals hfate
      have hwithin : ∀ ref ∈ happening.removed kind, ref.index < known :=
        fun ref href => hfacts ref (Happening.mem_facts_of_removed href)
      have hboth := hchanged.trans ((htidy.of_changed hchanged).removeAll hwithin)
      rw [List.nil_append, List.append_nil, List.append_nil] at hboth
      rw [show after.2.store = _ from hstore]
      exact ⟨hboth, hfiring⟩
  | unresolved cause | handedOver job | turnedAway cause =>
      obtain ⟨hfiring, hworkspace⟩ := (engine.dispatch_meets_fate firing action).2.2 (by rw [hfate]; rfl)
      have hchanged : engine.store.Changed after.2.store [] [] [] := by
        rcases hworkspace with hworkspace | hworkspace
        · rw [show after.2.store = engine.store from congrArg Workspace.store hworkspace]
          exact .refl _
        · rw [show after.2.store = engine.store.wake from congrArg Workspace.store hworkspace]
          exact changed_wake _
      rw [show after.1 = firing from hfiring]
      refine ⟨?_, rfl, honLoop, hremovals⟩
      simp only [happening, Happening.removed, Happening.made?, Happening.written?, hfate]
      exact hchanged

/-- What a job changes in memory: it does not run on the loop, and removes nothing. -/
theorem changed_exec {facts : List FactRef} {job : Ticket × Job} (hjob : job.2.Of kind facts) :
    let happening : Happening := .perform engine job
    engine.store.Changed (engine.exec job.2.command job.2.args job.2.firing).2.store (happening.removed kind)
      (happening.made? kind).toList (happening.written? kind).toList := by
  intro happening
  have hfate : happening.fate = .executed job.2.command job.2.args
      (job.2.command.run job.2.args ⟨job.2.firing, engine.workspace⟩).1 := rfl
  have htouched := hjob.command.touched job.2.args ⟨job.2.firing, engine.workspace⟩
  have hstore : (engine.exec job.2.command job.2.args job.2.firing).2.store = _ :=
    congrArg Workspace.store (engine.workspace_exec job.2.command job.2.args job.2.firing)
  rw [written?_of_executed hfate, Happening.made?, hfate, hstore]
  exact htouched.store

end Engine

/-- Where the loop stands when so many moves are left to it before it drains the queue or its run is over: in a firing
of matched facts, or after it. -/
inductive Point.Ahead (kind : Command → Option Builtin) (facts : List FactRef) : Nat → Point → Prop
  | act {firing : Firing} {actions : List Action} (hfacts : firing.facts = facts) (honLoop : firing.onLoop = true)
      (hremovals : firing.removals = []) (hkind : ∀ action ∈ actions, action.command.Is (kind action.command)) :
      Ahead kind facts (actions.length + 2) (.act firing actions)
  | start : Ahead kind facts 1 .start
  | drain : Ahead kind facts 0 .drain
  | close (outcome : Outcome) : Ahead kind facts 0 (.close outcome)

/-- The actions that are still to be dispatched. -/
def Point.actions : Point → List Action
  | .act _ actions => actions
  | _ => []

theorem Point.Ahead.length_actions {kind : Command → Option Builtin} {facts : List FactRef} {left : Nat} {point : Point}
    (h : point.Ahead kind facts left) : point.actions.length = left - 2 := by
  cases h <;> rfl

namespace Machine

/-- A machine in the course of a firing, or after it as long as the queue is not drained. -/
structure Fires (kind : Command → Option Builtin) (facts : List FactRef) (known left : Nat) (machine : Machine) :
    Prop where
  ahead : machine.point.Ahead kind facts left
  jobs : ∀ job ∈ machine.jobs, job.2.Of kind facts
  tidy : machine.engine.store.Tidy known
  within : ∀ ref ∈ facts, ref.index < known

/-- Is what has changed in memory what has happened, all of it to actions that saw the matched facts? The actions that
were dispatched and those that are left are the ones there were, and the rules are the same. -/
structure Turned (kind : Command → Option Builtin) (facts : List FactRef) (machine after : Machine)
    (happened : List Happening) : Prop where
  store : machine.engine.store.Changed after.engine.store (happened.flatMap (Happening.removed kind))
    (happened.filterMap (Happening.made? kind)) (happened.filterMap (Happening.written? kind))
  facts : ∀ happening ∈ happened, happening.firing.facts = facts
  actions : happened.filterMap Happening.action? ++ after.point.actions = machine.point.actions
  rules : after.engine.rules = machine.engine.rules

namespace Turned

variable {kind : Command → Option Builtin} {facts : List FactRef} {machine after last : Machine}

theorem aside (hstore : machine.engine.store.Changed after.engine.store [] [] [])
    (hactions : after.point.actions = machine.point.actions) (hrules : after.engine.rules = machine.engine.rules) :
    machine.Turned kind facts after [] := ⟨hstore, List.forall_mem_nil _, hactions, hrules⟩

theorem refl (machine : Machine) : machine.Turned kind facts machine [] := aside (.refl _) rfl rfl

theorem trans {first second : List Happening} (h : machine.Turned kind facts after first)
    (h' : after.Turned kind facts last second) : machine.Turned kind facts last (first ++ second) where
  store := by
    rw [List.flatMap_append, List.filterMap_append, List.filterMap_append]
    exact h.store.trans h'.store
  facts := List.forall_mem_append.2 ⟨h.facts, h'.facts⟩
  actions := by rw [List.filterMap_append, List.append_assoc, h'.actions, h.actions]
  rules := h'.rules.trans h.rules

theorem of_happening {happening : Happening}
    (hstore : machine.engine.store.Changed after.engine.store (happening.removed kind) (happening.made? kind).toList
      (happening.written? kind).toList) (hfacts : happening.firing.facts = facts)
    (hactions : happening.action?.toList ++ after.point.actions = machine.point.actions)
    (hrules : after.engine.rules = machine.engine.rules) : machine.Turned kind facts after [happening] := by
  have hone {β : Type} (f : Happening → Option β) : [happening].filterMap f = (f happening).toList :=
    filterMap_toList f (some happening)
  refine ⟨?_, List.forall_mem_singleton.2 hfacts, ?_, hrules⟩
  · rw [List.flatMap_singleton, hone, hone]
    exact hstore
  · rw [hone]
    exact hactions

/-- The actions that were dispatched are the first ones, if so many are left. -/
theorem dispatched {happened : List Happening} (h : machine.Turned kind facts after happened) {count : Nat}
    (hleft : after.point.actions.length = machine.point.actions.length - count) :
    happened.filterMap Happening.action? = machine.point.actions.take count := by
  have hlength := congrArg List.length h.actions
  rw [List.length_append] at hlength
  have hrest : count - (happened.filterMap Happening.action?).length = 0 ∨ after.point.actions = [] := by
    by_cases hfew : count ≤ machine.point.actions.length
    · exact .inl (by omega)
    · exact .inr (List.eq_nil_of_length_eq_zero (by omega))
  rw [← h.actions, List.take_append, List.take_of_length_le (by omega), List.take_eq_nil_iff.2 hrest, List.append_nil]

/-- Only matched facts are removed. -/
theorem removed_subset {happened : List Happening} (h : machine.Turned kind facts after happened) :
    happened.flatMap (Happening.removed kind) ⊆ facts := by
  intro ref href
  obtain ⟨happening, hmem, href⟩ := List.mem_flatMap.1 href
  rw [← h.facts happening hmem]
  exact Happening.mem_facts_of_removed href

/-- Only matched facts are written to. -/
theorem written_mem {happened : List Happening} (h : machine.Turned kind facts after happened) :
    ∀ write ∈ happened.filterMap (Happening.written? kind), write.1 ∈ facts := by
  intro write hwrite
  obtain ⟨happening, hmem, hwritten⟩ := List.mem_filterMap.1 hwrite
  rw [← h.facts happening hmem]
  exact Happening.mem_facts_of_written? hwritten

end Turned

namespace Fires

variable {kind : Command → Option Builtin} {facts : List FactRef} {known left : Nat} {machine : Machine} {act : Act}

theorem busy (h : machine.Fires kind facts known left) : machine.rests = false := by
  have hahead := h.ahead
  rw [rests]
  cases hpoint : machine.point with
  | between last =>
      rw [hpoint] at hahead
      cases hahead
  | _ => rfl

/-- An act that is not of the loop. -/
theorem turned_act (h : machine.Fires kind facts known left) (hother : act.isLoop = false)
    (halone : ∀ operation, act ≠ .memory operation) :
    machine.Turned kind facts (machine.act act).2 (machine.happening? act).toList := by
  cases howner : act.isForOwner with
  | true =>
      have hrefused : (act.isForOwner && !machine.rests) = true := by rw [howner, h.busy]; rfl
      rw [act_of_refused h.busy howner, happening?_of_refused hrefused]
      exact .refl machine
  | false =>
      rw [act_of_granted howner]
      cases act with
      | loop => cases hother
      | memory operation => exact absurd rfl (halone operation)
      | perform index =>
          show machine.Turned kind facts (machine.perform index)
            (machine.taken[index]?.map (Happening.perform machine.engine)).toList
          unfold perform
          cases hjob : machine.taken[index]? with
          | none => exact .refl machine
          | some job =>
              have hof := h.jobs job (List.mem_append_right _ (List.mem_of_getElem? hjob))
              exact .of_happening (machine.engine.changed_exec hof) hof.facts rfl
                (Engine.Worked.exec _ _ _ _).rules_eq
      | take =>
          simp only [grant, Machine.take]
          split
          · exact .refl machine
          · exact .aside (.refl _) rfl rfl
      | release index =>
          simp only [grant, Machine.release]
          split
          · exact .refl machine
          · exact .aside (Engine.changed_wake _) rfl rfl
      | halt => exact .aside (Engine.changed_wake _) rfl rfl
      | addRules _ | load _ _ | snapshot | begin _ | reset | dismiss => cases howner
      | search _ _ _ | look | template _ | get _ | fact _ | lower => exact .aside (.refl _) rfl rfl

/-- A move of the loop. -/
theorem turned_loop (h : machine.Fires kind facts known left) (hleft : 0 < left) :
    machine.Turned kind facts machine.loop (machine.happening? .loop).toList ∧
      machine.loop.point.Ahead kind facts (left - 1) := by
  obtain ⟨engine, point, limit, fired, taken, spent⟩ := machine
  have hahead : point.Ahead kind facts left := h.ahead
  have hstays {next : Point} (hactions : next.actions = point.actions) :
      Turned kind facts ⟨engine, point, limit, fired, taken, spent⟩ ⟨engine, next, limit, fired, taken, spent⟩ [] :=
    .aside (.refl _) hactions rfl
  cases hahead with
  | drain | close _ => cases hleft
  | start =>
      simp only [Machine.loop]
      split
      · exact ⟨hstays rfl, .close _⟩
      · split
        · exact ⟨hstays rfl, .close _⟩
        · exact ⟨hstays rfl, .drain⟩
  | @act firing actions hfacts honLoop hremovals hkind =>
      cases actions with
      | nil => exact ⟨hstays rfl, .start⟩
      | cons action actions =>
          obtain ⟨haction, hactions⟩ := List.forall_mem_cons.1 hkind
          have hwithin : ∀ ref ∈ firing.facts, ref.index < known := by
            rw [hfacts]
            exact h.within
          obtain ⟨hchanged, hsame, honLoop', hremovals'⟩ :=
            engine.changed_dispatch haction h.tidy hwithin honLoop hremovals
          exact ⟨.of_happening hchanged hfacts rfl (Engine.Worked.dispatch engine firing action).rules_eq,
            .act (hsame.trans hfacts) honLoop' hremovals' hactions⟩

/-- A job is one of the firing if it is handed over in it. -/
theorem jobs_act (h : machine.Fires kind facts known left) (act : Act) :
    ∀ job ∈ (machine.act act).2.jobs, job.2.Of kind facts := by
  intro job hjob
  have hperm : (machine.jobs ++ ((machine.happening? act).bind fun happening => happening.fate.handedOver?).toList).Perm
      (((machine.happening? act).bind Happening.performed?).toList ++ (machine.act act).2.jobs) :=
    Machine.jobs_act fun _ => h.busy
  rcases List.mem_append.1 (hperm.mem_iff.2 (List.mem_append_right _ hjob)) with hold | hnew
  · exact h.jobs job hold
  · obtain ⟨happening, hhappens, hover⟩ := Option.bind_eq_some_iff.1 (Option.mem_toList.1 hnew)
    obtain ⟨engine, firing, action, args, rfl, rfl⟩ := Happening.of_handedOver? hover
    rcases of_happening? hhappens with ⟨firing', action', actions, -, hpoint, heq⟩ | ⟨_, _, -, -, heq⟩
    · obtain ⟨rfl, rfl, rfl⟩ := Happening.dispatch.inj heq
      have hahead := h.ahead
      rw [hpoint] at hahead
      cases hahead with
      | act hfacts honLoop hremovals hkind => exact ⟨hkind action List.mem_cons_self, hfacts, rfl⟩
    · cases heq

/-- One act in the course of a firing. -/
theorem step (h : machine.Fires kind facts known left) (halone : ∀ operation, act ≠ .memory operation)
    (hleft : act.isLoop = true → 0 < left) :
    machine.Turned kind facts (machine.act act).2 (machine.happening? act).toList ∧
      machine.Accounts (machine.act act).2 (machine.happening? act).toList ∧
      (machine.act act).2.Fires kind facts known (if act.isLoop then left - 1 else left) := by
  have hturned : machine.Turned kind facts (machine.act act).2 (machine.happening? act).toList ∧
      (machine.act act).2.point.Ahead kind facts (if act.isLoop then left - 1 else left) := by
    cases hact : act.isLoop with
    | false =>
        rw [point_act h.busy hact]
        exact ⟨h.turned_act hact halone, h.ahead⟩
    | true =>
        obtain rfl := Act.eq_loop hact
        exact h.turned_loop (hleft rfl)
  obtain ⟨hturned, hahead⟩ := hturned
  exact ⟨hturned, .of_act fun _ => h.busy, hahead, h.jobs_act act, h.tidy.of_changed hturned.store, h.within⟩

/-- The course of a firing, until the queue is drained or the run is over. -/
theorem run (h : machine.Fires kind facts known left) {acts : List Act} (halone : ∀ operation, .memory operation ∉ acts)
    (hleft : acts.countP Act.isLoop ≤ left) :
    machine.Turned kind facts (machine.acts acts).2 (machine.happenings acts) ∧
      machine.Accounts (machine.acts acts).2 (machine.happenings acts) ∧
      (machine.acts acts).2.Fires kind facts known (left - acts.countP Act.isLoop) := by
  induction acts generalizing machine left with
  | nil => exact ⟨.refl machine, .refl machine, h⟩
  | cons act acts ih =>
      have hfirst : ∀ operation, act ≠ .memory operation :=
        fun operation heq => halone operation (heq ▸ List.mem_cons_self)
      have hrest : ∀ operation, .memory operation ∉ acts :=
        fun operation hmem => halone operation (List.mem_cons_of_mem _ hmem)
      cases hact : act.isLoop with
      | false =>
          have hfree : act.isLoop = true → 0 < left := fun hloop => absurd (hact.symm.trans hloop) Bool.false_ne_true
          obtain ⟨hturned, haccounts, hnext⟩ := h.step hfirst hfree
          rw [hact, if_neg Bool.false_ne_true] at hnext
          rw [Act.countP_cons_of_other hact] at hleft ⊢
          obtain ⟨hlater, hothers, hlast⟩ := ih hnext hrest hleft
          exact ⟨hturned.trans hlater, haccounts.trans hothers, hlast⟩
      | true =>
          rw [List.countP_cons_of_pos hact] at hleft ⊢
          obtain ⟨hturned, haccounts, hnext⟩ := h.step hfirst fun _ => Nat.lt_of_lt_of_le (Nat.succ_pos _) hleft
          rw [hact, if_pos rfl] at hnext
          obtain ⟨hlater, hothers, hlast⟩ := ih hnext hrest (Nat.le_sub_one_of_lt hleft)
          rw [Nat.sub_sub, Nat.add_comm] at hlast
          exact ⟨hturned.trans hlater, haccounts.trans hothers, hlast⟩

end Fires

end Machine

section Beginning

/-- What is chosen is what the recursion over the conditions finds for one of the rules. -/
theorem Engine.solve_of_choose {engine : Engine} (hidle : ∀ pool ∈ engine.matchers, pool.queue = []) {found : Match}
    (hchoose : engine.choose = some found) :
    found.source ∈ engine.rules ∧
      Goal.solve (found.source.rule.goals engine.view) [] Dictionary.empty = some ⟨found.facts, found.bindings⟩ := by
  have hmem : found ∈ Match.all engine.config.maxMatchFrames engine.view engine.rules := by
    rw [← Match.allBy_eq_all hidle]
    exact mem_matchAll_of_choose hchoose
  obtain ⟨source, hsource, hmatch⟩ := List.mem_filterMap.1 hmem
  have hfree : source.match? none engine.view = some found := by
    cases hbudget : engine.config.maxMatchFrames with
    | none => exact hbudget ▸ hmatch
    | some budget => exact RuleInstance.match?_none_of_some (hbudget ▸ hmatch)
  rw [RuleInstance.match?_none] at hfree
  obtain ⟨finding, hsolve, rfl⟩ := Option.map_eq_some_iff.1 hfree
  exact ⟨hsource, hsolve⟩

/-- What is matched is known. -/
theorem Engine.known_of_choose {engine : Engine} (hidle : ∀ pool ∈ engine.matchers, pool.queue = []) {found : Match}
    (hchoose : engine.choose = some found) : ∀ ref ∈ found.facts, ref.index < engine.store.facts.size := by
  have hsolve := (solve_of_choose hidle hchoose).2
  intro ref href
  obtain ⟨goal, hgoal, candidate, hcandidate, rfl⟩ :=
    (Goal.mem_facts_of_solve hsolve href).resolve_left List.not_mem_nil
  obtain ⟨condition, -, rfl⟩ := List.mem_map.1 hgoal
  obtain ⟨other, -, hfact⟩ := List.mem_filterMap.1 hcandidate
  obtain ⟨fact, hknown, rfl⟩ := Option.map_eq_some_iff.1 hfact
  exact (Array.getElem?_eq_some_iff.1 hknown).1

theorem Session.store_run (session : Session) (operations : List Operation) :
    (session.run operations).2.store = session.store.undergo operations := by
  induction operations generalizing session with
  | nil => rfl
  | cons operation operations ih =>
      have hstep : (session.step operation).2.store = session.store.operate operation := by
        unfold Store.operate step
        dsimp only
        split
        · cases operation <;> rfl
        · rfl
      rw [Store.undergo, List.foldl_cons, ← hstep]
      exact ih _

theorem Operation.Lawful.entersByMake {operation : Operation} (h : operation.Lawful) :
    operation.entersByMake = true := by
  cases operation with
  | create _ _ _ | enqueue _ => exact h.elim
  | _ => rfl

/-- Memory into which facts come only by being made is tidy. -/
theorem Store.Tidy.undergo {operations : List Operation} (hlawful : ∀ operation ∈ operations, operation.Lawful)
    (hfew : (operations.map Operation.makes).sum < 2 ^ 64) :
    (({} : Store).undergo operations).Tidy (({} : Store).undergo operations).facts.size := by
  have hrepresents := (SessionRepresents.empty.run operations).2.store
  rw [Session.store_run] at hrepresents
  have horderly := (FlatMemory.orderly_run (fun operation hmem => (hlawful operation hmem).entersByMake) hfew).1
  exact .of_represents hrepresents horderly

end Beginning

namespace Machine

variable {config : Config} {machine : Machine} {found : Match}

/-- Memory is tidy when an engine into which facts came only by being made has come so far. -/
theorem tidy_acts {reading : Reading} {acts : List Act} (hacts : ∀ act ∈ acts, act.Lawful reading)
    (hfew : (((Machine.new config).trace reading acts).map Operation.makes).sum < 2 ^ 64) :
    let store := ((Machine.new config).acts acts).2.engine.store
    store.Tidy store.facts.size := by
  intro store
  obtain ⟨hstore, hlawful⟩ := store_acts (Sound.new config)
    (fun command hcommand => (not_mem_commands_new config hcommand).elim) hacts
  rw [show store = _ from hstore]
  exact .undergo hlawful hfew

theorem jobs_fire (hsound : machine.Sound config) (hidle : machine.engine.outstanding = 0) (found : Match) :
    (machine.fire found).jobs = [] := by
  obtain ⟨hqueue, htaken, -⟩ := hsound.nothing_under_way hidle
  exact List.append_eq_nil_iff.2 ⟨List.eq_nil_of_length_eq_zero hqueue, htaken⟩

/-- A rule is fired when no action of an earlier firing is under way. -/
theorem Fires.fire {kind : Command → Option Builtin} (hsound : machine.Sound config)
    (htidy : machine.engine.store.Tidy machine.engine.store.facts.size) (hidle : machine.engine.outstanding = 0)
    (hchoose : machine.engine.choose = some found)
    (hkind : ∀ action ∈ found.source.rule.actions, action.command.Is (kind action.command)) :
    (machine.fire found).Fires kind found.facts machine.engine.store.facts.size
      (found.source.rule.actions.length + 2) where
  ahead := .act rfl rfl rfl hkind
  jobs := by
    rw [jobs_fire hsound hidle]
    exact List.forall_mem_nil _
  tidy := htidy
  within := Engine.known_of_choose hsound.idle hchoose

/-- **What a firing changes in memory.** Facts have come into memory only by being made, fewer than 2 ^ 64 of them, and
no action of an earlier firing is under way. A rule is fired whose actions are built-in commands, on the loop or with
the workers, and commands that only fail or panic. Workers and others act between the moves of the loop, but for those
who change memory themselves, and the loop does not drain the queue again. Then

* the loop dispatches the actions one after the other, each once, and each job that it hands over is done once or still
  to be done;
* the live facts of each type are those before in the same order, but for the matched facts that actions on the loop
  have queued for removal, each up to its first argument that names none, whether it fails then or not; an action whose
  parameters have no values does not run and queues none;
* what is made is added to the queue in the order in which it is made, and none of it is live;
* from any moment on, a fact stays what it is but for the fields that modifications of it write that succeed, and only
  matched facts are modified;
* jobs that are left are of the same kind: whenever they are done, they remove nothing, and write to matched facts only;
* templates and rules are the same. -/
theorem firing_changes_memory (reading : Reading) (kind : Command → Option Builtin) (config : Config)
    (history : List Act) (hhistory : ∀ act ∈ history, act.Lawful reading)
    (hfew : (((Machine.new config).trace reading history).map Operation.makes).sum < 2 ^ 64) {machine : Machine}
    (hmachine : ((Machine.new config).acts history).2 = machine) (hpoint : machine.point = .matching)
    (hidle : machine.engine.outstanding = 0) {found : Match} (hchoose : machine.engine.choose = some found)
    (hkind : ∀ action ∈ found.source.rule.actions, action.command.Is (kind action.command)) (later : List Act)
    (hlater : later.countP Act.isLoop ≤ found.source.rule.actions.length + 2)
    (halone : ∀ operation, .memory operation ∉ later) :
    let start := machine.loop
    let after := (start.acts later).2
    let happened := start.happenings later
    let removed := happened.flatMap (Happening.removed kind)
    let made := happened.filterMap (Happening.made? kind)
    (happened.filterMap Happening.action? = found.source.rule.actions.take (later.countP Act.isLoop) ∧
        (happened.filterMap fun happening => happening.fate.handedOver?).Perm
          (happened.filterMap Happening.performed? ++ after.jobs)) ∧
      (removed ⊆ found.facts ∧
        ∀ type, after.engine.store.get type = (machine.engine.store.get type).filter (· ∉ removed)) ∧
      (after.engine.store.pending = machine.engine.store.pending ++ made ∧
        ∀ ref ∈ made, ∀ type, ref ∉ after.engine.store.get type) ∧
      (∀ first last, later = first ++ last →
        let middle := (start.acts first).2
        let writes := (middle.happenings last).filterMap (Happening.written? kind)
        (∀ write ∈ writes, write.1 ∈ found.facts) ∧
          ∀ ref fact, middle.engine.store.fact? ref = some fact → ∃ kept, after.engine.store.fact? ref = some kept ∧
            kept.id = fact.id ∧ kept.type = fact.type ∧ kept.fields = Fact.rewritten ref writes fact.fields ∧
            (ref ∉ found.facts → kept.fields = fact.fields)) ∧
      (∀ job ∈ after.jobs, ∀ engine : Engine,
        let happening : Happening := .perform engine job
        engine.store.Changed (engine.exec job.2.command job.2.args job.2.firing).2.store []
            (happening.made? kind).toList (happening.written? kind).toList ∧
          ∀ write, happening.written? kind = some write → write.1 ∈ found.facts) ∧
      after.engine.store.templates = machine.engine.store.templates ∧ after.engine.rules = machine.engine.rules := by
  intro start after happened removed made
  have hstart : start = machine.fire found := loop_of_choose hpoint hchoose
  have htidy : machine.engine.store.Tidy machine.engine.store.facts.size := hmachine ▸ tidy_acts hhistory hfew
  have hsound : machine.Sound config := hmachine ▸ (Sound.new config).acts history
  have hfires : start.Fires kind found.facts machine.engine.store.facts.size
      (found.source.rule.actions.length + 2) := hstart ▸ .fire hsound htidy hidle hchoose hkind
  obtain ⟨hturned, haccounts, hleft⟩ : start.Turned kind found.facts after happened ∧
      start.Accounts after happened ∧ after.Fires kind found.facts _ _ := hfires.run halone hlater
  have hsame : start.engine.store = machine.engine.store := by rw [hstart]; rfl
  have hchanged : machine.engine.store.Changed after.engine.store removed made _ := hsame ▸ hturned.store
  refine ⟨⟨?_, ?_⟩, ⟨hturned.removed_subset, hchanged.live⟩, ⟨hchanged.pending, ?_⟩, ?_, ?_, hchanged.templates, ?_⟩
  · have hactions : start.point.actions = found.source.rule.actions := hstart ▸ rfl
    have hrest := hleft.ahead.length_actions
    rw [← hactions]
    exact hturned.dispatched (by rw [hrest, hactions]; omega)
  · have hjobs := haccounts.jobs
    rwa [show start.jobs = [] from hstart ▸ jobs_fire hsound hidle found, List.nil_append] at hjobs
  · intro ref href type hlive
    rw [hchanged.live] at hlive
    obtain ⟨fact, hfact, -⟩ := htidy.typed type ref (List.mem_of_mem_filter hlive)
    exact absurd (Array.getElem?_eq_some_iff.1 hfact).1 (Nat.not_lt.2 (hchanged.fresh ref href))
  · rintro first last rfl middle writes
    rw [List.countP_append] at hlater
    have hmiddle := (hfires.run (fun operation hmem => halone operation (List.mem_append_left _ hmem))
      (Nat.le_of_add_right_le hlater)).2.2
    have hlast : middle.Turned kind found.facts after (middle.happenings last) := by
      rw [show after = (start.acts (first ++ last)).2 from rfl, acts_append]
      exact (hmiddle.run (fun operation hmem => halone operation (List.mem_append_right _ hmem))
        (Nat.le_sub_of_add_le' hlater)).1
    refine ⟨hlast.written_mem, fun ref fact hfact => ?_⟩
    obtain ⟨kept, hkept, hid, htype, hfields⟩ := hlast.store.facts ref fact hfact
    refine ⟨kept, hkept, hid, htype, hfields, fun hother => hfields.trans ?_⟩
    have hothers : ∀ write ∈ writes, write.1 ≠ ref :=
      fun write hwrite heq => hother (heq ▸ hlast.written_mem write hwrite)
    exact Fact.rewritten_of_others hothers fact.fields
  · intro job hjob engine happening
    have hof := hleft.jobs job hjob
    exact ⟨engine.changed_exec hof, fun write hwritten => hof.facts ▸ Happening.mem_facts_of_written? hwritten⟩
  · rw [hturned.rules, hstart]
    rfl

/-- The built-in command of the name of a command. -/
def builtinOf? (command : Command) : Option Builtin := Builtin.all.find? (·.name = command.name)

/-- Reads the built-in commands, and the one that panics. -/
def explosiveReading : Reading := fun command args firing =>
  if command.name = explode.name then .done ((explode.run args ⟨firing, {}⟩).1, firing)
  else Builtin.reading command args firing

theorem builtinOf?_command (builtin : Builtin) (mode : Mode) :
    builtinOf? { builtin.command with mode } = some builtin := by
  cases builtin <;> rfl

theorem is_builtinOf? (builtin : Builtin) (mode : Mode) :
    Command.Is { builtin.command with mode } (builtinOf? { builtin.command with mode }) := by
  rw [builtinOf?_command]
  exact .builtin builtin rfl

theorem lawful_explosiveReading (builtin : Builtin) (mode : Mode) :
    explosiveReading.Lawful { builtin.command with mode } := by
  have hsame : explosiveReading { builtin.command with mode } = Builtin.reading { builtin.command with mode } := by
    cases builtin <;> rfl
  rw [Reading.Lawful, Reading.Fits, hsame]
  exact Builtin.lawful_reading builtin mode

/-- A rule that puts a part into a bin, and whose actions fail in different ways. -/
def storing : Rule where
  name := "store"
  conditions := [⟨"part", []⟩, ⟨"bin", []⟩]
  actions := [
    ⟨Builtin.make.command, [.literal (.str "part"), .literal (.str "size"), .literal (.int 3)]⟩,
    ⟨{ Builtin.modify.command with mode := .async }, [.literal (.int 0), .literal (.str "size"), .literal (.int 2)]⟩,
    ⟨Builtin.remove.command, [.literal (.int 0), .literal (.str "lid"), .literal (.int 1)]⟩,
    ⟨explode, []⟩,
    ⟨{ Builtin.remove.command with mode := .async }, [.literal (.int 1)]⟩,
    ⟨{ Builtin.make.command with mode := .async }, [.literal (.str "bin")]⟩,
    ⟨Builtin.modify.command, [.literal (.int 1), .literal (.str "size"), .literal (.int 5)]⟩]

def partDelivering : List Act := [
  .memory (.register ⟨"part", [("size", .nil)]⟩), .memory (.register ⟨"bin", []⟩), .memory (.make "part" []),
  .memory (.make "bin" []), .addRules [storing], .begin none, .loop, .loop]

def partsDelivered : Machine := ((Machine.new .sequential).acts partDelivering).2

def storingMatch : Match := ⟨⟨0, storing⟩, [⟨0⟩, ⟨1⟩], Dictionary.empty⟩

theorem lawful_partDelivering : ∀ act ∈ partDelivering, act.Lawful explosiveReading := by
  have hcommands : ∀ command ∈ storing.commands, explosiveReading.Lawful command :=
    List.forall_mem_cons.2 ⟨lawful_explosiveReading .make .sync,
      List.forall_mem_cons.2 ⟨lawful_explosiveReading .modify .async,
        List.forall_mem_cons.2 ⟨lawful_explosiveReading .remove .sync,
          List.forall_mem_cons.2 ⟨⟨fun _ _ _ => rfl, fun _ _ => trivial⟩,
            List.forall_mem_cons.2 ⟨lawful_explosiveReading .remove .async,
              List.forall_mem_cons.2 ⟨lawful_explosiveReading .make .async,
                List.forall_mem_singleton.2 (lawful_explosiveReading .modify .sync)⟩⟩⟩⟩⟩⟩
  have hpart : (⟨"part", [("size", .nil)]⟩ : Template).Built := .withField (.new "part") "size" .nil
  have hbin : (⟨"bin", []⟩ : Template).Built := .new "bin"
  simpa [partDelivering, Act.Lawful, Act.Brings, Operation.Lawful, hpart, hbin] using hcommands

theorem is_builtinOf?_of_storing : ∀ action ∈ storing.actions, action.command.Is (builtinOf? action.command) :=
  List.forall_mem_cons.2 ⟨is_builtinOf? .make .sync,
    List.forall_mem_cons.2 ⟨is_builtinOf? .modify .async,
      List.forall_mem_cons.2 ⟨is_builtinOf? .remove .sync,
        List.forall_mem_cons.2 ⟨.failing fun _ _ => ⟨_, rfl⟩,
          List.forall_mem_cons.2 ⟨is_builtinOf? .remove .async,
            List.forall_mem_cons.2 ⟨is_builtinOf? .make .async,
              List.forall_mem_singleton.2 (is_builtinOf? .modify .sync)⟩⟩⟩⟩⟩⟩

theorem choose_partsDelivered : partsDelivered.engine.choose = some storingMatch := by
  have hall : partsDelivered.engine.matchAll = Match.all none partsDelivered.engine.view [⟨0, storing⟩] := rfl
  rw [Engine.choose_of_matchAll hall]
  rfl

/-- A worker does the modification after the part was removed, and another the last jobs when all is dispatched. -/
theorem firing_changes_memory_storing :
    let later : List Act := [
      .loop, .loop, .loop, .take, .loop, .perform 0, .loop, .loop, .loop, .take, .take, .loop, .perform 1, .perform 0]
    let start := partsDelivered.loop
    let after := (start.acts later).2
    let happened := start.happenings later
    happened.filterMap Happening.action? = storing.actions ∧
      (happened.filterMap fun happening => happening.fate.handedOver?).Perm (happened.filterMap Happening.performed?) ∧
      after.engine.store.get "part" = [] ∧ after.engine.store.get "bin" = [⟨1⟩] ∧
      after.engine.store.pending = [⟨2⟩, ⟨3⟩] ∧
      (after.engine.store.fact? ⟨0⟩).map Fact.fields = some [("size", .int 2)] ∧
      after.engine.failures.size = 4 := by
  intro later start after happened
  have hstart : start = partsDelivered.fire storingMatch := loop_of_choose rfl choose_partsDelivered
  have hmachine : ((Machine.new .sequential).acts partDelivering).2 = partsDelivered := rfl
  obtain ⟨⟨hactions, hjobs⟩, ⟨-, hlive⟩, ⟨hpending, -⟩, hfields, -⟩ :=
    firing_changes_memory explosiveReading builtinOf? .sequential partDelivering lawful_partDelivering (by decide)
      hmachine rfl rfl choose_partsDelivered is_builtinOf?_of_storing later (by decide) (by simp [later])
  have hdone : after.jobs = [] := by
    show (start.acts _).2.jobs = []
    rw [hstart]
    rfl
  have hremoved : happened.flatMap (Happening.removed builtinOf?) = [⟨0⟩] := by
    show (start.happenings _).flatMap _ = _
    rw [hstart]
    rfl
  have hmade : happened.filterMap (Happening.made? builtinOf?) = [⟨2⟩, ⟨3⟩] := by
    show (start.happenings _).filterMap _ = _
    rw [hstart]
    rfl
  have hwritten : happened.filterMap (Happening.written? builtinOf?) = [(⟨0⟩, [("size", .int 2)])] := by
    show (start.happenings _).filterMap _ = _
    rw [hstart]
    rfl
  have hleft (type : String) : after.engine.store.get type =
      (partsDelivered.engine.store.get type).filter (· ∉ happened.flatMap (Happening.removed builtinOf?)) := hlive type
  refine ⟨hactions, ?_, ?_, ?_, hpending.trans (congrArg _ hmade), ?_, ?_⟩
  · rw [← List.append_nil (happened.filterMap Happening.performed?), ← hdone]
    exact hjobs
  · rw [hleft, hremoved]
    rfl
  · rw [hleft, hremoved]
    rfl
  · have hfact : start.engine.store.fact? ⟨0⟩ = some ⟨⟨0⟩, "part", [("size", .nil)], false⟩ := by
      rw [hstart]
      rfl
    obtain ⟨kept, hkept, -, -, hrewritten, -⟩ := (hfields [] later rfl).2 ⟨0⟩ _ hfact
    show (after.engine.store.fact? ⟨0⟩).map Fact.fields = _
    rw [show after.engine.store.fact? ⟨0⟩ = _ from hkept, Option.map_some, hrewritten]
    show some (Fact.rewritten ⟨0⟩ (happened.filterMap (Happening.written? builtinOf?)) _) = _
    rw [hwritten]
    rfl
  · show (start.acts _).2.engine.failures.size = 4
    rw [hstart]
    rfl

end Machine

end ProductionSystem
