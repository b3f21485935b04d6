import ProductionSystem.Proofs.Loads
import ProductionSystem.Proofs.MemoryHistory
import ProductionSystem.Proofs.TicketBalance

/-!
All that is done with an engine and all that its threads do, act by act, and what each act is answered. Its
owner adds and loads rules, uses working memory, begins runs and resets or dismisses it; others signal, read and
write facts through handles; the loop and the workers go on in any order. What has to wait is refused and
changes nothing, so a list of acts is a history whatever stands in it.
-/

namespace ProductionSystem

/-- What an engine shows of itself. -/
structure Sight where
  rules : List RuleInstance
  state : EngineState
  lastFired : Option RuleInstance
  firings : Nat
  failures : Array Failure
  tickets : List Ticket
  halted : Bool
  size : Nat
  pending : Nat
  epoch : UInt64
  /-- What was written. -/
  lines : Array String

def Engine.sight (engine : Engine) : Sight where
  rules := engine.rules
  state := engine.state
  lastFired := engine.lastFired
  firings := engine.firings
  failures := engine.failures
  tickets := engine.executor.tickets
  halted := engine.workspace.halted
  size := engine.store.size
  pending := engine.store.pending.length
  epoch := engine.store.epoch
  lines := engine.workspace.lines

inductive Act where
  /-- Adds rules, one or several. -/
  | addRules (rules : List Rule)
  | load (registry : Registry) (source : LoadSource)
  | memory (operation : Operation)
  | snapshot
  /-- Matches a rule against a snapshot. -/
  | search (rule : Rule) (budget : Option Nat) (snapshot : Snapshot)
  | look
  | template (type : String)
  | get (type : String)
  | fact (ref : FactRef)
  | begin (limit : Option Nat)
  | reset
  | dismiss
  | halt
  /-- Takes the request to halt back. -/
  | lower
  | loop
  | take
  | perform (index : Nat)
  | release (index : Nat)

/-- What an act is answered. -/
inductive Reply where
  | done
  /-- It has to wait. -/
  | refused
  | answer (answer : Answer)
  | loaded (result : Except Error LoadSummary)
  | snapshot (snapshot : Snapshot)
  | found (finding? : Option Finding)
  | sight (sight : Sight)
  | template (template? : Option Template)
  | facts (refs : List FactRef)
  | fact (fact? : Option Fact)
  /-- A run is over. -/
  | ran (report : Report)

/-- Is a use of memory left to the owner of the engine? Others make and change facts through handles. -/
def Operation.isForOwner : Operation → Bool
  | drain | drainSince .. | drainBlocking .. | remove _ | snapshot | reset => true
  | register _ | make .. | create .. | enqueue _ | wake | set .. | setMany .. => false

/-- Has an act to wait until no run is under way? -/
def Act.isForOwner : Act → Bool
  | addRules _ | load .. | snapshot | begin _ | reset | dismiss => true
  | memory operation => operation.isForOwner
  | search .. | look | template _ | get _ | fact _ | halt | lower | loop | take | perform _ | release _ => false

namespace Machine

/-- Is no run under way? -/
def rests (machine : Machine) : Bool :=
  match machine.point with
  | .between _ => true
  | _ => false

def withEngine (machine : Machine) (engine : Engine) : Machine := { machine with engine }

/-- What the loop says after a move. -/
def report (machine : Machine) : Reply :=
  match machine.rests, machine.loop.returned with
  | false, some outcome => .ran ⟨machine.fired, outcome⟩
  | _, _ => .done

/-- An act that need not wait for a run. -/
def grant (machine : Machine) : Act → Reply × Machine
  | .addRules rules => (.done, machine.withEngine (machine.engine.addRules rules))
  | .load registry source => (machine.engine.load registry source).map .loaded machine.withEngine
  | .memory operation =>
    (({ store := machine.engine.store } : Session).step operation).map .answer
      fun session => machine.withEngine (machine.engine.withStore session.store)
  | .snapshot => (.snapshot machine.engine.store.snapshot, machine)
  | .search rule budget snapshot =>
    (.found (rule.search budget (machine.engine.store.view snapshot)).finding?, machine)
  | .look => (.sight machine.engine.sight, machine)
  | .template type => (.template (machine.engine.store.template? type), machine)
  | .get type => (.facts (machine.engine.store.get type), machine)
  | .fact ref => (.fact (machine.engine.store.fact? ref), machine)
  | .begin limit => (.done, machine.step (.begin limit))
  | .reset =>
    if machine.engine.outstanding = 0 then
      (.done, { machine with engine := machine.engine.reset, point := .between none, limit := none, fired := 0 })
    else (.refused, machine)
  | .dismiss => (.done, machine.step .dismiss)
  | .halt => (.done, machine.withEngine machine.engine.halt)
  | .lower => (.done, machine.withEngine { machine.engine with workspace := machine.engine.workspace.clearHalt })
  | .loop => (machine.report, machine.loop)
  | .take => (.done, machine.take)
  | .perform index => (.done, machine.perform index)
  | .release index => (.done, machine.release index)

def act (machine : Machine) (act : Act) : Reply × Machine :=
  if act.isForOwner && !machine.rests then (.refused, machine) else machine.grant act

def acts (machine : Machine) : List Act → List Reply × Machine
  | [] => ([], machine)
  | act :: acts =>
    let (reply, machine) := machine.act act
    let (replies, machine) := machine.acts acts
    (reply :: replies, machine)

theorem acts_append (machine : Machine) (first later : List Act) :
    machine.acts (first ++ later) =
      ((machine.acts first).1 ++ ((machine.acts first).2.acts later).1, ((machine.acts first).2.acts later).2) := by
  induction first generalizing machine with
  | nil => rfl
  | cons act first ih =>
      simp only [List.cons_append, acts, ih]

/-- A loop that has found a match fires it. -/
theorem loop_of_choose {machine : Machine} (hpoint : machine.point = .matching) {found : Match}
    (hchoose : machine.engine.choose = some found) : machine.loop = machine.fire found := by
  simp only [Machine.loop, hpoint, hchoose]

theorem acts_loop_of_choose {machine : Machine} (hpoint : machine.point = .matching) {found : Match}
    (hchoose : machine.engine.choose = some found) (later : List Act) :
    (machine.acts (.loop :: later)).2 = ((machine.fire found).acts later).2 := by
  show (machine.loop.acts later).2 = _
  rw [loop_of_choose hpoint hchoose]

end Machine

namespace Machine.Sound

variable {config : Config} {machine : Machine}

theorem withEngine (h : machine.Sound config) {engine : Engine} (hconfig : engine.config = machine.engine.config)
    (hmatchers : engine.matchers = machine.engine.matchers) (hexecutor : engine.executor = machine.engine.executor) :
    (machine.withEngine engine).Sound config := by
  refine h.of_eq hconfig hmatchers ?_
  show engine.executor.Balanced _
  rw [hexecutor]
  exact h.balanced

theorem grant (h : machine.Sound config) (act : Act) : (machine.grant act).2.Sound config := by
  cases act with
  | addRules rules =>
      exact h.withEngine (Engine.config_addRules _ rules) (Engine.matchers_addRules _ rules)
        (Engine.executor_addRules _ rules)
  | load registry source =>
      have hloaded := Engine.loaded_load machine.engine registry source
      show (machine.withEngine (machine.engine.load registry source).2).Sound config
      obtain ⟨store, heq | ⟨rules, heq⟩⟩ := hloaded
      · rw [heq]
        exact h.withEngine rfl rfl rfl
      · rw [heq]
        exact h.withEngine (Engine.config_addRules _ rules) (Engine.matchers_addRules _ rules)
          (Engine.executor_addRules _ rules)
  | memory operation => exact h.withEngine rfl rfl rfl
  | snapshot | search _ _ _ | look | template _ | get _ | fact _ => exact h
  | begin limit => exact h.step (.begin limit)
  | reset =>
      simp only [Machine.grant]
      split
      · rename_i hzero
        have hsettle := Engine.settle_of_queue_eq_nil (List.eq_nil_of_length_eq_zero (h.nothing_under_way hzero).1)
        have hagenda := machine.engine.agenda_reset
        refine h.of_eq (congrArg Agenda.config hagenda) (congrArg Agenda.matchers hagenda) ?_
        show machine.engine.settle.executor.Balanced _
        rw [hsettle]
        exact h.balanced
      · exact h
  | dismiss => exact h.step .dismiss
  | halt | lower => exact h.withEngine rfl rfl rfl
  | loop => exact h.loop
  | take => exact h.take
  | perform index => exact h.perform index
  | release index => exact h.release index

theorem act (h : machine.Sound config) (act : Act) : (machine.act act).2.Sound config := by
  unfold Machine.act
  split
  · exact h
  · exact h.grant act

theorem acts (h : machine.Sound config) (acts : List Act) : (machine.acts acts).2.Sound config := by
  induction acts generalizing machine with
  | nil => exact h
  | cons act acts ih => exact ih (h.act act)

end Machine.Sound

section Commands

theorem Engine.of_mem_commands_dispatch {engine : Engine} {firing : Firing} {action : Action} {command : Command}
    (h : command ∈ (dispatch firing engine action).2.commands) :
    command ∈ engine.commands ∨ command = action.command := by
  have hworked := Worked.dispatch engine firing action
  rcases List.mem_append.1 h with h | h
  · rw [hworked.rules_eq, hworked.matchers_eq] at h
    exact .inl (List.mem_append_left _ h)
  · obtain ⟨job, hjob, rfl⟩ := List.mem_map.1 h
    exact (of_mem_queue_dispatch hjob).imp mem_commands_of_job And.right

theorem Engine.of_mem_commands_reset {engine : Engine} {command : Command} (h : command ∈ engine.reset.commands) :
    command ∈ engine.commands := by
  have hmatchers : engine.reset.matchers = engine.matchers := congrArg Agenda.matchers engine.agenda_reset
  have hqueue : engine.reset.executor.pool.queue = [] := engine.queue_settle
  rw [mem_commands_iff, hmatchers, hqueue] at h
  rw [mem_commands_iff]
  rcases h with ⟨source, hsource, -⟩ | h | ⟨job, hjob, -⟩
  · cases hsource
  · exact .inr (.inl h)
  · cases hjob

/-- The commands of the actions that are still to be dispatched. -/
def Point.commands : Point → List Command
  | .act _ actions => actions.map Action.command
  | _ => []

/-- The commands that a machine can come to run as it is. -/
def Machine.commands (machine : Machine) : List Command :=
  machine.engine.commands ++ machine.point.commands ++ machine.taken.map (·.2.command)

/-- Is a command one that an act brings in? -/
def Act.Brings (command : Command) : Act → Prop
  | addRules rules => ∃ rule ∈ rules, command ∈ rule.commands
  | load registry _ => registry.Names command
  | _ => False

namespace Machine

variable {machine : Machine} {command : Command}

theorem mem_commands_iff : command ∈ machine.commands ↔
    command ∈ machine.engine.commands ∨ command ∈ machine.point.commands ∨
      ∃ job ∈ machine.taken, job.2.command = command := by
  simp only [commands, List.mem_append, List.mem_map, or_assoc]

theorem of_mem_commands_loop (h : command ∈ machine.loop.commands) : command ∈ machine.commands := by
  revert h
  have hmoves {engine : Engine} {point : Point} (hengine : engine.commands = machine.engine.commands)
      (hpoint : ∀ firing actions, point ≠ .act firing actions)
      (h : command ∈ { machine with engine, point }.commands) : command ∈ machine.commands := by
    have hnone : point.commands = [] := by
      cases point with
      | act firing actions => exact (hpoint firing actions rfl).elim
      | _ => rfl
    rw [mem_commands_iff] at h ⊢
    rw [hnone, hengine] at h
    exact h.imp_right fun h => .inr (h.resolve_left List.not_mem_nil)
  refine loop_moves (P := fun next => command ∈ next.commands → command ∈ machine.commands) machine
    (fun _ _ hpoint => hmoves rfl hpoint) (fun _ hpoint => hmoves rfl hpoint) ?fires ?acts
  case fires =>
    intro found _ hchoose h
    rw [mem_commands_iff] at h ⊢
    refine Or.elim h .inl (Or.rec (fun hbegun => .inl ?_) fun htaken => .inr (.inr htaken))
    obtain ⟨action, haction, rfl⟩ := List.mem_map.1 hbegun
    exact Engine.mem_commands_of_choose hchoose haction
  case acts =>
    intro firing action actions hpoint h
    rw [mem_commands_iff] at h ⊢
    rw [hpoint]
    rcases h with h | h | h
    · refine (Engine.of_mem_commands_dispatch h).imp_right fun heq => .inl ?_
      exact heq ▸ List.mem_cons_self
    · exact .inr (.inl (List.mem_cons_of_mem _ h))
    · exact .inr (.inr h)

theorem of_mem_commands_grant {act : Act} (h : command ∈ (machine.grant act).2.commands) :
    command ∈ machine.commands ∨ act.Brings command := by
  cases act with
  | addRules rules =>
      rw [mem_commands_iff] at h ⊢
      rcases h with h | h
      · exact (Engine.of_mem_commands_addRules h).imp_left .inl
      · exact .inl (.inr h)
  | load registry source =>
      rw [mem_commands_iff] at h ⊢
      rcases h with h | h
      · exact (Engine.of_mem_commands_load h).imp_left .inl
      · exact .inl (.inr h)
  | begin limit =>
      simp only [grant, step] at h
      split at h
      · rw [mem_commands_iff] at h ⊢
        exact .inl (h.imp_right fun h => .inr (h.resolve_left List.not_mem_nil))
      · exact .inl h
  | reset =>
      simp only [grant] at h
      split at h
      · rw [mem_commands_iff] at h ⊢
        refine .inl (h.imp Engine.of_mem_commands_reset fun h => .inr (h.resolve_left List.not_mem_nil))
      · exact .inl h
  | dismiss =>
      simp only [grant, step] at h
      split at h
      · rw [mem_commands_iff] at h ⊢
        refine .inl (h.imp (fun h => ?_) fun h => .inr (h.resolve_left List.not_mem_nil))
        rw [Engine.mem_commands_iff] at h ⊢
        exact h.imp_right fun h => .inr (h.resolve_left fun ⟨pool, hpool, _⟩ => Option.not_mem_none pool hpool)
      · exact .inl h
  | loop => exact .inl (of_mem_commands_loop h)
  | take =>
      simp only [grant, Machine.take] at h
      split at h
      · exact .inl h
      · rename_i job queue hqueue
        rw [mem_commands_iff, Engine.mem_commands_iff] at h
        rw [mem_commands_iff, Engine.mem_commands_iff, hqueue]
        refine .inl ?_
        rcases h with (h | h | ⟨other, hother, h⟩) | h | ⟨other, hother, h⟩
        · exact .inl (.inl h)
        · exact .inl (.inr (.inl h))
        · exact .inl (.inr (.inr ⟨other, List.mem_cons_of_mem _ hother, h⟩))
        · exact .inr (.inl h)
        · rcases List.mem_append.1 hother with hother | hother
          · exact .inr (.inr ⟨other, hother, h⟩)
          · exact .inl (.inr (.inr ⟨other, List.mem_singleton.1 hother ▸ List.mem_cons_self, h⟩))
  | perform index =>
      simp only [grant, Machine.perform] at h
      split at h
      · exact .inl h
      · rename_i job hjob
        rw [mem_commands_iff] at h ⊢
        refine .inl (h.imp (fun h => ?_) (Or.imp_right ?_))
        · refine Engine.commands_subset_of_worked (.exec _ _ _ _) (fun other hother => ?_) h
          rw [Engine.executor_exec] at hother
          exact Engine.mem_commands_of_job hother
        · rintro ⟨job, hjob, rfl⟩
          exact ⟨job, List.mem_of_mem_eraseIdx hjob, rfl⟩
  | release index =>
      simp only [grant, Machine.release] at h
      split at h
      · exact .inl h
      · exact .inl h
  | memory _ | snapshot | search _ _ _ | look | template _ | get _ | fact _ | halt | lower => exact .inl h

theorem of_mem_commands_act {act : Act} (h : command ∈ (machine.act act).2.commands) :
    command ∈ machine.commands ∨ act.Brings command := by
  unfold Machine.act at h
  split at h
  · exact .inl h
  · exact of_mem_commands_grant h

/-- A new machine has no commands. -/
theorem not_mem_commands_new (config : Config) : command ∉ (Machine.new config).commands := by
  intro h
  rw [mem_commands_iff, Engine.mem_commands_iff] at h
  rcases h with (⟨_, hsource, _⟩ | ⟨pool, hpool, _, hjob, _⟩ | ⟨_, hjob, _⟩) | hpoint | ⟨_, htaken, _⟩
  · cases hsource
  · rw [(Sound.new config).idle pool hpool] at hjob
    cases hjob
  · cases hjob
  · cases hpoint
  · cases htaken

/-- Every command that can come to run was brought in. -/
theorem of_mem_commands_acts {acts : List Act} (h : command ∈ (machine.acts acts).2.commands) :
    command ∈ machine.commands ∨ ∃ act ∈ acts, act.Brings command := by
  induction acts generalizing machine with
  | nil => exact .inl h
  | cons act acts ih =>
      rcases ih h with h | ⟨other, hother, hbrings⟩
      · exact (of_mem_commands_act h).imp_right fun hbrings => ⟨act, List.mem_cons_self, hbrings⟩
      · exact .inr ⟨other, List.mem_cons_of_mem _ hother, hbrings⟩

end Machine

end Commands

end ProductionSystem
