import ProductionSystem.Proofs.FiringBindings

/-!
Scoping. The variables of a rule are in scope of its actions; a command on the loop that binds a literal name brings
it into scope of the actions that follow. If every variable of the actions is in scope where it is used, then each
parameter stands for a value whenever its action is dispatched, whatever becomes of the actions before it. If no
action binds anything, then the actions that fail for a variable that is not bound are those that use one that is not
in scope.
-/

namespace ProductionSystem

/-- The variable that the error says is not bound. -/
def ErrorKind.unbound? : ErrorKind → Option String
  | .unboundVariable name => some name
  | _ => none

namespace Param

variable {bindings : Bindings} {params : List Param}

/-- The variable, if the parameter is one that is not known. -/
def unknown? (known : List String) : Param → Option String
  | .literal _ => none
  | .variable name => if name ∈ known then none else some name

/-- Bound variables stand for values. -/
theorem exists_resolveAll_eq_ok (hbound : ∀ name, .variable name ∈ params → bindings.contains name = true) :
    ∃ args, resolveAll bindings params = .ok args := by
  cases hargs : resolveAll bindings params with
  | ok args => exact ⟨args, rfl⟩
  | error cause =>
      obtain ⟨name, hfirst, -⟩ := resolveAll_eq_error_iff.1 hargs
      have hunbound : isUnbound bindings (.variable name) = true := List.find?_some hfirst
      have hcontains := hbound name (List.mem_of_find?_eq_some hfirst)
      rw [Dictionary.contains, Option.isSome_iff_ne_none] at hcontains
      exact absurd (Option.isNone_iff_eq_none.1 hunbound) hcontains

/-- If just the known variables are bound, the first unknown one is missing. -/
theorem findSome?_unknown? {known : List String} (hknown : ∀ name, bindings.contains name = true ↔ name ∈ known)
    (params : List Param) :
    params.findSome? (unknown? known) =
      match resolveAll bindings params with
      | .ok _ => none
      | .error cause => cause.unbound? := by
  induction params with
  | nil => rfl
  | cons param params ih =>
      rw [List.findSome?_cons, ih, resolveAll_cons]
      cases param with
      | literal value =>
          dsimp only [unknown?, resolve]
          cases resolveAll bindings params <;> rfl
      | «variable» name =>
          rw [unknown?]
          by_cases hname : name ∈ known
          · obtain ⟨value, hvalue⟩ := Option.isSome_iff_exists.1 ((hknown name).2 hname)
            rw [if_pos hname, resolve, hvalue]
            cases resolveAll bindings params <;> rfl
          · have hnone : bindings.get? name = none :=
              Option.not_isSome_iff_eq_none.1 fun h => hname ((hknown name).1 h)
            rw [if_neg hname, resolve, hnone]
            rfl

end Param

namespace Action

/-- The first variable among the parameters that is not known. -/
def unknown? (known : List String) (action : Action) : Option String := action.params.findSome? (Param.unknown? known)

theorem isSome_unknown?_iff {known : List String} {action : Action} :
    (action.unknown? known).isSome = true ↔ ∃ name, .variable name ∈ action.params ∧ name ∉ known := by
  rw [unknown?, List.findSome?_isSome_iff]
  constructor
  · rintro ⟨param, hparam, hsome⟩
    cases param with
    | literal value => cases hsome
    | «variable» name =>
        refine ⟨name, hparam, fun hname => ?_⟩
        rw [Param.unknown?, if_pos hname] at hsome
        cases hsome
  · rintro ⟨name, hparam, hname⟩
    exact ⟨.variable name, hparam, by rw [Param.unknown?, if_neg hname, Option.isSome_some]⟩

end Action

namespace ActionM

variable {α β : Type}

/-- Does a program never fail for a variable that is not bound? -/
def Clear (program : ActionM α) : Prop :=
  ∀ state cause, (program.run state).1 = .error (.failed cause) → cause.unbound? = none

namespace Clear

theorem pure (a : α) : Clear (Pure.pure a : ActionM α) := fun _ _ h => nomatch h

theorem fail {cause : ErrorKind} (hcause : cause.unbound? = none) : Clear (ActionM.fail cause : ActionM α) := by
  intro _ other h
  obtain rfl := Abort.failed.inj (Except.error.inj h)
  exact hcause

theorem bind {program : ActionM α} {rest : α → ActionM β} (hprogram : program.Clear) (hrest : ∀ a, (rest a).Clear) :
    Clear (program >>= rest) := by
  intro state cause h
  have hfirst := hprogram state cause
  rw [run_bind] at h
  cases hrun : program.run state with
  | mk result next =>
      rw [hrun] at h hfirst
      cases result with
      | ok a => exact hrest a next cause h
      | error abort => exact hfirst (congrArg Except.error (Except.error.inj h))

theorem decoded (result : Except ArgumentProblem α) : Clear (ActionM.decoded result) := by
  cases result with
  | ok a => exact pure a
  | error problem => exact fail rfl

theorem factAt (index : Nat) : Clear (ActionM.factAt index) := by
  intro state cause h
  rw [run_factAt] at h
  cases hfact : state.firing.facts[index]? with
  | some ref =>
      rw [hfact] at h
      cases h
  | none =>
      rw [hfact] at h
      obtain rfl := Abort.failed.inj (Except.error.inj h)
      rfl

theorem onStore {f : Store → Except ErrorKind α × Store}
    (hf : ∀ store cause, (f store).1 = .error cause → cause.unbound? = none) : Clear (ActionM.onStore f) := by
  intro state cause h
  rw [show state = ⟨state.firing, state.workspace⟩ from rfl, run_onStore] at h
  cases hresult : (f state.workspace.store).1 with
  | ok a =>
      rw [hresult] at h
      cases h
  | error other =>
      rw [hresult] at h
      obtain rfl := Abort.failed.inj (Except.error.inj h)
      exact hf _ _ hresult

theorem createFact (type : String) (overrides : List (String × Value)) : Clear (ActionM.createFact type overrides) := by
  have hoverride (type : String) (fields : Fields) (cause : ErrorKind)
      (h : Template.override type fields overrides = .error cause) : cause.unbound? = none := by
    induction overrides generalizing fields with
    | nil => cases h
    | cons first rest ih =>
        rw [Template.override] at h
        split at h
        · exact ih _ h
        · obtain rfl := Except.error.inj h
          rfl
  refine onStore fun store cause h => ?_
  rw [Store.make_eq] at h
  cases htemplate : store.template? type with
  | none =>
      rw [htemplate] at h
      obtain rfl := Except.error.inj h
      rfl
  | some template =>
      rw [htemplate] at h
      dsimp only [Store.makeFrom, Template.instantiate] at h
      cases hfields : Template.override template.type template.defaults overrides with
      | ok fields =>
          rw [hfields] at h
          cases h
      | error other =>
          rw [hfields] at h
          obtain rfl := Except.error.inj h
          exact hoverride _ _ _ hfields

theorem setMany (ref : FactRef) (values : List (String × Value)) :
    Clear (ActionM.onStore fun store => store.setMany ref values) := by
  refine onStore fun store cause h => ?_
  unfold Store.setMany at h
  cases hfact : store.fact? ref with
  | none =>
      rw [hfact] at h
      cases h
  | some fact =>
      rw [hfact] at h
      dsimp only [Fact.setMany] at h
      cases hfield : fact.unknownField? values with
      | none =>
          rw [hfield] at h
          cases h
      | some field =>
          rw [hfield] at h
          obtain rfl := Except.error.inj h
          rfl

theorem removeMatched (index : Nat) : Clear (ActionM.removeMatched index) := by
  intro state cause h
  rw [Builtin.run_removeMatched] at h
  split at h
  · split at h
    · cases h
    · obtain rfl := Abort.failed.inj (Except.error.inj h)
      rfl
  · obtain rfl := Abort.failed.inj (Except.error.inj h)
    rfl

theorem removeAll (args : List Value) : Clear (Builtin.removeAll args) := by
  induction args with
  | nil => exact pure ()
  | cons arg args ih => exact (decoded _).bind fun index => (removeMatched index).bind fun _ => ih

theorem body (builtin : Builtin) (args : List Value) : Clear (builtin.body args) := by
  cases builtin with
  | bind =>
      match args with
      | [target, value] => exact (decoded _).bind fun _ => fun _ _ h => nomatch h
      | [] | [_] | _ :: _ :: _ :: _ => exact fail rfl
  | halt =>
      match args with
      | [] => exact fun _ _ h => nomatch h
      | _ :: _ => exact fail rfl
  | make =>
      match args with
      | [] => exact fail rfl
      | type :: rest =>
          exact (decoded _).bind fun _ => (decoded _).bind fun _ => (createFact _ _).bind fun _ => pure _
  | modify =>
      match args with
      | [] => exact fail rfl
      | index :: rest =>
          exact (decoded _).bind fun _ => (decoded _).bind fun _ => (factAt _).bind fun ref => setMany ref _
  | remove =>
      match args with
      | [] => exact fail rfl
      | arg :: args => exact removeAll (arg :: args)
  | write => exact fun _ _ h => nomatch h

end Clear

end ActionM

/-- Is every variable of the actions in scope where it is used? -/
inductive Scoped : List String → List Action → Prop
  | nil {scope : List String} : Scoped scope []
  | cons {scope : List String} {action : Action} {actions : List Action}
      (hparams : ∀ name, .variable name ∈ action.params → name ∈ scope) (hrest : Scoped scope actions) :
      Scoped scope (action :: actions)
  /-- An action that brings a name into scope. -/
  | binding {scope : List String} {action : Action} {actions : List Action} {name : String} {value : Param}
      (hmode : action.command.mode = .sync) (hbody : action.command.body = Builtin.bind.body)
      (hparams : action.params = [.literal (.str name), value])
      (hvalue : ∀ other, value = .variable other → other ∈ scope)
      (hrest : Scoped (name :: scope) actions) : Scoped scope (action :: actions)

namespace Command

/-- Does a command leave bound what is bound? It cannot get at bindings otherwise than to read and to add them. -/
def KeepsBound (command : Command) : Prop :=
  ∀ args state name, state.firing.bindings.contains name = true →
    (command.run args state).2.firing.bindings.contains name = true

/-- Is it a built-in command, on the loop or with the workers? -/
def IsBuiltin (command : Command) : Prop := ∃ (builtin : Builtin) (mode : Mode), command = { builtin.command with mode }

theorem IsBuiltin.keepsBound {command : Command} (h : command.IsBuiltin) : command.KeepsBound := by
  obtain ⟨builtin, mode, rfl⟩ := h
  have hsteps : ActionM.Steps fun state after => ∀ name,
      state.firing.bindings.contains name = true → after.firing.bindings.contains name = true :=
    { refl := fun _ _ h => h
      trans := fun h h' name hname => h' name (h name hname)
      binds := fun state bound value name h => by
        rw [Dictionary.contains, Dictionary.get?_insert]
        split
        · rfl
        · exact h
      queues := fun _ _ _ h => h
      makes := fun _ _ _ _ h => h
      modifies := fun _ _ _ _ _ h => h
      halts := fun _ _ h => h
      writes := fun _ _ _ h => h }
  intro args state
  rw [Command.state_run]
  exact hsteps.body builtin args state

end Command

namespace Engine

variable {firing : Firing} {action : Action} {name : String} (engine : Engine)

theorem contains_dispatch (hkeep : action.command.KeepsBound) (hname : firing.bindings.contains name = true) :
    (engine.dispatch firing action).1.bindings.contains name = true := by
  unfold dispatch
  split
  · exact hname
  · split
    · rename_i args _ _ _
      show (engine.exec action.command args firing).1.bindings.contains name = true
      rw [bindings_exec]
      exact hkeep args _ name hname
    · exact hname

/-- A name that is bound on the loop is bound for the actions that follow. -/
theorem contains_dispatch_binding {value : Value} (hmode : action.command.mode = .sync)
    (hbody : action.command.body = Builtin.bind.body)
    (hargs : Param.resolveAll firing.bindings action.params = .ok [.str name, value]) :
    (engine.dispatch firing action).1.bindings.contains name = true := by
  let kind : Command → Option Builtin := fun _ => some .bind
  have hkind : action.command.Is (kind action.command) := .builtin .bind hbody
  rw [bindings_dispatch hkind, Action.bound_of_sync hmode hargs, Builtin.boundBy, Dictionary.contains,
    Dictionary.get?_insert, if_pos rfl, Option.isSome_some]

end Engine

/-- Are the variables of the actions in a scope that is bound? -/
def Firing.Covers (firing : Firing) (actions : List Action) : Prop :=
  ∃ scope, Scoped scope actions ∧ ∀ name ∈ scope, firing.bindings.contains name = true

namespace Firing.Covers

variable {firing : Firing} {action : Action} {actions : List Action}

/-- The parameters of the next action stand for values. -/
theorem exists_args (h : firing.Covers (action :: actions)) :
    ∃ args, Param.resolveAll firing.bindings action.params = .ok args := by
  obtain ⟨scope, hscoped, hbound⟩ := h
  refine Param.exists_resolveAll_eq_ok fun name hname => hbound name ?_
  cases hscoped with
  | cons hparams _ => exact hparams name hname
  | binding _ _ hparams hvalue _ =>
      rw [hparams, List.mem_cons, List.mem_singleton] at hname
      exact hvalue name (hname.resolve_left nofun).symm

/-- When it is dispatched, the actions that follow are covered, whatever becomes of it. -/
theorem dispatch (h : firing.Covers (action :: actions)) (hkeep : action.command.KeepsBound) (engine : Engine) :
    (engine.dispatch firing action).1.Covers actions := by
  obtain ⟨args, hargs⟩ := h.exists_args
  obtain ⟨scope, hscoped, hbound⟩ := h
  have hkept : ∀ name ∈ scope, (engine.dispatch firing action).1.bindings.contains name = true :=
    fun name hname => engine.contains_dispatch hkeep (hbound name hname)
  cases hscoped with
  | cons _ hrest => exact ⟨scope, hrest, hkept⟩
  | @binding _ _ _ name value hmode hbody hparams _ hrest =>
      refine ⟨name :: scope, hrest, List.forall_mem_cons.2 ⟨?_, hkept⟩⟩
      -- the name stands for itself
      have hstand := Param.resolveAll_eq_ok_iff.1 hargs
      rw [hparams] at hstand
      obtain ⟨first, rest, hname, hvalue, rfl⟩ := List.forall₂_cons_left_iff.1 hstand
      obtain ⟨last, others, -, hnil, rfl⟩ := List.forall₂_cons_left_iff.1 hvalue
      obtain rfl := List.forall₂_nil_left_iff.1 hnil
      obtain rfl : Value.str name = first := hname
      exact engine.contains_dispatch_binding hmode hbody hargs

end Firing.Covers

namespace Happening

/-- The variable that an action fails for because it is not bound. -/
def unbound? (happening : Happening) : Option String := happening.fate.cause?.bind ErrorKind.unbound?

/-- Does it happen to an action that was dispatched, or to a job that was handed over? -/
def Among (happened : List Happening) : Happening → Prop
  | dispatch engine firing action => .dispatch engine firing action ∈ happened
  | perform _ job => ∃ earlier ∈ happened, earlier.fate.handedOver? = some job

variable {engine : Engine} {firing : Firing} {action : Action}

theorem unbound?_of_unresolved {cause : ErrorKind}
    (hargs : Param.resolveAll firing.bindings action.params = .error cause) :
    (dispatch engine firing action).unbound? = cause.unbound? := by
  rw [unbound?, fate, hargs]
  rfl

/-- If the parameters stand for values, only the command itself can say that a variable is not bound. -/
theorem fate_of_unbound? {args : List Value} (hargs : Param.resolveAll firing.bindings action.params = .ok args)
    {name : String} (h : (dispatch engine firing action).unbound? = some name) :
    (dispatch engine firing action).fate = .executed action.command args (some (.unboundVariable name)) := by
  cases hmode : action.command.mode with
  | sync =>
      rw [fate_of_sync hmode hargs]
      rw [unbound?, fate_of_sync hmode hargs] at h
      obtain ⟨cause, hcause, hname⟩ := Option.bind_eq_some_iff.1 h
      rw [show (action.command.run args ⟨firing, engine.workspace⟩).1 = some cause from hcause]
      cases cause with
      | unboundVariable other => rw [Option.some.inj hname]
      | _ => cases hname
  | async =>
      rw [unbound?, fate_of_async hmode hargs] at h
      split at h <;> cases h

end Happening

/-- A built-in command never says that a variable is not bound. -/
theorem Command.IsBuiltin.unbound?_run {command : Command} (h : command.IsBuiltin) (args : List Value)
    (state : ActionState) : (command.run args state).1.bind ErrorKind.unbound? = none := by
  obtain ⟨builtin, mode, rfl⟩ := h
  have hclear := ActionM.Clear.body builtin args state
  rw [Command.run_eq]
  cases hrun : (builtin.body args).run state with
  | mk result after =>
      rw [show ({ builtin.command with mode } : Command).body args = builtin.body args from rfl, hrun]
      rw [hrun] at hclear
      cases result with
      | ok _ => rfl
      | error abort =>
          cases abort with
          | failed cause => exact hclear cause rfl
          | panicked message => rfl

namespace Happening

variable {engine : Engine} {firing : Firing} {action : Action}

theorem unbound?_of_isBuiltin {args : List Value} (hbuiltin : action.command.IsBuiltin)
    (hargs : Param.resolveAll firing.bindings action.params = .ok args) :
    (dispatch engine firing action).unbound? = none := by
  cases hmode : action.command.mode with
  | sync =>
      rw [unbound?, fate_of_sync hmode hargs]
      exact hbuiltin.unbound?_run args _
  | async =>
      rw [unbound?, fate_of_async hmode hargs]
      split <;> rfl

/-- If the known variables are bound and no others, a built-in command fails for the first unknown one. -/
theorem unbound?_eq_unknown? {known : List String} (hbuiltin : action.command.IsBuiltin)
    (hknown : ∀ name, firing.bindings.contains name = true ↔ name ∈ known) :
    (dispatch engine firing action).unbound? = action.unknown? known := by
  have hunknown := Param.findSome?_unknown? hknown action.params
  cases hargs : Param.resolveAll firing.bindings action.params with
  | ok args =>
      rw [hargs] at hunknown
      rw [unbound?_of_isBuiltin hbuiltin hargs, Action.unknown?, hunknown]
  | error cause =>
      rw [hargs] at hunknown
      rw [unbound?_of_unresolved hargs, Action.unknown?, hunknown]

end Happening

namespace Machine

variable {machine : Machine} {firing : Firing} {actions : List Action} {later : List Act}
  (hpoint : machine.point = .act firing actions) (hlater : later.countP Act.isLoop ≤ actions.length)

include hpoint hlater

/-- If the actions are covered, parameters stand for values whenever an action is dispatched. -/
theorem exists_args_of_covers (hcovers : firing.Covers actions)
    (hkeep : ∀ action ∈ actions, action.command.KeepsBound) {engine : Engine} {firing' : Firing} {action : Action}
    (hmem : .dispatch engine firing' action ∈ machine.happenings later) :
    ∃ args, Param.resolveAll firing'.bindings action.params = .ok args := by
  obtain ⟨_, hcovers', -⟩ := exists_of_mem_happenings hpoint hlater
    (Q := fun firing actions => firing.Covers actions ∧ ∀ action ∈ actions, action.command.KeepsBound)
    (fun engine firing action actions h => ⟨h.1.dispatch (h.2 action List.mem_cons_self) engine,
      fun other hother => h.2 other (List.mem_cons_of_mem _ hother)⟩)
    ⟨hcovers, hkeep⟩ hmem
  exact hcovers'.exists_args

/-- If no action binds anything, the bindings stay as they are. -/
theorem bindings_of_mem_happenings {kind : Command → Option Builtin}
    (hkind : ∀ action ∈ actions, action.command.Is (kind action.command) ∧ ¬action.Binds kind) {engine : Engine}
    {firing' : Firing} {action : Action} (hmem : .dispatch engine firing' action ∈ machine.happenings later) :
    firing'.bindings = firing.bindings := by
  obtain ⟨_, hbindings, -⟩ := exists_of_mem_happenings hpoint hlater
    (Q := fun firing' actions => firing'.bindings = firing.bindings ∧
      ∀ action ∈ actions, action.command.Is (kind action.command) ∧ ¬action.Binds kind)
    (fun engine firing' action actions h => by
      obtain ⟨hcommand, hplain⟩ := h.2 action List.mem_cons_self
      refine ⟨?_, fun other hother => h.2 other (List.mem_cons_of_mem _ hother)⟩
      rw [Engine.bindings_dispatch hcommand, Action.bound_of_not_binds hplain]
      exact h.1)
    ⟨rfl, hkind⟩ hmem
  exact hbindings

end Machine

namespace Machine

/-- **Scoping is sound.** A rule is fired, and up to its last action workers and others do what they like. The loop
dispatches the actions in their order, and what fails is what is reported.

* If every variable parameter is a variable of the conditions, or a literal name that an earlier action on the loop
  binds to a value in scope, then no action fails for a variable that is not bound, and no job that is handed over
  fails for one, whenever it is done; a command might still say so itself, but a built-in one never does.
* If all commands are built in and none on the loop binds anything, then each action that is dispatched fails for the
  first of its variable parameters that is no variable of the conditions, and only if there is one. The report names
  the rule, the command and the variable. -/
theorem scoping_is_sound (config : Config) (history : List Act) {machine : Machine}
    (hmachine : ((Machine.new config).acts history).2 = machine) (hpoint : machine.point = .matching) {found : Match}
    (hchoose : machine.engine.choose = some found) (later : List Act)
    (hlater : later.countP Act.isLoop ≤ found.source.rule.actions.length) :
    let rule := found.source.rule
    let start := machine.loop
    let happened := start.happenings later
    let dispatched := rule.actions.take (later.countP Act.isLoop)
    (happened.filterMap Happening.action? = dispatched ∧
        (start.acts later).2.engine.failures.toList =
          machine.engine.failures.toList ++ happened.filterMap Happening.report?) ∧
      (Scoped rule.variableNames rule.actions → (∀ action ∈ rule.actions, action.command.KeepsBound) →
        ∀ happening : Happening, happening.Among happened →
          (∀ name, happening.unbound? = some name →
            ∃ args, happening.fate = .executed happening.command args (some (.unboundVariable name))) ∧
          (happening.command.IsBuiltin → happening.unbound? = none)) ∧
      ((∀ action ∈ rule.actions, ∃ (builtin : Builtin) (mode : Mode),
          action.command = { builtin.command with mode } ∧ (mode = .sync → builtin ≠ .bind)) →
        (happened.filterMap fun happening => happening.action?.map fun action => (action, happening.unbound?)) =
            dispatched.map (fun action => (action, action.unknown? rule.variableNames)) ∧
          (∀ action ∈ rule.actions, (action.unknown? rule.variableNames).isSome = true ↔
            ∃ name, .variable name ∈ action.params ∧ name ∉ rule.variableNames) ∧
          (∀ engine firing action name, .dispatch engine firing action ∈ happened →
            (Happening.dispatch engine firing action).unbound? = some name →
              (Happening.dispatch engine firing action).report? =
                some (.of rule.name action.command.name (.unboundVariable name))) ∧
          ∀ engine job, (Happening.perform engine job).Among happened →
            (Happening.perform engine job).unbound? = none) := by
  intro rule start happened dispatched
  have hstart : start = machine.fire found := loop_of_choose hpoint hchoose
  have hbegun : start.point =
      .act { rule := rule.name, facts := found.facts, bindings := found.bindings } rule.actions := by
    rw [hstart]
    rfl
  have hidle := (hmachine ▸ (Sound.new config).acts history : machine.Sound config).idle
  have hknown (name : String) : found.bindings.contains name = true ↔ name ∈ rule.variableNames :=
    Engine.contains_of_choose hidle hchoose name
  have hactions : happened.filterMap Happening.action? = dispatched := actions_happenings hbegun hlater
  have hcommand {engine : Engine} {firing : Firing} {action : Action}
      (hmem : .dispatch engine firing action ∈ happened) : action ∈ rule.actions := by
    have hdispatched : action ∈ dispatched := by
      rw [← hactions]
      exact List.mem_filterMap.2 ⟨_, hmem, rfl⟩
    exact List.mem_of_mem_take hdispatched
  refine ⟨⟨hactions, ?_⟩, ?covered, ?plain⟩
  · have hsame : start.engine.failures = machine.engine.failures := by
      rw [hstart]
      rfl
    rw [(Accounts.course hbegun hlater).failures, hsame]
  case covered =>
    intro hscoped hkeep happening hamong
    cases happening with
    | dispatch engine firing action =>
        obtain ⟨args, hargs⟩ := exists_args_of_covers hbegun hlater
          ⟨rule.variableNames, hscoped, fun name hname => (hknown name).2 hname⟩ hkeep hamong
        exact ⟨fun name hname => ⟨args, Happening.fate_of_unbound? hargs hname⟩,
          fun hbuiltin => Happening.unbound?_of_isBuiltin hbuiltin hargs⟩
    | perform engine job =>
        refine ⟨fun name hname => ⟨job.2.args, ?_⟩, fun hbuiltin => hbuiltin.unbound?_run job.2.args _⟩
        obtain ⟨cause, hcause, hname⟩ := Option.bind_eq_some_iff.1 hname
        have hcause : (job.2.command.run job.2.args ⟨job.2.firing, engine.workspace⟩).1 = some cause := hcause
        rw [Happening.fate, hcause]
        cases cause with
        | unboundVariable other => rw [Option.some.inj hname]; rfl
        | _ => cases hname
  case plain =>
    intro hplain
    have hbuiltin : ∀ action ∈ rule.actions, action.command.IsBuiltin := by
      intro action haction
      obtain ⟨builtin, mode, hcommand, -⟩ := hplain action haction
      exact ⟨builtin, mode, hcommand⟩
    have hkind : ∀ action ∈ rule.actions,
        action.command.Is (builtinOf? action.command) ∧ ¬action.Binds builtinOf? := by
      intro action haction
      obtain ⟨builtin, mode, hcommand, hother⟩ := hplain action haction
      refine ⟨hcommand ▸ is_builtinOf? builtin mode, fun hbinds => ?_⟩
      rw [Action.Binds, hcommand, builtinOf?_command, Option.some.injEq] at hbinds
      exact hother hbinds.1 hbinds.2
    have hunbound {engine : Engine} {firing : Firing} {action : Action}
        (hmem : .dispatch engine firing action ∈ happened) :
        (Happening.dispatch engine firing action).unbound? = action.unknown? rule.variableNames := by
      refine Happening.unbound?_eq_unknown? (hbuiltin action (hcommand hmem)) ?_
      rw [bindings_of_mem_happenings hbegun hlater hkind hmem]
      exact hknown
    refine ⟨?_, fun _ _ => Action.isSome_unknown?_iff, ?_, ?_⟩
    · rw [← hactions, List.map_filterMap]
      refine List.filterMap_congr fun happening hmem => ?_
      cases happening with
      | dispatch engine firing action => exact congrArg (fun name? => some (action, name?)) (hunbound hmem)
      | perform engine job => rfl
    · intro engine firing action name hmem hname
      have hrule := rule_of_mem_happenings hbegun hlater (fun action haction => by
        obtain ⟨builtin, mode, hcommand⟩ := hbuiltin action haction
        exact hcommand ▸ builtin.keepsRule mode) hmem
      obtain ⟨cause, hcause, hunboundVariable⟩ := Option.bind_eq_some_iff.1 hname
      rw [Happening.report?, hcause]
      cases cause with
      | unboundVariable other =>
          rw [← Option.some.inj hunboundVariable]
          exact congrArg (fun rule => some (Failure.of rule action.command.name (.unboundVariable other))) hrule
      | _ => cases hunboundVariable
    · rintro engine job ⟨earlier, hmem, hover⟩
      obtain ⟨engine', firing, action, args, rfl, rfl⟩ := Happening.of_handedOver? hover
      exact (hbuiltin action (hcommand hmem)).unbound?_run args _

/-- A rule for a part with a size. -/
def labelling (actions : List Action) : Rule where
  name := "label"
  conditions := [⟨"part", [("size", .variable "$size")]⟩]
  actions

def labellingMatch (actions : List Action) : Match where
  source := ⟨0, labelling actions⟩
  facts := [⟨0⟩]
  bindings := Dictionary.empty.insert "$size" (.int 3)

def partLabelling (actions : List Action) : List Act := [
  .memory (.register ⟨"part", [("size", .nil)]⟩), .memory (.make "part" [("size", .int 3)]),
  .addRules [labelling actions], .begin none, .loop, .loop]

def partLabelled (actions : List Action) : Machine := ((Machine.new .sequential).acts (partLabelling actions)).2

theorem choose_partLabelled (actions : List Action) :
    (partLabelled actions).engine.choose = some (labellingMatch actions) := by
  have hall : (partLabelled actions).engine.matchAll =
      Match.all none (partLabelled actions).engine.view [⟨0, labelling actions⟩] := rfl
  rw [Engine.choose_of_matchAll hall]
  rfl

/-- A removal that fails, a variable that is bound, and a worker that writes what it stands for. -/
def naming : List Action := [
  ⟨Builtin.remove.command, [.literal (.int 1), .variable "$size"]⟩,
  ⟨Builtin.bind.command, [.literal (.str "$label"), .variable "$size"]⟩,
  ⟨{ Builtin.write.command with mode := .async }, [.variable "$label"]⟩]

/-- Two actions that use variables that nothing binds. -/
def guessing : List Action := [
  ⟨Builtin.write.command, [.variable "$size"]⟩,
  ⟨Builtin.write.command, [.variable "$size", .variable "$label", .variable "$colour"]⟩,
  ⟨{ Builtin.make.command with mode := .async }, [.literal (.str "part"), .literal (.str "size"), .variable "$colour"]⟩]

theorem scoping_is_sound_labelling :
    let later : List Act := [.loop, .loop, .take, .loop]
    Scoped (labelling naming).variableNames naming ∧
      (∀ happening : Happening, happening.Among ((partLabelled naming).loop.happenings later) →
        happening.command.IsBuiltin → happening.unbound? = none) ∧
      (((partLabelled guessing).loop.happenings later).filterMap fun happening =>
        happening.action?.map fun action => (action.params, happening.unbound?)) = [
          ([.variable "$size"], none),
          ([.variable "$size", .variable "$label", .variable "$colour"], some "$label"),
          ([.literal (.str "part"), .literal (.str "size"), .variable "$colour"], some "$colour")] := by
  intro later
  have hscoped : Scoped (labelling naming).variableNames naming := by
    have hnames : (labelling naming).variableNames = ["$size"] := by decide
    rw [hnames]
    refine .cons (by simp) (.binding rfl rfl rfl (by simp) (.cons (by simp) .nil))
  have hnaming := scoping_is_sound .sequential (partLabelling naming) rfl rfl (choose_partLabelled naming) later
    (by decide)
  have hguessing := scoping_is_sound .sequential (partLabelling guessing) rfl rfl (choose_partLabelled guessing) later
    (by decide)
  refine ⟨hscoped, fun happening hamong hbuiltin => ?_, ?_⟩
  · have hkeep : ∀ action ∈ naming, action.command.KeepsBound :=
      List.forall_mem_cons.2 ⟨Command.IsBuiltin.keepsBound ⟨.remove, .sync, rfl⟩,
        List.forall_mem_cons.2 ⟨Command.IsBuiltin.keepsBound ⟨.bind, .sync, rfl⟩,
          List.forall_mem_singleton.2 (Command.IsBuiltin.keepsBound ⟨.write, .async, rfl⟩)⟩⟩
    exact (hnaming.2.1 hscoped hkeep happening hamong).2 hbuiltin
  · have hplain : ∀ action ∈ guessing, ∃ (builtin : Builtin) (mode : Mode),
        action.command = { builtin.command with mode } ∧ (mode = .sync → builtin ≠ .bind) :=
      List.forall_mem_cons.2 ⟨⟨.write, .sync, rfl, nofun⟩,
        List.forall_mem_cons.2 ⟨⟨.write, .sync, rfl, nofun⟩,
          List.forall_mem_singleton.2 ⟨.make, .async, rfl, nofun⟩⟩⟩
    have hreports := congrArg (List.map fun entry => (entry.1.params, entry.2)) (hguessing.2.2 hplain).1
    rw [List.map_filterMap] at hreports
    simp only [Option.map_map, Function.comp_def] at hreports
    exact hreports.trans rfl

/-- A command that is not built in: it looks its arguments up as names of variables, and fails for the first that is
not bound. -/
def lookup : Command where
  name := "lookup"
  body := fun args => do
    let names := args.filterMap Value.str?
    discard (ActionM.ofExcept (Param.resolveAll (← get).firing.bindings (names.map .variable)))

/-- It changes nothing. -/
theorem run_lookup (args : List Value) (state : ActionState) : (lookup.run args state).2 = state := by
  have hrun : (lookup.body args).run state =
      ((discard (ActionM.ofExcept (Param.resolveAll state.firing.bindings
        ((args.filterMap Value.str?).map .variable))) : ActionM Unit)).run state := rfl
  rw [Command.run, hrun]
  cases Param.resolveAll state.firing.bindings ((args.filterMap Value.str?).map .variable) with
  | ok values => rfl
  | error cause => rfl

/-- An action that has no variable, but asks for one that nothing binds. -/
def asking : List Action := [⟨lookup, [.literal (.str "$colour")]⟩]

/-- All variables of a rule are in scope, and yet its firing reports one that is not bound: the command says so. -/
theorem lookup_reports_unbound :
    Scoped (labelling asking).variableNames asking ∧ lookup.KeepsBound ∧
      (partLabelled asking).engine.failures = #[] ∧
      ((partLabelled asking).acts [.loop, .loop]).2.engine.failures =
        #[.of "label" "lookup" (.unboundVariable "$colour")] := by
  refine ⟨.cons (by simp) .nil, ?_, rfl, ?_⟩
  · intro args state name hname
    rwa [run_lookup]
  · rw [acts_loop_of_choose rfl (choose_partLabelled asking)]
    rfl

end Machine

end ProductionSystem
