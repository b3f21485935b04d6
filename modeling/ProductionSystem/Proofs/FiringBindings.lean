import ProductionSystem.Proofs.FiringChanges
import ProductionSystem.Proofs.SnapshotMatch

/-!
The bindings of a firing. A match binds the variables of the conditions and no others. From then on only a command
on the loop that binds a name to a value changes the bindings, and it changes them for the actions that follow.
-/

namespace ProductionSystem

namespace Builtin

/-- The bindings after a command with the given arguments. -/
def boundBy : Option Builtin → List Value → Bindings → Bindings
  | some bind, [.str name, value], bindings => bindings.insert name value
  | _, _, bindings => bindings

theorem boundBy_of_ne {kind : Option Builtin} (hother : kind ≠ some bind) (args : List Value) (bindings : Bindings) :
    boundBy kind args bindings = bindings := by
  unfold boundBy
  split
  · exact absurd rfl hother
  · rfl

/-- However a built-in command ends, the bindings are those. -/
theorem bindings_body (builtin : Builtin) (args : List Value) (state : ActionState) :
    ((builtin.body args).run state).2.firing.bindings = boundBy (some builtin) args state.firing.bindings := by
  by_cases hbind : builtin = bind
  · subst hbind
    match args with
    | [target, value] =>
        have hbody : bind.body [target, value] =
            ActionM.decoded (Arguments.name bind.name target) >>= fun target => ActionM.bind target value := rfl
        rw [hbody, run_decoded_bind]
        cases target <;> rfl
    | [] => rfl
    | [first] | first :: _ :: _ :: _ => cases first <;> rfl
  · have heffects : ActionM.Effects fun state after => after.firing.bindings = state.firing.bindings :=
      { refl := fun _ => rfl
        trans := fun h h' => h'.trans h
        queues := fun _ _ => rfl
        makes := fun _ _ _ => rfl
        modifies := fun _ _ _ _ => rfl
        halts := fun _ => rfl
        writes := fun _ _ => rfl }
    rw [boundBy_of_ne fun heq => hbind (Option.some.inj heq)]
    exact heffects.body hbind args state

end Builtin

theorem Command.Is.bindings_run {command : Command} {kind : Option Builtin} (h : command.Is kind) (args : List Value)
    (state : ActionState) :
    (command.run args state).2.firing.bindings = Builtin.boundBy kind args state.firing.bindings := by
  rw [Command.state_run]
  cases h with
  | builtin builtin hbody =>
      rw [hbody]
      exact builtin.bindings_body args state
  | failing hfails =>
      obtain ⟨abort, hrun⟩ := hfails args state
      rw [hrun]
      rfl

namespace Action

variable (kind : Command → Option Builtin)

/-- The bindings after an action: only one on the loop changes them, once its parameters stand for values. -/
def bound (bindings : Bindings) (action : Action) : Bindings :=
  match action.command.mode, Param.resolveAll bindings action.params with
  | .sync, .ok args => Builtin.boundBy (kind action.command) args bindings
  | _, _ => bindings

/-- Does the action bind variables for the actions that follow, when it succeeds? -/
def Binds (action : Action) : Prop := action.command.mode = .sync ∧ kind action.command = some .bind

variable {kind} {bindings : Bindings} {action : Action}

theorem bound_of_not_binds (h : ¬action.Binds kind) : action.bound kind bindings = bindings := by
  unfold bound
  split
  · rename_i hmode _
    exact Builtin.boundBy_of_ne (fun hkind => h ⟨hmode, hkind⟩) _ _
  · rfl

theorem bound_of_error {cause : ErrorKind} (hargs : Param.resolveAll bindings action.params = .error cause) :
    action.bound kind bindings = bindings := by
  unfold bound
  rw [hargs]
  cases action.command.mode <;> rfl

theorem bound_of_sync {args : List Value} (hmode : action.command.mode = .sync)
    (hargs : Param.resolveAll bindings action.params = .ok args) :
    action.bound kind bindings = Builtin.boundBy (kind action.command) args bindings := by
  simp only [bound, hmode, hargs]

theorem bound_of_async (hmode : action.command.mode = .async) : action.bound kind bindings = bindings :=
  bound_of_not_binds fun h => by rw [h.1] at hmode; cases hmode

/-- No action unbinds a variable. -/
theorem contains_bound {name : String} (h : bindings.contains name = true) :
    (action.bound kind bindings).contains name = true := by
  unfold bound
  split
  · unfold Builtin.boundBy
    split
    · rw [Dictionary.contains, Dictionary.get?_insert]
      split
      · rfl
      · exact h
    · exact h
  · exact h

end Action

namespace Engine

variable {engine : Engine} {firing : Firing} {action : Action}

theorem bindings_exec (command : Command) (args : List Value) :
    (engine.exec command args firing).1.bindings =
      (command.run args ⟨firing, engine.workspace⟩).2.firing.bindings := by
  unfold exec
  dsimp only
  split <;> rfl

/-- What a dispatched action leaves bound for the actions that follow. -/
theorem bindings_dispatch {kind : Command → Option Builtin} (hkind : action.command.Is (kind action.command)) :
    (engine.dispatch firing action).1.bindings = action.bound kind firing.bindings := by
  cases hargs : Param.resolveAll firing.bindings action.params with
  | error cause =>
      rw [Action.bound_of_error hargs]
      simp only [dispatch, hargs]
  | ok args =>
      cases hmode : action.command.mode with
      | sync =>
          rw [Action.bound_of_sync hmode hargs, ← hkind.bindings_run args ⟨firing, engine.workspace⟩, ← bindings_exec]
          simp only [dispatch, hargs, hmode, applyRemovals]
      | async =>
          rw [Action.bound_of_async hmode]
          simp only [dispatch, hargs, hmode]

/-- A match binds the variables of the conditions of its rule, and no others. -/
theorem contains_of_choose (hidle : ∀ pool ∈ engine.matchers, pool.queue = []) {found : Match}
    (hchoose : engine.choose = some found) (name : String) :
    found.bindings.contains name = true ↔ name ∈ found.source.rule.variableNames := by
  obtain ⟨_, -, -, hbound, -⟩ := Goal.exists_answer_of_solve_eq_some (solve_of_choose hidle hchoose).2
  rw [hbound, Rule.mem_variableNames_iff engine.view]
  exact or_iff_right Bool.false_ne_true

end Engine

end ProductionSystem
