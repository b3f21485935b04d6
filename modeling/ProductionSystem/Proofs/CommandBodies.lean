import ProductionSystem.Builtin

/-!
What the bodies of commands do to the state that they are given. A relation between states that holds across each
single thing that a built-in command can do, and across several of them in a row, holds across every built-in
command, however it ends. Only one of these things changes bindings, and only one command does it.
-/

namespace ProductionSystem

namespace ActionM

variable {α β : Type}

theorem run_bind (program : ActionM α) (rest : α → ActionM β) (state : ActionState) :
    (program >>= rest).run state =
      match program.run state with
      | (.ok a, next) => (rest a).run next
      | (.error abort, next) => (.error abort, next) := by
  change ExceptT.bindCont rest (program.run state).1 (program.run state).2 = _
  cases program.run state with
  | mk result next => cases result <;> rfl

theorem run_get (state : ActionState) : (MonadState.get : ActionM ActionState).run state = (.ok state, state) := rfl

theorem run_factAt (index : Nat) (state : ActionState) :
    (factAt index).run state =
      match state.firing.facts[index]? with
      | some ref => (.ok ref, state)
      | none => (.error (.failed (.index index state.firing.facts.length)), state) := by
  rw [factAt, run_bind, run_get]
  cases hfact : state.firing.facts[index]? with
  | some ref =>
      simp only [hfact]
      rfl
  | none =>
      simp only [hfact]
      rfl

theorem run_modifyMatched (index : Nat) (values : List (String × Value)) (state : ActionState) :
    (modifyMatched index values).run state =
      match state.firing.facts[index]? with
      | some ref => (onStore fun store => store.setMany ref values).run state
      | none => (.error (.failed (.index index state.firing.facts.length)), state) := by
  rw [modifyMatched, run_bind, run_factAt]
  cases state.firing.facts[index]? with
  | some _ | none => rfl

theorem state_onStore (f : Store → Except ErrorKind α × Store) (state : ActionState) :
    ((onStore f).run state).2 =
      { state with workspace := { state.workspace with store := (f state.workspace.store).2 } } := by
  have hrun : (onStore f).run state = (ofExcept (f state.workspace.store).1).run
      { state with workspace := { state.workspace with store := (f state.workspace.store).2 } } := rfl
  rw [hrun]
  cases (f state.workspace.store).1 with
  | ok a => rfl
  | error cause => rfl

/-- Does a relation hold between the state that a program is given and the one that it leaves behind? -/
def Within (R : ActionState → ActionState → Prop) (program : ActionM α) : Prop :=
  ∀ state, R state (program.run state).2

/-- A relation that holds across everything that a built-in command does but for binding a variable. -/
structure Effects (R : ActionState → ActionState → Prop) : Prop where
  refl : ∀ state, R state state
  trans : ∀ {first second third}, R first second → R second third → R first third
  queues : ∀ state ref,
    R state { state with firing := { state.firing with removals := state.firing.removals ++ [ref] } }
  makes : ∀ state type overrides,
    R state { state with workspace := { state.workspace with store := (state.workspace.store.make type overrides).2 } }
  modifies : ∀ state ref values, ref ∈ state.firing.facts →
    R state { state with workspace := { state.workspace with store := (state.workspace.store.setMany ref values).2 } }
  halts : ∀ state, R state { state with workspace := state.workspace.halt }
  writes : ∀ state line, R state { state with workspace := state.workspace.write line }

/-- A relation that holds across everything that a built-in command does. -/
structure Steps (R : ActionState → ActionState → Prop) : Prop extends Effects R where
  binds : ∀ state name value,
    R state { state with firing := { state.firing with bindings := state.firing.bindings.insert name value } }

namespace Effects

variable {R : ActionState → ActionState → Prop} (h : Effects R)

include h

theorem pure (a : α) : Within R (Pure.pure a : ActionM α) := fun state => h.refl state

theorem fail (cause : ErrorKind) : Within R (ActionM.fail cause : ActionM α) := fun state => h.refl state

theorem bind {program : ActionM α} {rest : α → ActionM β} (hprogram : program.Within R)
    (hrest : ∀ a, (rest a).Within R) : Within R (program >>= rest) := by
  intro state
  have hfirst := hprogram state
  rw [run_bind]
  cases hrun : program.run state with
  | mk result next =>
      rw [hrun] at hfirst
      cases result with
      | ok a => exact h.trans hfirst (hrest a next)
      | error abort => exact hfirst

theorem decoded (result : Except ArgumentProblem α) : Within R (ActionM.decoded result) := by
  cases result with
  | ok a => exact h.pure a
  | error problem => exact h.fail _

/-- A program that goes on with a matched fact. -/
theorem withFact {rest : FactRef → ActionM β} (index : Nat)
    (hrest : ∀ state ref, ref ∈ state.firing.facts → R state ((rest ref).run state).2) :
    Within R (ActionM.factAt index >>= rest) := by
  intro state
  rw [run_bind, run_factAt]
  cases hat : state.firing.facts[index]? with
  | some ref => exact hrest state ref (List.mem_of_getElem? hat)
  | none => exact h.refl state

theorem removeMatched (index : Nat) : Within R (ActionM.removeMatched index) := by
  refine h.withFact index fun state ref _ => ?_
  rw [run_bind, run_get]
  dsimp only
  split
  · exact h.queues state ref
  · exact h.refl state

theorem modifyMatched (index : Nat) (values : List (String × Value)) :
    Within R (ActionM.modifyMatched index values) := by
  refine h.withFact index fun state ref hmem => ?_
  rw [state_onStore]
  exact h.modifies state ref values hmem

theorem createFact (type : String) (overrides : List (String × Value)) :
    Within R (ActionM.createFact type overrides) := by
  intro state
  rw [ActionM.createFact, state_onStore]
  exact h.makes state type overrides

theorem removeAll (args : List Value) : Within R (Builtin.removeAll args) := by
  induction args with
  | nil => exact h.pure ()
  | cons arg args ih => exact h.bind (h.decoded _) fun index => h.bind (h.removeMatched index) fun _ => ih

/-- What holds across every built-in command but the one that binds. -/
theorem body {builtin : Builtin} (hother : builtin ≠ .bind) (args : List Value) : Within R (builtin.body args) := by
  cases builtin with
  | bind => exact absurd rfl hother
  | halt =>
      match args with
      | [] => exact h.halts
      | _ :: _ => exact h.fail _
  | make =>
      match args with
      | [] => exact h.fail _
      | type :: rest =>
          exact h.bind (h.decoded _) fun _ => h.bind (h.decoded _) fun _ =>
            h.bind (h.createFact _ _) fun _ => h.pure _
  | modify =>
      match args with
      | [] => exact h.fail _
      | index :: rest =>
          exact h.bind (h.decoded _) fun _ => h.bind (h.decoded _) fun _ => h.modifyMatched _ _
  | remove =>
      match args with
      | [] => exact h.fail _
      | arg :: args => exact h.removeAll (arg :: args)
  | write => exact fun state => h.writes state _

end Effects

theorem Steps.body {R : ActionState → ActionState → Prop} (h : Steps R) (builtin : Builtin) (args : List Value) :
    Within R (builtin.body args) := by
  by_cases hbind : builtin = .bind
  · subst hbind
    match args with
    | [target, value] => exact h.toEffects.bind (h.decoded _) fun name state => h.binds state name value
    | [] | [_] | _ :: _ :: _ :: _ => exact h.fail _
  · exact h.toEffects.body hbind args

end ActionM

/-- However a command ends, it leaves behind what its body does. -/
theorem Command.state_run (command : Command) (args : List Value) (state : ActionState) :
    (command.run args state).2 = ((command.body args).run state).2 := by
  unfold run
  split <;> rename_i hrun <;> rw [hrun]

end ProductionSystem
