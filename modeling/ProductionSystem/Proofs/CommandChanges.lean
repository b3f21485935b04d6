import ProductionSystem.Proofs.ActionFates
import ProductionSystem.Proofs.BuiltinScripts
import ProductionSystem.Proofs.MemoryChanges

/-!
What the built-in commands change in memory. A removal changes nothing by itself: it queues the facts that its
arguments name, up to the first argument that names none. A make adds one fact or none, and a modification writes to
one fact or to none.
-/

namespace ProductionSystem

namespace Builtin

/-- The matched fact that an argument of a removal names. -/
def named? (facts : List FactRef) (arg : Value) : Option FactRef :=
  (Arguments.index remove.name arg).toOption.bind fun index => facts[index]?

/-- The matched facts that the arguments of a removal name, before the first argument that names none. -/
def namedFirst (facts : List FactRef) (args : List Value) : List FactRef :=
  ((args.map (named? facts)).takeWhile Option.isSome).filterMap id

/-- What a make with the arguments returns. -/
def newFact? (store : Store) : List Value → Option FactRef
  | [] => none
  | type :: rest =>
    match Arguments.name make.name type, Arguments.fields make.name rest with
    | .ok type, .ok overrides => (store.make type overrides).1.toOption
    | _, _ => none

/-- The write that a modification with the arguments asks for. -/
def write? (facts : List FactRef) : List Value → Option Write
  | [] => none
  | index :: rest =>
    match Arguments.index modify.name index, Arguments.fields modify.name rest with
    | .ok index, .ok values => (facts[index]?).map fun ref => (ref, values)
    | _, _ => none

/-- The facts that a command queues for removal if it runs on the loop. -/
def queued : Option Builtin → List FactRef → List Value → List FactRef
  | some remove, facts, args => namedFirst facts args
  | _, _, _ => []

/-- The fact that a command makes. -/
def made? : Option Builtin → Store → List Value → Option FactRef
  | some make, store, args => newFact? store args
  | _, _, _ => none

/-- The write that a command makes if it does not fail. -/
def written? : Option Builtin → List FactRef → List Value → Option Write
  | some modify, facts, args => write? facts args
  | _, _, _ => none

theorem namedFirst_cons (facts : List FactRef) (arg : Value) (args : List Value) :
    namedFirst facts (arg :: args) =
      match named? facts arg with
      | some ref => ref :: namedFirst facts args
      | none => [] := by
  cases hnamed : named? facts arg with
  | some ref =>
      rw [namedFirst, List.map_cons, hnamed, List.takeWhile_cons_of_pos rfl]
      rfl
  | none =>
      rw [namedFirst, List.map_cons, hnamed, List.takeWhile_cons_of_neg (by simp)]
      rfl

end Builtin

namespace Builtin

/-- Only matched facts are queued. -/
theorem mem_facts_of_queued {kind : Option Builtin} {facts : List FactRef} {args : List Value} {ref : FactRef}
    (h : ref ∈ queued kind facts args) : ref ∈ facts := by
  unfold queued at h
  split at h
  · obtain ⟨_, hmem, rfl⟩ := List.mem_filterMap.1 h
    obtain ⟨arg, -, hnamed⟩ := List.mem_map.1 ((List.takeWhile_sublist _).subset hmem)
    obtain ⟨index, -, hfact⟩ := Option.bind_eq_some_iff.1 hnamed
    exact List.mem_of_getElem? hfact
  · cases h

end Builtin

/-- What a command is: a built-in one, or one that only fails or panics. -/
inductive Command.Is (command : Command) : Option Builtin → Prop
  | builtin (builtin : Builtin) (h : command.body = builtin.body) : command.Is (some builtin)
  | failing (h : ∀ args state, ∃ abort, (command.body args).run state = (.error abort, state)) : command.Is none

/-- What a command leaves behind: it has queued facts for removal, and changed memory by a make or a write. -/
structure ActionState.Touched (state after : ActionState) (queued : List FactRef) (made? : Option FactRef)
    (write? : Option Write) : Prop where
  store : state.workspace.store.Changed after.workspace.store [] made?.toList write?.toList
  removals : after.firing.removals = state.firing.removals ++ queued
  facts : after.firing.facts = state.firing.facts
  onLoop : after.firing.onLoop = state.firing.onLoop

namespace ActionState.Touched

theorem refl (state : ActionState) : state.Touched state [] none none :=
  ⟨.refl _, (List.append_nil _).symm, rfl, rfl⟩

/-- A command that neither queues facts nor makes or writes anything. -/
theorem aside {state after : ActionState} {queued : List FactRef} {made? : Option FactRef} {write? : Option Write}
    (hstore : state.workspace.store.Changed after.workspace.store [] [] [])
    (hremovals : after.firing.removals = state.firing.removals) (hfacts : after.firing.facts = state.firing.facts)
    (honLoop : after.firing.onLoop = state.firing.onLoop) (hqueued : queued = []) (hmade : made? = none)
    (hwrite : write? = none) : state.Touched after queued made? write? := by
  subst hqueued hmade hwrite
  exact ⟨hstore, by rw [hremovals, List.append_nil], hfacts, honLoop⟩

end ActionState.Touched

namespace Builtin

section Bodies

variable {α β : Type}

theorem run_decoded_bind (result : Except ArgumentProblem α) (rest : α → ActionM β) (state : ActionState) :
    (ActionM.decoded result >>= rest).run state =
      match result with
      | .ok a => (rest a).run state
      | .error problem => (.error (.failed (.arguments problem.message)), state) := by
  cases result <;> rfl

/-- Only the loop may remove matched facts. -/
theorem run_removeMatched (index : Nat) (state : ActionState) :
    (ActionM.removeMatched index).run state =
      match state.firing.facts[index]? with
      | some ref =>
        if state.firing.onLoop then
          (.ok (), { state with firing := { state.firing with removals := state.firing.removals ++ [ref] } })
        else (.error (.failed (.asyncRemoval index)), state)
      | none => (.error (.failed (.index index state.firing.facts.length)), state) := by
  rw [ActionM.removeMatched, ActionM.run_bind, ActionM.run_factAt]
  cases state.firing.facts[index]? with
  | none => rfl
  | some ref =>
      dsimp only
      rw [ActionM.run_bind, ActionM.run_get]
      dsimp only
      split <;> rfl

theorem state_removeAll_onLoop (args : List Value) {state : ActionState} (honLoop : state.firing.onLoop = true) :
    ((removeAll args).run state).2 =
      { state with
        firing := { state.firing with
          removals := state.firing.removals ++ namedFirst state.firing.facts args } } := by
  induction args generalizing state with
  | nil =>
      show state = _
      rw [show namedFirst state.firing.facts [] = [] from rfl, List.append_nil]
  | cons arg args ih =>
      rw [removeAll, run_decoded_bind, namedFirst_cons, named?]
      cases Arguments.index remove.name arg with
      | error problem =>
          show state = _
          simp only [Except.toOption, Option.bind_none, List.append_nil]
      | ok index =>
          dsimp only
          rw [ActionM.run_bind, run_removeMatched, Except.toOption, Option.bind_some]
          cases hfact : state.firing.facts[index]? with
          | none =>
              show state = _
              simp only [List.append_nil]
          | some ref =>
              simp only [honLoop, if_true]
              refine (ih rfl).trans ?_
              simp only [List.append_assoc, List.singleton_append]

theorem state_removeAll_elsewhere (args : List Value) {state : ActionState}
    (helsewhere : state.firing.onLoop = false) : ((removeAll args).run state).2 = state := by
  cases args with
  | nil => rfl
  | cons arg args =>
      rw [removeAll, run_decoded_bind]
      cases Arguments.index remove.name arg with
      | error problem => rfl
      | ok index =>
          dsimp only
          rw [ActionM.run_bind, run_removeMatched]
          cases state.firing.facts[index]? with
          | none => rfl
          | some ref => rw [helsewhere]; rfl

theorem touched_make (type : Value) (rest : List Value) (state : ActionState) :
    state.Touched ((make.body (type :: rest)).run state).2 (if state.firing.onLoop then [] else [])
      (newFact? state.workspace.store (type :: rest))
      none := by
  have hbody : make.body (type :: rest) = ActionM.decoded (Arguments.name make.name type) >>= fun type =>
      ActionM.decoded (Arguments.fields make.name rest) >>= fun overrides =>
        discard (ActionM.createFact type overrides) := rfl
  rw [ite_self, hbody, run_decoded_bind, newFact?]
  cases Arguments.name make.name type with
  | error problem => exact .refl state
  | ok name =>
      dsimp only
      rw [run_decoded_bind]
      cases Arguments.fields make.name rest with
      | error problem => exact .refl state
      | ok overrides =>
          dsimp only
          rw [ActionM.run_discard, ActionM.createFact, ActionM.state_onStore]
          exact ⟨.make _ name overrides, (List.append_nil _).symm, rfl, rfl⟩

theorem touched_modify (index : Value) (rest : List Value) (state : ActionState) :
    state.Touched ((modify.body (index :: rest)).run state).2 (if state.firing.onLoop then [] else []) none
      ((write? state.firing.facts (index :: rest)).filter fun _ => ((modify.body (index :: rest)).run state).1.isOk) := by
  have hbody : modify.body (index :: rest) = ActionM.decoded (Arguments.index modify.name index) >>= fun index =>
      ActionM.decoded (Arguments.fields modify.name rest) >>= fun values => ActionM.modifyMatched index values := rfl
  rw [ite_self, hbody, run_decoded_bind, write?]
  cases Arguments.index modify.name index with
  | error problem => exact .refl state
  | ok position =>
      dsimp only
      rw [run_decoded_bind]
      cases Arguments.fields modify.name rest with
      | error problem => exact .refl state
      | ok values =>
          dsimp only
          rw [ActionM.run_modifyMatched]
          cases state.firing.facts[position]? with
          | none => exact .refl state
          | some ref =>
              dsimp only
              have hrun := ActionM.run_onStore (fun store => store.setMany ref values) state.firing state.workspace
              rw [show state = ⟨state.firing, state.workspace⟩ from rfl, hrun]
              cases hwritten : (state.workspace.store.setMany ref values).1 with
              | ok _ => exact ⟨.setMany hwritten, (List.append_nil _).symm, rfl, rfl⟩
              | error cause =>
                  rw [Store.setMany_of_error hwritten]
                  exact .refl state

theorem touched_remove (args : List Value) (state : ActionState) :
    state.Touched ((removeAll args).run state).2
      (if state.firing.onLoop then namedFirst state.firing.facts args else []) none none := by
  cases honLoop : state.firing.onLoop with
  | true =>
      rw [state_removeAll_onLoop args honLoop]
      exact ⟨.refl _, rfl, rfl, rfl⟩
  | false =>
      rw [state_removeAll_elsewhere args honLoop]
      exact .refl state

/-- What a built-in command leaves behind. -/
theorem touched_body (builtin : Builtin) (args : List Value) (state : ActionState) :
    state.Touched ((builtin.body args).run state).2
      (if state.firing.onLoop then queued (some builtin) state.firing.facts args else [])
      (made? (some builtin) state.workspace.store args)
      ((written? (some builtin) state.firing.facts args).filter fun _ => ((builtin.body args).run state).1.isOk) := by
  have hnothing : (if state.firing.onLoop then ([] : List FactRef) else []) = [] := ite_self _
  cases builtin with
  | bind =>
      match args with
      | [target, value] =>
          have hbody : bind.body [target, value] =
              ActionM.decoded (Arguments.name bind.name target) >>= fun target => ActionM.bind target value := rfl
          rw [hbody, run_decoded_bind]
          cases Arguments.name bind.name target with
          | error _ | ok _ => exact .aside (.refl _) rfl rfl rfl hnothing rfl rfl
      | [] | [_] | _ :: _ :: _ :: _ => exact .aside (.refl _) rfl rfl rfl hnothing rfl rfl
  | halt =>
      match args with
      | [] => exact .aside (.of_same rfl rfl rfl rfl) rfl rfl rfl hnothing rfl rfl
      | _ :: _ => exact .aside (.refl _) rfl rfl rfl hnothing rfl rfl
  | make =>
      match args with
      | [] => exact .aside (.refl _) rfl rfl rfl hnothing rfl rfl
      | type :: rest => exact touched_make type rest state
  | modify =>
      match args with
      | [] => exact .aside (.refl _) rfl rfl rfl hnothing rfl rfl
      | index :: rest => exact touched_modify index rest state
  | remove =>
      match args with
      | [] => exact .aside (.refl _) rfl rfl rfl hnothing rfl rfl
      | arg :: args => exact touched_remove (arg :: args) state
  | write => exact .aside (.refl _) rfl rfl rfl hnothing rfl rfl

end Bodies

end Builtin

/-- What a command leaves behind. -/
theorem Command.Is.touched {command : Command} {kind : Option Builtin} (h : command.Is kind) (args : List Value)
    (state : ActionState) :
    state.Touched (command.run args state).2
      (if state.firing.onLoop then Builtin.queued kind state.firing.facts args else [])
      (Builtin.made? kind state.workspace.store args)
      ((Builtin.written? kind state.firing.facts args).filter fun _ => (command.run args state).1.isNone) := by
  cases h with
  | builtin builtin hbody =>
      have htouched := builtin.touched_body args state
      have hsucceeds : ((builtin.body args).run state).1.isOk = (command.run args state).1.isNone := by
        rw [command.run_eq, hbody]
        cases (builtin.body args).run state with
        | mk result after => cases result <;> rfl
      rwa [hsucceeds, ← hbody, ← command.state_run] at htouched
  | failing hfails =>
      obtain ⟨abort, hrun⟩ := hfails args state
      have hnothing : (if state.firing.onLoop then ([] : List FactRef) else []) = [] := ite_self _
      rw [command.run_eq, hrun]
      exact .aside (.refl _) rfl rfl rfl hnothing rfl rfl

end ProductionSystem
