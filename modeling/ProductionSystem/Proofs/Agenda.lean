import ProductionSystem.Load
import ProductionSystem.Proofs.EngineFrame
import ProductionSystem.Proofs.ParallelMatch

/-!
The agenda of an engine: its rules, the rule instance fired last, and how rules are matched. With working
memory it decides which rule is fired. Only adding rules, firing, resetting and shutting down touch it; what
the actions of a firing do, on the loop or with the workers, leaves it as it is.
-/

namespace ProductionSystem

/-- What an engine goes by when it chooses a match, working memory apart. -/
structure Agenda where
  config : Config
  matchers : Option (WorkerPool (Nat × RuleInstance))
  rules : List RuleInstance
  added : Nat
  lastFired : Option RuleInstance

namespace Engine

def agenda (engine : Engine) : Agenda where
  config := engine.config
  matchers := engine.matchers
  rules := engine.rules
  added := engine.added
  lastFired := engine.lastFired

theorem Worked.agenda_eq {engine after : Engine} (h : engine.Worked after) : after.agenda = engine.agenda := by
  obtain ⟨_, _, _, rfl⟩ := h
  rfl

variable (engine : Engine)

@[simp] theorem agenda_settle : engine.settle.agenda = engine.agenda := (Worked.settle engine).agenda_eq

/-- A firing changes the agenda by one entry: the rule instance fired last. -/
theorem agenda_fire (found : Match) :
    (engine.fire found).agenda = { engine.agenda with lastFired := some found.source } :=
  (Worked.fire engine found).agenda_eq

theorem agenda_shutdown : engine.shutdown.agenda = { engine.agenda with matchers := none } :=
  congrArg (fun agenda : Agenda => { agenda with matchers := none }) (Worked.foldl_perform _ _).agenda_eq

theorem agenda_reset : engine.reset.agenda = { engine.agenda with rules := [], lastFired := none } :=
  congrArg (fun agenda : Agenda => { agenda with rules := [], lastFired := none }) (agenda_settle engine)

end Engine

/-- Is an engine another one into which something was loaded? A load that goes well adds its rules together, and
one that fails adds none; besides it changes working memory. -/
def Engine.Loaded (engine after : Engine) : Prop :=
  ∃ store, after = engine.withStore store ∨ ∃ rules, after = (engine.withStore store).addRules rules

namespace Loading

variable (loading : Loading)

theorem exists_store_apply (statement : Statement) :
    ∃ store, (loading.apply statement).2.engine = loading.engine.withStore store := by
  cases statement with
  | literalize template => exact ⟨_, rfl⟩
  | rule rule => exact ⟨loading.engine.store, rfl⟩
  | skipped => exact ⟨loading.engine.store, rfl⟩
  | make type values =>
      refine ⟨(loading.engine.store.make type values).2, ?_⟩
      unfold apply Engine.make
      dsimp only
      split <;> rename_i heq <;> exact (Prod.ext_iff.1 heq).2.symm

theorem exists_store_step (registry : Registry) (json : Json) :
    ∃ store, (loading.step registry json).2.engine = loading.engine.withStore store := by
  unfold step
  cases Statement.ofJson registry json with
  | error problem => exact ⟨loading.engine.store, rfl⟩
  | ok statement => exact exists_store_apply loading statement

theorem exists_store_steps (registry : Registry) (index : Nat) (ops : List Json) :
    ∃ store, (loading.steps registry index ops).2.engine = loading.engine.withStore store := by
  induction ops generalizing loading index with
  | nil => exact ⟨loading.engine.store, rfl⟩
  | cons json rest ih =>
      obtain ⟨store, hstep⟩ := exists_store_step loading registry json
      unfold steps
      split
      · rename_i next heq
        rw [heq] at hstep
        obtain ⟨later, hrest⟩ := ih next (index + 1)
        exact ⟨later, by rw [hrest, hstep]; rfl⟩
      · rename_i heq
        rw [heq] at hstep
        exact ⟨store, hstep⟩

end Loading

namespace Engine

theorem loaded_self (engine : Engine) : engine.Loaded engine := ⟨engine.store, .inl rfl⟩

theorem loaded_loadDocument (engine : Engine) (registry : Registry) (json : Json) :
    engine.Loaded (engine.loadDocument registry json).2 := by
  unfold loadDocument
  split
  · exact loaded_self engine
  · rename_i document _
    split
    · exact loaded_self engine
    · rename_i ops _
      obtain ⟨store, hsteps⟩ :=
        Loading.exists_store_steps { engine, summary := { name := document.name } } registry 0 ops
      split
      · rename_i loading heq
        rw [heq] at hsteps
        exact ⟨store, .inr ⟨loading.rules, congrArg (addRules · loading.rules) hsteps⟩⟩
      · rename_i loading heq
        rw [heq] at hsteps
        exact ⟨store, .inl hsteps⟩

theorem loaded_loadText (engine : Engine) (registry : Registry) (text : String) :
    engine.Loaded (engine.loadText registry text).2 := by
  unfold loadText
  split
  · exact loaded_loadDocument engine registry _
  · exact loaded_self engine

theorem loaded_loadFile (engine : Engine) (registry : Registry) (path : String)
    (contents : Except ReadFailure String) : engine.Loaded (engine.loadFile registry path contents).2 := by
  unfold loadFile
  cases contents with
  | error reason => exact loaded_self engine
  | ok text =>
      have hload := loaded_loadText engine registry text
      dsimp only
      split <;> rename_i heq <;> rw [heq] at hload <;> exact hload

end Engine

namespace Run

variable {run : Run}

@[simp] theorem agenda_close (outcome : Outcome) : (run.close outcome).2.agenda = run.engine.agenda := by
  cases outcome with
  | stepLimit => rfl
  | halted => exact Engine.agenda_settle run.engine
  | quiescent => exact Engine.agenda_settle run.engine

end Run

end ProductionSystem
