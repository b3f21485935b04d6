import ProductionSystem.Proofs.Agenda
import ProductionSystem.Proofs.LoadedDocuments
import ProductionSystem.Proofs.WrittenLines

/-!
What a load takes from outside, and what it does to an engine. It reaches the engine through three operations only:
it registers templates, makes facts and adds rules. So a map between engines that goes with these goes with every
load; and the commands of the rules that it adds are those of the registry.
-/

namespace ProductionSystem

/-- Where rules are loaded from. -/
inductive LoadSource where
  | document (json : Json)
  | text (text : String)
  | file (path : String) (contents : Except ReadFailure String)

def Engine.load (engine : Engine) (registry : Registry) : LoadSource → Except Error LoadSummary × Engine
  | .document json => engine.loadDocument registry json
  | .text text => engine.loadText registry text
  | .file path contents => engine.loadFile registry path contents

/-- Does a map between engines go with what a load does? The facts made are called otherwise. -/
structure LoadMap (map : Engine → Engine) (rename : FactRef → FactRef) : Prop where
  register : ∀ engine template, (map engine).register template = map (engine.register template)
  make : ∀ engine type values,
    (map engine).make type values = ((engine.make type values).1.map rename, map (engine.make type values).2)
  addRules : ∀ engine rules, (map engine).addRules rules = map (engine.addRules rules)

namespace LoadMap

variable {map : Engine → Engine} {rename : FactRef → FactRef} (h : LoadMap map rename)

/-- The load, into the other engine. -/
def onLoading (map : Engine → Engine) (loading : Loading) : Loading := { loading with engine := map loading.engine }

include h

theorem apply (loading : Loading) (statement : Statement) :
    (onLoading map loading).apply statement =
      ((loading.apply statement).1, onLoading map (loading.apply statement).2) := by
  cases statement with
  | literalize template => simp only [Loading.apply, onLoading, h.register]
  | rule _ | skipped => rfl
  | make type values =>
      have hmake : (onLoading map loading).engine.make type values = _ := h.make loading.engine type values
      simp only [Loading.apply, hmake]
      cases loading.engine.make type values with
      | mk result next => cases result <;> rfl

theorem step (registry : Registry) (loading : Loading) (json : Json) :
    (onLoading map loading).step registry json =
      ((loading.step registry json).1, onLoading map (loading.step registry json).2) := by
  unfold Loading.step
  cases Statement.ofJson registry json with
  | error problem => rfl
  | ok statement => exact h.apply loading statement

theorem steps (registry : Registry) (loading : Loading) (index : Nat) (ops : List Json) :
    (onLoading map loading).steps registry index ops =
      ((loading.steps registry index ops).1, onLoading map (loading.steps registry index ops).2) := by
  induction ops generalizing loading index with
  | nil => rfl
  | cons json rest ih =>
      rw [Loading.steps, Loading.steps, h.step]
      cases loading.step registry json with
      | mk result next =>
          cases result with
          | ok _ => exact ih next (index + 1)
          | error cause => rfl

variable (engine : Engine) (registry : Registry)

theorem loadDocument (json : Json) :
    (map engine).loadDocument registry json =
      ((engine.loadDocument registry json).1, map (engine.loadDocument registry json).2) := by
  unfold Engine.loadDocument
  cases Document.ofJson json with
  | error problem => rfl
  | ok document =>
      dsimp only
      cases document.ops with
      | none => rfl
      | some ops =>
          let loading : Loading := { engine, summary := { name := document.name } }
          have hloading : { engine := map engine, summary := { name := document.name } } = onLoading map loading := rfl
          dsimp only
          rw [hloading, h.steps]
          cases loading.steps registry 0 ops with
          | mk result next =>
              cases result with
              | ok _ => exact Prod.ext rfl (h.addRules next.engine next.rules)
              | error e => rfl

theorem loadText (text : String) :
    (map engine).loadText registry text =
      ((engine.loadText registry text).1, map (engine.loadText registry text).2) := by
  unfold Engine.loadText
  cases Json.read? Engine.nestingLimit text with
  | none => rfl
  | some json => exact h.loadDocument engine registry json

theorem loadFile (path : String) (contents : Except ReadFailure String) :
    (map engine).loadFile registry path contents =
      ((engine.loadFile registry path contents).1, map (engine.loadFile registry path contents).2) := by
  cases contents with
  | error reason => rfl
  | ok text =>
      simp only [Engine.loadFile, h.loadText]
      cases engine.loadText registry text with
      | mk result next => cases result <;> rfl

theorem load (source : LoadSource) :
    (map engine).load registry source = ((engine.load registry source).1, map (engine.load registry source).2) := by
  cases source with
  | document json => exact h.loadDocument engine registry json
  | text text => exact h.loadText engine registry text
  | file path contents => exact h.loadFile engine registry path contents

end LoadMap

/-- Is a command one that a registry names? -/
def Registry.Names (registry : Registry) (command : Command) : Prop := ∃ name, registry.get? name = some command

theorem Registry.exists_of_names_builtins {command : Command} (h : builtins.Names command) :
    ∃ builtin : Builtin, builtin.command = command := by
  refine List.foldlRecOn (motive := fun registry : Registry => registry.Names command →
    ∃ builtin : Builtin, builtin.command = command) Builtin.all _ ?_ (fun registry ih builtin _ hnames => ?_) h
  · rintro ⟨_, hname⟩
    cases hname
  · obtain ⟨name, hname⟩ := hnames
    rw [register, Dictionary.get?_insert] at hname
    split at hname
    · exact ⟨builtin, Option.some.inj hname⟩
    · exact ih ⟨name, hname⟩

/-- The commands of the actions of a rule. -/
def Rule.commands (rule : Rule) : List Command := rule.actions.map Action.command

section Commands

variable {registry : Registry}

theorem names_of_areActions {items : List Json} {actions : List Action}
    (h : List.Forall₂ (Json.IsAction registry) items actions) :
    ∀ command ∈ actions.map Action.command, registry.Names command := by
  induction h with
  | nil => exact List.forall_mem_nil _
  | cons hfirst _ ih =>
      obtain ⟨hcommand, -⟩ := hfirst
      exact List.forall_mem_cons.2 ⟨⟨_, hcommand⟩, ih⟩

theorem Statement.names_of_ofJson {json : Json} {rule : Rule} (h : ofJson registry json = .ok (.rule rule)) :
    ∀ command ∈ rule.commands, registry.Names command := by
  cases rule with
  | mk name conditions actions =>
      cases ofJson_eq_ok_iff.1 h with
      | rule _ hactions => exact names_of_areActions hactions

namespace Loading

/-- Are all commands of the rules so far named by a registry? -/
def Draws (registry : Registry) (loading : Loading) : Prop :=
  ∀ rule ∈ loading.rules, ∀ command ∈ rule.commands, registry.Names command

variable {loading : Loading}

theorem draws_step (h : loading.Draws registry) (json : Json) : (loading.step registry json).2.Draws registry := by
  unfold step
  cases hstatement : Statement.ofJson registry json with
  | error problem => exact h
  | ok statement =>
      cases statement with
      | literalize _ | skipped => exact h
      | rule rule =>
          exact List.forall_mem_append.2 ⟨h, List.forall_mem_singleton.2 (Statement.names_of_ofJson hstatement)⟩
      | make type values =>
          simp only [apply]
          cases loading.engine.make type values with
          | mk result next => cases result <;> exact h

theorem draws_steps (h : loading.Draws registry) (index : Nat) (ops : List Json) :
    (loading.steps registry index ops).2.Draws registry := by
  induction ops generalizing loading index with
  | nil => exact h
  | cons json rest ih =>
      have hstep := draws_step h json
      rw [steps]
      cases hresult : loading.step registry json with
      | mk result next =>
          rw [hresult] at hstep
          cases result with
          | ok _ => exact ih hstep (index + 1)
          | error cause => exact hstep

end Loading

namespace Engine

variable {engine : Engine} {command : Command}

theorem config_addRules (engine : Engine) (rules : List Rule) : (engine.addRules rules).config = engine.config := by
  rw [addRules_eq]

theorem matchers_addRules (engine : Engine) (rules : List Rule) :
    (engine.addRules rules).matchers = engine.matchers := by
  rw [addRules_eq]

theorem executor_addRules (engine : Engine) (rules : List Rule) :
    (engine.addRules rules).executor = engine.executor := by
  rw [addRules_eq]

theorem workspace_addRules (engine : Engine) (rules : List Rule) :
    (engine.addRules rules).workspace = engine.workspace := by
  rw [addRules_eq]

theorem loaded_load (engine : Engine) (registry : Registry) (source : LoadSource) :
    engine.Loaded (engine.load registry source).2 := by
  cases source with
  | document json => exact engine.loaded_loadDocument registry json
  | text text => exact engine.loaded_loadText registry text
  | file path contents => exact engine.loaded_loadFile registry path contents

/-- A command is one of a rule, of a rule that a matcher had queued, or of a job. -/
theorem mem_commands_iff : command ∈ engine.commands ↔
    (∃ source ∈ engine.rules, command ∈ source.rule.commands) ∨
      (∃ pool ∈ engine.matchers, ∃ job ∈ pool.queue, command ∈ job.2.rule.commands) ∨
        ∃ job ∈ engine.executor.pool.queue, job.2.command = command := by
  dsimp only [commands]
  rw [List.flatMap_append, List.append_assoc, List.mem_append, List.mem_append, List.mem_flatMap, List.mem_flatMap,
    List.mem_map]
  refine or_congr Iff.rfl (or_congr ?_ Iff.rfl)
  simp only [List.mem_flatMap, List.mem_map, Option.mem_toList, Rule.commands]
  constructor
  · rintro ⟨source, ⟨pool, hpool, job, hjob, rfl⟩, hcommand⟩
    exact ⟨pool, hpool, job, hjob, hcommand⟩
  · rintro ⟨pool, hpool, job, hjob, hcommand⟩
    exact ⟨job.2, ⟨pool, hpool, job, hjob, rfl⟩, hcommand⟩

theorem of_mem_commands_addRules {rules : List Rule} (h : command ∈ (engine.addRules rules).commands) :
    command ∈ engine.commands ∨ ∃ rule ∈ rules, command ∈ rule.commands := by
  have hsource : ∀ source ∈ (engine.addRules rules).rules, source ∈ engine.rules ∨ source.rule ∈ rules := by
    intro source hsource
    have hmem : source ∈ engine.rules ++ engine.numbered rules := by
      rw [addRules_eq] at hsource
      dsimp only at hsource
      split at hsource
      · exact List.mem_mergeSort.1 hsource
      · exact hsource
    refine (List.mem_append.1 hmem).imp_right fun hnew => ?_
    obtain ⟨entry, hentry, rfl⟩ := List.mem_map.1 hnew
    exact List.fst_mem_of_mem_zipIdx hentry
  rw [mem_commands_iff, matchers_addRules, executor_addRules] at h
  rw [mem_commands_iff]
  rcases h with ⟨source, hrule, hcommand⟩ | h
  · exact (hsource source hrule).imp (fun hold => .inl ⟨source, hold, hcommand⟩)
      fun hnew => ⟨source.rule, hnew, hcommand⟩
  · exact .inl (.inr h)

/-- A load brings in no commands but those of its registry. -/
theorem of_mem_commands_loadDocument {json : Json} (h : command ∈ (engine.loadDocument registry json).2.commands) :
    command ∈ engine.commands ∨ registry.Names command := by
  unfold loadDocument at h
  split at h
  · exact .inl h
  · rename_i document _
    split at h
    · exact .inl h
    · rename_i ops _
      let loading : Loading := { engine, summary := { name := document.name } }
      have hdraws : (loading.steps registry 0 ops).2.Draws registry :=
        Loading.draws_steps (fun _ hrule => (List.not_mem_nil hrule).elim) 0 ops
      have hengine : (loading.steps registry 0 ops).2.engine.commands = engine.commands := by
        obtain ⟨store, hstore⟩ := loading.exists_store_steps registry 0 ops
        rw [hstore]
        rfl
      split at h <;> rename_i heq <;> rw [heq] at hdraws hengine
      · refine (of_mem_commands_addRules h).imp (fun hold => hengine ▸ hold) ?_
        rintro ⟨rule, hrule, hcommand⟩
        exact hdraws rule hrule command hcommand
      · exact .inl (hengine ▸ h)

theorem of_mem_commands_load {source : LoadSource} (h : command ∈ (engine.load registry source).2.commands) :
    command ∈ engine.commands ∨ registry.Names command := by
  have htext (text : String) (h : command ∈ (engine.loadText registry text).2.commands) :
      command ∈ engine.commands ∨ registry.Names command := by
    unfold loadText at h
    split at h
    · exact of_mem_commands_loadDocument h
    · exact .inl h
  cases source with
  | document json => exact of_mem_commands_loadDocument h
  | text text => exact htext text h
  | file path contents =>
      cases contents with
      | error reason => exact .inl h
      | ok text =>
          refine htext text ?_
          simp only [load, loadFile] at h
          split at h <;> rename_i heq <;> rw [heq] <;> exact h

end Engine

end Commands

end ProductionSystem
