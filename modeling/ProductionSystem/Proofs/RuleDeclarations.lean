import ProductionSystem.Proofs.ComposedLoads
import ProductionSystem.Proofs.EngineActs

/-!
The rules of an engine as they were declared. Rules come in one by one, several at once or with a document, before, in
between and after runs, and each time the engine may sort all rules that it has. What its callers are answered tells
which rules were declared, and in which order; and however the declarations are cut into parts, the rules of the
engine are the ones declared since the last reset, in that order, or sorted once and stably by how specific they are.
-/

namespace ProductionSystem

/-- Is a list another one in falling order, in which the elements of each key keep their order? -/
structure IsStableSort {α : Type} (key : α → Nat) (list sorted : List α) : Prop where
  perm : sorted.Perm list
  falling : sorted.Pairwise fun a b => key b ≤ key a
  stable : ∀ k, sorted.filter (key · = k) = list.filter (key · = k)

namespace IsStableSort

variable {α : Type} {key : α → Nat} {list sorted sorted' : List α}

theorem nil : IsStableSort key [] [] := ⟨.nil, .nil, fun _ => rfl⟩

/-- There is only one way to sort a list stably. -/
theorem unique (h : IsStableSort key list sorted) (h' : IsStableSort key list sorted') : sorted = sorted' :=
  eq_of_pairwise_of_filter_eq h.falling h'.falling fun k => (h.stable k).trans (h'.stable k).symm

/-- What was sorted before more came and is sorted again with it is sorted as if all had come at once. -/
theorem extend (h : IsStableSort key list sorted) (later : List α) :
    IsStableSort key (list ++ later) ((sorted ++ later).mergeSort fun a b => key b ≤ key a) where
  perm := (List.mergeSort_perm _ _).trans (h.perm.append_right later)
  falling := pairwise_mergeSort_key key _
  stable k := by rw [filter_mergeSort, List.filter_append, List.filter_append, h.stable]

end IsStableSort

/-- Each variable test counts, also the second one of a variable. -/
theorem Rule.specificity_eq_length (rule : Rule) :
    rule.specificity = (rule.conditions.flatMap Condition.variableNames).length := by
  have htests (tests : List (String × Pattern)) :
      (tests.countP fun test => test.2.isVariable) = (tests.filterMap fun test => test.2.variableName?).length := by
    rw [List.length_filterMap_eq_countP]
    rfl
  rw [specificity, htests, List.filterMap_flatMap]
  rfl

/-- Rules as they were declared. -/
structure Declarations where
  /-- How many rules were declared before the last reset. -/
  forgotten : Nat := 0
  /-- The rules declared since, in order. -/
  rules : List Rule := []

/-- The rules among the statements of a document, in the order in which they are written. -/
def Document.rules (registry : Registry) (json : Json) : List Rule :=
  match ofJson json with
  | .ok ⟨_, some items⟩ => items.filterMap fun item => (Statement.ofJson registry item).toOption.bind Statement.rule?
  | _ => []

/-- The rules that a source has, if it has a document. -/
def LoadSource.rules (registry : Registry) : LoadSource → List Rule
  | document json => Document.rules registry json
  | text contents | file _ (.ok contents) =>
    ((Json.read? Engine.nestingLimit contents).map (Document.rules registry)).getD []
  | file _ (.error _) => []

namespace Declarations

/-- The rules as instances, numbered on from those that are forgotten. -/
def instances (declared : Declarations) : List RuleInstance :=
  (declared.rules.zipIdx declared.forgotten).map fun entry => ⟨entry.2, entry.1⟩

def declare (declared : Declarations) (rules : List Rule) : Declarations :=
  { declared with rules := declared.rules ++ rules }

def forget (declared : Declarations) : Declarations := { forgotten := declared.forgotten + declared.rules.length }

/-- What an act declares, going by what it is answered. A document that is refused declares nothing. -/
def after (declared : Declarations) : Act × Reply → Declarations
  | (.addRules rules, .done) => declared.declare rules
  | (.load registry source, .loaded (.ok _)) => declared.declare (source.rules registry)
  | (.reset, .done) => declared.forget
  | _ => declared

/-- What the acts of a history declare. -/
def of (history : List (Act × Reply)) : Declarations := history.foldl after {}

end Declarations

theorem Document.rules_of_areStatements {registry : Registry} {json : Json} {name : Option String} {items : List Json}
    (hdocument : ofJson json = .ok ⟨name, some items⟩) {statements : List Statement}
    (hstatements : List.Forall₂ (Json.IsStatement registry) items statements) :
    rules registry json = statements.filterMap Statement.rule? := by
  rw [rules, hdocument]
  dsimp only
  clear hdocument
  induction hstatements with
  | nil => rfl
  | cons hfirst _ ih =>
      rw [List.filterMap_cons, List.filterMap_cons, ih, Statement.ofJson_eq_ok_iff.2 hfirst]
      rfl

namespace Engine

/-- What a load comes to: it adds the rules that its source has, or it fails and adds none. Besides it changes
working memory. -/
inductive AddsRules (engine : Engine) (rules : List Rule) : Except Error LoadSummary × Engine → Prop
  | all (summary : LoadSummary) (store : Store) :
      AddsRules engine rules (.ok summary, (engine.withStore store).addRules rules)
  | none (e : Error) (store : Store) : AddsRules engine rules (.error e, engine.withStore store)

variable (engine : Engine) (registry : Registry)

theorem addsRules_loadDocument (json : Json) :
    engine.AddsRules (Document.rules registry json) (engine.loadDocument registry json) := by
  cases hloaded : engine.loadDocument registry json with
  | mk result after =>
      cases result with
      | ok summary =>
          obtain ⟨name, items, -, hdocument, -⟩ := loadDocument_eq_ok_iff.1 hloaded
          obtain ⟨statements, hstatements, hfit⟩ :=
            exists_statements_of_loadDocument hdocument (congrArg Prod.fst hloaded)
          rw [loadDocument_eq_taking hdocument hstatements hfit] at hloaded
          rw [← hloaded, Document.rules_of_areStatements hdocument hstatements]
          exact .all _ _
      | error e =>
          unfold loadDocument at hloaded
          split at hloaded
          · obtain ⟨-, rfl⟩ := Prod.mk.inj hloaded
            exact .none e engine.store
          · rename_i document _
            split at hloaded
            · obtain ⟨-, rfl⟩ := Prod.mk.inj hloaded
              exact .none e engine.store
            · rename_i items _
              obtain ⟨store, hstore⟩ :=
                Loading.exists_store_steps { engine, summary := { name := document.name } } registry 0 items
              split at hloaded
              · cases hloaded
              · rename_i hsteps
                obtain ⟨-, rfl⟩ := Prod.mk.inj hloaded
                rw [hsteps] at hstore
                rw [hstore]
                exact .none e store

theorem addsRules_loadText (text : String) :
    engine.AddsRules ((LoadSource.text text).rules registry) (engine.loadText registry text) := by
  rw [LoadSource.rules, loadText]
  cases Json.read? nestingLimit text with
  | none => exact .none _ engine.store
  | some json => exact addsRules_loadDocument engine registry json

theorem addsRules_load (source : LoadSource) :
    engine.AddsRules (source.rules registry) (engine.load registry source) := by
  cases source with
  | document json => exact addsRules_loadDocument engine registry json
  | text text => exact addsRules_loadText engine registry text
  | file path contents =>
      cases contents with
      | error reason => exact .none _ engine.store
      | ok text =>
          have hadds := addsRules_loadText engine registry text
          simp only [load, loadFile]
          cases hloaded : engine.loadText registry text with
          | mk result after =>
              rw [hloaded] at hadds
              cases hadds with
              | all summary store => exact .all summary store
              | none e store => exact .none _ store

end Engine

/-- Are the rules of an engine those that were declared, in their order or sorted? -/
structure Engine.Follows (engine : Engine) (declared : Declarations) : Prop where
  added : engine.added = declared.forgotten + declared.rules.length
  order :
    if engine.config.sortBySpecificity then
      IsStableSort (fun source => source.rule.specificity) declared.instances engine.rules
    else engine.rules = declared.instances

namespace Engine.Follows

variable {engine : Engine} {declared : Declarations}

theorem new (config : Config) : (Engine.new config).Follows {} where
  added := rfl
  order := by
    split
    · exact .nil
    · rfl

theorem of_eq (h : engine.Follows declared) {after : Engine} (hconfig : after.config = engine.config)
    (hrules : after.rules = engine.rules) (hadded : after.added = engine.added) : after.Follows declared where
  added := hadded.trans h.added
  order := by
    rw [hconfig, hrules]
    exact h.order

/-- What actions can reach are not the rules. -/
theorem worked (h : engine.Follows declared) {after : Engine} (hworked : engine.Worked after) :
    after.Follows declared := by
  obtain ⟨_, _, _, rfl⟩ := hworked
  exact h.of_eq rfl rfl rfl

theorem addRules (h : engine.Follows declared) (rules : List Rule) :
    (engine.addRules rules).Follows (declared.declare rules) := by
  have hinstances : (declared.declare rules).instances = declared.instances ++ engine.numbered rules := by
    rw [Declarations.instances, Declarations.declare, List.zipIdx_append, List.map_append, ← h.added]
    rfl
  have horder := h.order
  rw [addRules_eq]
  refine ⟨?_, ?_⟩
  · rw [Declarations.declare, List.length_append, ← Nat.add_assoc, ← h.added]
  · rw [hinstances]
    dsimp only
    split
    · rename_i hsorts
      rw [if_pos hsorts] at horder
      exact horder.extend _
    · rename_i hsorts
      rw [if_neg hsorts] at horder
      rw [horder]

theorem reset (h : engine.Follows declared) : engine.reset.Follows declared.forget := by
  have hagenda := engine.agenda_reset
  have hrules : engine.reset.rules = [] := congrArg Agenda.rules hagenda
  refine ⟨?_, ?_⟩
  · exact (congrArg Agenda.added hagenda).trans h.added
  · rw [hrules]
    split
    · exact .nil
    · rfl

end Engine.Follows

namespace Machine

variable {machine : Machine} {declared : Declarations}

theorem follows_loop (h : machine.engine.Follows declared) : machine.loop.engine.Follows declared := by
  refine loop_moves (P := fun next => next.engine.Follows declared) machine (fun _ _ _ => h.of_eq rfl rfl rfl)
    (fun _ _ => h.of_eq rfl rfl rfl) (fun _ _ _ => h.of_eq rfl rfl rfl) fun firing action _ _ => ?_
  exact h.worked (.dispatch machine.engine firing action)

theorem follows_grant (h : machine.engine.Follows declared) (act : Act) :
    (machine.grant act).2.engine.Follows (declared.after (act, (machine.grant act).1)) := by
  cases act with
  | addRules rules => exact h.addRules rules
  | load registry source =>
      have hadds := Engine.addsRules_load machine.engine registry source
      show (machine.engine.load registry source).2.Follows
        (declared.after (.load registry source, .loaded (machine.engine.load registry source).1))
      have hstays (store : Store) : (machine.engine.withStore store).Follows declared := h.of_eq rfl rfl rfl
      cases hloaded : machine.engine.load registry source with
      | mk result after =>
          rw [hloaded] at hadds
          cases hadds with
          | all summary store => exact (hstays store).addRules _
          | none e store => exact hstays store
  | begin limit =>
      simp only [grant, step]
      split <;> exact h.of_eq rfl rfl rfl
  | reset =>
      simp only [grant]
      split
      · exact h.reset
      · exact h
  | dismiss =>
      simp only [grant, step]
      split <;> exact h.of_eq rfl rfl rfl
  | loop => exact follows_loop h
  | take =>
      simp only [grant, Machine.take]
      split <;> exact h.of_eq rfl rfl rfl
  | perform index =>
      simp only [grant, Machine.perform]
      split
      · exact h
      · exact h.worked (.exec machine.engine _ _ _)
  | release index =>
      simp only [grant, Machine.release]
      split <;> exact h.of_eq rfl rfl rfl
  | memory _ | snapshot | search _ _ _ | look | template _ | get _ | fact _ | halt | lower => exact h.of_eq rfl rfl rfl

theorem follows_act (h : machine.engine.Follows declared) (act : Act) :
    (machine.act act).2.engine.Follows (declared.after (act, (machine.act act).1)) := by
  unfold Machine.act
  split
  · have hrefused : declared.after (act, .refused) = declared := by cases act <;> rfl
    rw [hrefused]
    exact h
  · exact follows_grant h act

theorem follows_acts (h : machine.engine.Follows declared) (acts : List Act) :
    (machine.acts acts).2.engine.Follows ((acts.zip (machine.acts acts).1).foldl Declarations.after declared) := by
  induction acts generalizing machine declared with
  | nil => exact h
  | cons act acts ih => exact ih (follows_act h act)

end Machine

/-- **The order of rules does not depend on how they come in.** Take any history of a new engine, in which rules are
added one by one, several at once and with documents, with runs and jobs going on in between and with resets. What
its caller is answered tells the rules that were declared since the last reset, in order. The rules of the engine
are those, in this order if rules are not sorted; and if they are, they are the one list in which rules with more
variable tests come first, a variable counted each time that it is tested, and rules with equally many stand as they
were declared. So two histories that declare the same rules have the same rules in the same order. -/
theorem rules_stand_as_declared (config : Config) (history : List Act) :
    let ran := (Machine.new config).acts history
    let declared := Declarations.of (history.zip ran.1)
    (if config.sortBySpecificity then
        IsStableSort (fun source => (source.rule.conditions.flatMap Condition.variableNames).length) declared.instances
          ran.2.engine.rules
      else ran.2.engine.rules = declared.instances) ∧
    (∀ other : List Act, Declarations.of (other.zip ((Machine.new config).acts other).1) = declared →
      ((Machine.new config).acts other).2.engine.rules = ran.2.engine.rules) ∧
    ∀ (engine : Engine) (rule : Rule), engine.addRule rule = engine.addRules [rule] := by
  intro ran declared
  have horder (history : List Act) :
      let ran := (Machine.new config).acts history
      let declared := Declarations.of (history.zip ran.1)
      if config.sortBySpecificity then
        IsStableSort (fun source => source.rule.specificity) declared.instances ran.2.engine.rules
      else ran.2.engine.rules = declared.instances := by
    have hnew : (Machine.new config).engine.Follows {} := .new config
    have hfollows := (Machine.follows_acts hnew history).order
    have hconfig := ((Machine.Sound.new config).acts history).config
    rw [hconfig] at hfollows
    exact hfollows
  refine ⟨?_, fun other hsame => ?_, fun _ _ => rfl⟩
  · simp only [← Rule.specificity_eq_length]
    exact horder history
  · have hthis := horder history
    have hother := horder other
    dsimp only at hthis hother
    rw [hsame] at hother
    split at hthis
    · rename_i hsorts
      rw [if_pos hsorts] at hother
      exact hother.unique hthis
    · rename_i hsorts
      rw [if_neg hsorts] at hother
      exact hother.trans hthis.symm

/-- A rule that is not specific, and one that tests a variable. -/
def plainRule : Rule := { name := "plain", conditions := [⟨"counter", []⟩] }

def boundRule : Rule := { name := "bound", conditions := [⟨"counter", [("n", .variable "$n")]⟩] }

/-- A file with a rule that is as specific as the plain one. -/
def alsoPlainFile : Json :=
  .obj [("ops", .arr [.arr [.str "p", .str "also-plain", .arr [.arr [.str "counter"]], .arr []]])]

/-- The plain rule is added, the bound one is refused during a run and added after it, and a file is loaded. -/
def piecemeal : List Act := [
  .addRules [plainRule], .begin none, .addRules [boundRule], .halt, .loop, .loop, .addRules [boundRule],
  .load .builtins (.document alsoPlainFile)]

/-- The bound rule comes first, and the plain ones stand as they were declared; and the same comes of adding all
three at once. -/
theorem rules_stand_as_declared_piecemeal :
    let machine := Machine.new (Config.sequential.withSortBySpecificity true)
    let ran := machine.acts piecemeal
    let all := [plainRule, boundRule, { plainRule with name := "also-plain" }]
    Declarations.of (piecemeal.zip ran.1) = ⟨0, all⟩ ∧
      ran.2.engine.rules.map (·.rule.name) = ["bound", "plain", "also-plain"] ∧
      (machine.acts [.addRules all]).2.engine.rules = ran.2.engine.rules := by
  intro machine ran all
  have hdeclared : Declarations.of (piecemeal.zip ran.1) = ⟨0, all⟩ := rfl
  obtain ⟨horder, halike, -⟩ := rules_stand_as_declared (Config.sequential.withSortBySpecificity true) piecemeal
  have hsorted : IsStableSort (fun source : RuleInstance =>
        (source.rule.conditions.flatMap Condition.variableNames).length)
      (Declarations.of (piecemeal.zip ran.1)).instances
      [⟨1, boundRule⟩, ⟨0, plainRule⟩, ⟨2, { plainRule with name := "also-plain" }⟩] := by
    rw [hdeclared]
    refine ⟨.swap _ _ _, by decide, fun k => ?_⟩
    match k with
    | 0 | 1 | _ + 2 => rfl
  have hrules : ran.2.engine.rules = _ := IsStableSort.unique horder hsorted
  refine ⟨hdeclared, ?_, halike [.addRules all] rfl⟩
  rw [hrules]
  rfl

end ProductionSystem
