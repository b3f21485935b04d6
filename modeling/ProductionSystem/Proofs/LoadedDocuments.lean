import Mathlib.Logic.Function.Basic
import ProductionSystem.Load
import ProductionSystem.Proofs.LiveLists
import ProductionSystem.Proofs.RuleGrammar

/-!
What loading a document means. A document is accepted if its name may be left out, its statements belong to the
grammar, and each fact has the fields of a type that is declared before it: by an earlier statement or in the
engine already. Then loading takes the statements in one after the other and adds the rules in the order in which
they are written, and nothing else changes.
-/

namespace ProductionSystem

/-- The names of the fields of each type, if the type is declared. -/
abbrev Schema := String → Option (List String)

namespace Statement

/-- Does a fact fit the types that are declared? -/
def Fits (schema : Schema) : Statement → Prop
  | .make type values => ∃ names, schema type = some names ∧ ∀ field ∈ values, field.1 ∈ names
  | _ => True

/-- The types that are declared after a statement. -/
def declaring (schema : Schema) : Statement → Schema
  | .literalize template => Function.update schema template.type (some template.fieldNames)
  | _ => schema

/-- Does each fact fit the types that are declared by then? -/
def AllFit (schema : Schema) : List Statement → Prop
  | [] => True
  | statement :: rest => statement.Fits schema ∧ AllFit (statement.declaring schema) rest

def rule? : Statement → Option Rule
  | .rule r => some r
  | _ => none

end Statement

namespace Slots

theorem has_eq_true_iff {α : Type} {name : String} {slots : Slots α} :
    has name slots = true ↔ name ∈ names slots := by
  induction slots with
  | nil => exact ⟨nofun, nofun⟩
  | cons first rest ih =>
      obtain ⟨key, a⟩ := first
      rw [names, List.map_cons, List.mem_cons, ← names, ← ih, has, get?]
      by_cases hkey : name = key
      · simp [hkey]
      · simp [hkey, has]

end Slots

/-- Defaults can be overridden at their names, and at no other. -/
theorem Template.exists_override_iff {type : String} {fields : Fields} {overrides : List (String × Value)} :
    (∃ changed, override type fields overrides = .ok changed) ↔
      ∀ field ∈ overrides, field.1 ∈ Slots.names fields := by
  induction overrides generalizing fields with
  | nil => exact ⟨fun _ => List.forall_mem_nil _, fun _ => ⟨fields, rfl⟩⟩
  | cons field overrides ih =>
      obtain ⟨name, value⟩ := field
      rw [List.forall_mem_cons, ← Slots.has_eq_true_iff, ← Slots.isSome_assign? name value]
      cases hassign : Slots.assign? name value fields with
      | none => simp [override, hassign]
      | some changed =>
          simp only [override, hassign, Option.isSome_some, true_and, ih, Slots.names_of_assign? hassign]

namespace Store

def schema (store : Store) : Schema := fun type => (store.template? type).map Template.fieldNames

/-- What a statement does to working memory. -/
def takeIn (store : Store) : Statement → Store
  | .literalize template => store.register template
  | .make type values => (store.make type values).2
  | .rule _ | .skipped => store

variable (store : Store)

theorem schema_takeIn (statement : Statement) : (store.takeIn statement).schema = statement.declaring store.schema := by
  cases statement with
  | literalize template =>
      funext type
      simp only [takeIn, Statement.declaring, schema, template?, register, Dictionary.get?_insert, Function.update_apply]
      split
      · rfl
      · rfl
  | make type values =>
      have htemplates : (store.make type values).2.templates = store.templates := by
        unfold make takeId enter enqueue
        dsimp only
        split
        · rfl
        · split
          · rfl
          · rfl
      funext other
      simp only [takeIn, Statement.declaring, schema, template?, htemplates]
  | rule rule => rfl
  | skipped => rfl

theorem exists_make_iff (type : String) (values : List (String × Value)) :
    (∃ ref, (store.make type values).1 = .ok ref) ↔ (Statement.make type values).Fits store.schema := by
  simp only [Statement.Fits, schema]
  cases htemplate : store.template? type with
  | none => simp [make, htemplate]
  | some template =>
      have hoverride := @Template.exists_override_iff template.type template.defaults values
      simp only [Option.map_some, Option.some.injEq, exists_eq_left', Template.fieldNames, ← hoverride]
      cases hfields : Template.override template.type template.defaults values with
      | error e => simp [make, htemplate, Template.instantiate, hfields, Except.map]
      | ok fields => simp [make, htemplate, Template.instantiate, hfields, Except.map]

end Store

namespace LoadSummary

/-- Counts a statement. -/
def counting (summary : LoadSummary) : Statement → LoadSummary
  | .literalize _ => { summary with templates := summary.templates + 1 }
  | .make _ _ => { summary with facts := summary.facts + 1 }
  | .rule _ => summary
  | .skipped => { summary with skipped := summary.skipped + 1 }

/-- The summary of a document: its name, and how many statements of each kind it has. -/
def of (name : Option String) (statements : List Statement) : LoadSummary where
  name
  templates := statements.countP fun | .literalize _ => true | _ => false
  facts := statements.countP fun | .make _ _ => true | _ => false
  rules := (statements.filterMap Statement.rule?).length
  skipped := statements.countP fun | .skipped => true | _ => false

theorem foldl_counting (statements : List Statement) (summary : LoadSummary) :
    statements.foldl counting summary =
      { summary with
        templates := summary.templates + (of none statements).templates
        facts := summary.facts + (of none statements).facts
        skipped := summary.skipped + (of none statements).skipped } := by
  induction statements generalizing summary with
  | nil => rfl
  | cons statement statements ih =>
      rw [List.foldl_cons, ih]
      cases statement with
      | literalize template =>
          simp [counting, of]
          omega
      | make type values =>
          simp [counting, of]
          omega
      | rule rule => simp [counting, of]
      | skipped =>
          simp [counting, of]
          omega

end LoadSummary

namespace Loading

/-- The load after a statement that fits. -/
def taking (loading : Loading) (statement : Statement) : Loading where
  engine := loading.engine.withStore (loading.engine.store.takeIn statement)
  summary := loading.summary.counting statement
  rules := loading.rules ++ statement.rule?.toList

variable {loading last : Loading} {registry : Registry}

theorem apply_of_fits {statement : Statement} (h : statement.Fits loading.engine.store.schema) :
    loading.apply statement = (.ok (), loading.taking statement) := by
  cases statement with
  | make type values =>
      obtain ⟨ref, href⟩ := (loading.engine.store.exists_make_iff type values).2 h
      have hmake : loading.engine.make type values =
          (.ok ref, loading.engine.withStore (loading.engine.store.make type values).2) :=
        Prod.ext href rfl
      simp only [apply, hmake, taking, Store.takeIn, LoadSummary.counting, Statement.rule?, Option.toList_none,
        List.append_nil]
  | literalize template =>
      simp only [apply, taking, Engine.register, Store.takeIn, LoadSummary.counting, Statement.rule?,
        Option.toList_none, List.append_nil]
  | rule rule => rfl
  | skipped =>
      simp only [apply, taking, Store.takeIn, LoadSummary.counting, Statement.rule?, Option.toList_none,
        List.append_nil]
      rfl

theorem fits_of_apply {statement : Statement} (h : loading.apply statement = (.ok (), last)) :
    statement.Fits loading.engine.store.schema := by
  cases statement with
  | make type values =>
      refine (loading.engine.store.exists_make_iff type values).1 ?_
      unfold apply at h
      dsimp only at h
      split at h
      · rename_i ref engine hmake
        exact ⟨ref, (Prod.ext_iff.1 hmake).1⟩
      · cases h
  | literalize template => trivial
  | rule rule => trivial
  | skipped => trivial

theorem step_eq_ok_iff {json : Json} :
    loading.step registry json = (.ok (), last) ↔
      ∃ statement, json.IsStatement registry statement ∧ statement.Fits loading.engine.store.schema ∧
        loading.taking statement = last := by
  simp only [← Statement.ofJson_eq_ok_iff]
  cases hjson : Statement.ofJson registry json with
  | error problem => simp [step, hjson]
  | ok statement =>
      simp only [step, hjson, Except.ok.injEq, exists_eq_left']
      constructor
      · intro h
        have hfits := fits_of_apply h
        rw [apply_of_fits hfits] at h
        exact ⟨hfits, (Prod.ext_iff.1 h).2⟩
      · rintro ⟨hfits, rfl⟩
        exact apply_of_fits hfits

/-- The statements of a document are taken in one after the other, if they all belong to the grammar and all fit. -/
theorem steps_eq_ok_iff {index : Nat} {items : List Json} :
    loading.steps registry index items = (.ok (), last) ↔
      ∃ statements, List.Forall₂ (Json.IsStatement registry) items statements ∧
        Statement.AllFit loading.engine.store.schema statements ∧ statements.foldl taking loading = last := by
  induction items generalizing loading index with
  | nil =>
      constructor
      · intro h
        exact ⟨[], .nil, trivial, (Prod.ext_iff.1 h).2⟩
      · rintro ⟨statements, hstatements, -, hlast⟩
        cases hstatements
        exact Prod.ext rfl hlast
  | cons json items ih =>
      have hschema (statement : Statement) :
          (loading.taking statement).engine.store.schema = statement.declaring loading.engine.store.schema :=
        Store.schema_takeIn _ statement
      constructor
      · intro h
        unfold steps at h
        split at h
        · rename_i next hstep
          obtain ⟨statement, hstatement, hfits, rfl⟩ := step_eq_ok_iff.1 hstep
          obtain ⟨statements, hstatements, hallfit, hlast⟩ := ih.1 h
          rw [hschema] at hallfit
          exact ⟨statement :: statements, .cons hstatement hstatements, ⟨hfits, hallfit⟩, hlast⟩
        · cases h
      · rintro ⟨statements, hstatements, hallfit, hlast⟩
        cases hstatements with
        | @cons _ statement _ statements hstatement hstatements =>
            have hstep := step_eq_ok_iff.2 ⟨statement, hstatement, hallfit.1, rfl⟩
            rw [steps, hstep]
            refine ih.2 ⟨statements, hstatements, ?_, hlast⟩
            rw [hschema]
            exact hallfit.2

/-- What taking statements in comes to. -/
theorem foldl_taking (statements : List Statement) (loading : Loading) :
    statements.foldl taking loading =
      { engine := loading.engine.withStore (statements.foldl Store.takeIn loading.engine.store)
        summary := statements.foldl LoadSummary.counting loading.summary
        rules := loading.rules ++ statements.filterMap Statement.rule? } := by
  induction statements generalizing loading with
  | nil =>
      rw [List.filterMap_nil, List.append_nil]
      rfl
  | cons statement statements ih =>
      rw [List.foldl_cons, ih, List.filterMap_cons]
      cases hrule : statement.rule? with
      | none =>
          simp only [taking, hrule, Option.toList_none, List.append_nil]
          rfl
      | some rule =>
          simp only [taking, hrule, Option.toList_some, List.append_assoc, List.singleton_append]
          rfl

end Loading

namespace Engine

/-- Rules as instances, numbered from the first number that the engine has not given. -/
def numbered (engine : Engine) (rules : List Rule) : List RuleInstance :=
  (rules.zipIdx engine.added).map fun entry => ⟨entry.2, entry.1⟩

theorem foldl_install (rules : List Rule) (engine : Engine) :
    rules.foldl install engine =
      { engine with rules := engine.rules ++ engine.numbered rules, added := engine.added + rules.length } := by
  induction rules generalizing engine with
  | nil =>
      rw [numbered, List.zipIdx_nil, List.map_nil, List.append_nil]
      rfl
  | cons rule rules ih =>
      rw [List.foldl_cons, ih, numbered, numbered, List.zipIdx_cons, List.map_cons, List.length_cons]
      simp only [install, List.append_assoc, List.singleton_append, Nat.add_assoc, Nat.add_comm 1]

theorem addRules_eq (engine : Engine) (rules : List Rule) :
    engine.addRules rules =
      { engine with
        rules :=
          if engine.config.sortBySpecificity then
            (engine.rules ++ engine.numbered rules).mergeSort fun a b => b.rule.specificity ≤ a.rule.specificity
          else engine.rules ++ engine.numbered rules
        added := engine.added + rules.length } := by
  rw [addRules, foldl_install, arrange]
  dsimp only
  split
  · rfl
  · rfl

/-- A rule that is added is one of the rules. -/
theorem mem_rules_addRules (engine : Engine) (rule : Rule) :
    ⟨engine.added, rule⟩ ∈ (engine.addRules [rule]).rules := by
  have hmem : ⟨engine.added, rule⟩ ∈ engine.rules ++ engine.numbered [rule] :=
    List.mem_append_right _ List.mem_cons_self
  rw [addRules_eq]
  dsimp only
  split
  · exact List.mem_mergeSort.2 hmem
  · exact hmem

end Engine

namespace Document

/-- Does a member, which may be missing, give a name that may be left out? -/
inductive IsName : Option Json → Option String → Prop
  | missing : IsName none none
  | null : IsName (some .null) none
  | text (name : String) : IsName (some (.str name)) (some name)

/-- What the members of an object make of a document, if no two of them have one name. -/
theorem foldlM_withMember_eq_ok_iff {members : List (String × Json)} (hdistinct : (members.map (·.1)).Nodup)
    {document last : Document} :
    members.foldlM withMember document = .ok last ↔
      (match Slots.get? "name" members with
        | none => last.name = document.name
        | some json => name? json = .ok last.name) ∧
      match Slots.get? "ops" members with
        | none => last.ops = document.ops
        | some json => ops? json = .ok last.ops := by
  induction members generalizing document with
  | nil =>
      obtain ⟨name, ops⟩ := document
      obtain ⟨name', ops'⟩ := last
      rw [List.foldlM_nil, Parsed.pure_eq_ok_iff]
      simp only [Slots.get?, mk.injEq, eq_comm]
  | cons member members ih =>
      obtain ⟨key, json⟩ := member
      obtain ⟨hfresh, hdistinct⟩ := List.nodup_cons.1 hdistinct
      have hmissing {name : String} (hkey : key = name) : Slots.get? name members = none := by
        refine Slots.get?_eq_none_of_forall_ne fun entry hentry heq => hfresh ?_
        exact List.mem_map.2 ⟨entry, hentry, heq.symm.trans hkey.symm⟩
      rw [List.foldlM_cons, Parsed.bind_eq_ok_iff]
      simp only [ih hdistinct, Slots.get?]
      by_cases hname : key = "name"
      · have hops : ¬"ops" = key := hname ▸ by decide
        simp only [withMember, if_pos hname, if_pos hname.symm, if_neg hops, hmissing hname, Parsed.map_eq_ok_iff]
        constructor
        · rintro ⟨_, ⟨name, hread, rfl⟩, hsame, hrest⟩
          exact ⟨hsame ▸ hread, hrest⟩
        · rintro ⟨hread, hrest⟩
          exact ⟨_, ⟨last.name, hread, rfl⟩, rfl, hrest⟩
      · have hname' : ¬"name" = key := Ne.symm hname
        by_cases hops : key = "ops"
        · simp only [withMember, if_neg hname, if_neg hname', if_pos hops, if_pos hops.symm, hmissing hops,
            Parsed.map_eq_ok_iff]
          constructor
          · rintro ⟨_, ⟨ops, hread, rfl⟩, hrest, hsame⟩
            exact ⟨hrest, hsame ▸ hread⟩
          · rintro ⟨hrest, hread⟩
            exact ⟨_, ⟨last.ops, hread, rfl⟩, hrest, rfl⟩
        · simp only [withMember, if_neg hname, if_neg hname', if_neg hops, if_neg (Ne.symm hops),
            Except.ok.injEq, exists_eq_left']

theorem name?_iff {json? : Option Json} {name : Option String} :
    (match json? with
      | none => name = none
      | some json => name? json = .ok name) ↔ IsName json? name := by
  cases json? with
  | none => exact ⟨fun h => h ▸ .missing, fun h => by cases h; rfl⟩
  | some json =>
      cases json with
      | null => exact ⟨fun h => Except.ok.inj h ▸ .null, fun h => by cases h; rfl⟩
      | str text => exact ⟨fun h => Except.ok.inj h ▸ .text text, fun h => by cases h; rfl⟩
      | bool _ | int _ | float _ | arr _ | obj _ => exact ⟨nofun, nofun⟩

theorem ops?_iff {json? : Option Json} {items : List Json} :
    (match json? with
      | none => some items = none
      | some json => ops? json = .ok (some items)) ↔ json? = some (.arr items) := by
  cases json? with
  | none => exact ⟨nofun, nofun⟩
  | some json =>
      cases json with
      | arr other =>
          show Except.ok (some other) = Except.ok (some items) ↔ _
          rw [Except.ok.injEq, Option.some.injEq, Option.some.injEq, Json.arr.injEq]
      | null => exact ⟨fun h => (Option.some_ne_none items (Except.ok.inj h).symm).elim, nofun⟩
      | bool _ | int _ | float _ | str _ | obj _ => exact ⟨nofun, nofun⟩

theorem ofJson_obj_eq_ok_iff {members : List (String × Json)} (hdistinct : (members.map (·.1)).Nodup)
    {name : Option String} {items : List Json} :
    ofJson (.obj members) = .ok ⟨name, some items⟩ ↔
      IsName (Slots.get? "name" members) name ∧ Slots.get? "ops" members = some (.arr items) := by
  rw [ofJson, foldlM_withMember_eq_ok_iff hdistinct, ← name?_iff, ← ops?_iff]

/-- Is a document accepted, as one with a name and statements? -/
structure IsAccepted (registry : Registry) (schema : Schema) (members : List (String × Json))
    (name : Option String) (statements : List Statement) : Prop where
  name : IsName (Slots.get? "name" members) name
  ops : ∃ items, Slots.get? "ops" members = some (.arr items) ∧
    List.Forall₂ (Json.IsStatement registry) items statements
  fit : Statement.AllFit schema statements

end Document

namespace Engine

theorem loadDocument_eq_ok_iff {engine after : Engine} {registry : Registry} {json : Json}
    {summary : LoadSummary} :
    engine.loadDocument registry json = (.ok summary, after) ↔
      ∃ name items loading, Document.ofJson json = .ok ⟨name, some items⟩ ∧
        Loading.steps registry { engine, summary := { name } } 0 items = (.ok (), loading) ∧
        loading.finish = (summary, after) := by
  constructor
  · intro h
    unfold loadDocument at h
    split at h
    · cases h
    · rename_i document hdocument
      obtain ⟨name, ops⟩ := document
      dsimp only at h
      split at h
      · cases h
      · rename_i items
        split at h
        · rename_i loading hsteps
          obtain ⟨hsummary, hafter⟩ := Prod.mk.inj h
          exact ⟨name, items, loading, hdocument, hsteps, Prod.ext (Except.ok.inj hsummary) hafter⟩
        · cases h
  · rintro ⟨name, items, loading, hdocument, hsteps, hfinish⟩
    simp only [loadDocument, hdocument, hsteps, hfinish]

/-- The engine after loading statements. -/
theorem finish_taking (engine : Engine) (name : Option String) (statements : List Statement) :
    (statements.foldl Loading.taking { engine, summary := { name } }).finish =
      (LoadSummary.of name statements,
        (engine.withStore (statements.foldl Store.takeIn engine.store)).addRules
          (statements.filterMap Statement.rule?)) := by
  rw [Loading.foldl_taking, Loading.finish, LoadSummary.foldl_counting]
  simp only [List.nil_append, LoadSummary.of, Nat.zero_add]

end Engine

/-- **Which documents load, and what they mean.** A document loads exactly if its name is missing, null or a string,
its statements are an array of which each item belongs to the grammar, and each fact has fields of a type that is
declared by then. Loading then takes the declarations and the facts in one after the other; the rules, numbered on
from those before, come behind the rules of the engine in the order in which they are written, and only a
configuration that sorts rules moves them. Nothing else changes. -/
theorem load_means_statements (engine : Engine) (registry : Registry) {members : List (String × Json)}
    (hdistinct : (members.map (·.1)).Nodup) :
    let loaded := engine.loadDocument registry (.obj members)
    let accepted := Document.IsAccepted registry engine.store.schema members
    ((∃ summary, loaded.1 = .ok summary) ↔ ∃ name statements, accepted name statements) ∧
      ∀ name statements, accepted name statements →
        let rules := statements.filterMap Statement.rule?
        let all := engine.rules ++ engine.numbered rules
        loaded =
          (.ok (LoadSummary.of name statements),
            { engine with
              workspace := { engine.workspace with store := statements.foldl Store.takeIn engine.store }
              rules :=
                if engine.config.sortBySpecificity then
                  all.mergeSort fun a b => b.rule.specificity ≤ a.rule.specificity
                else all
              added := engine.added + rules.length }) := by
  intro loaded accepted
  have hmeaning (name : Option String) (statements : List Statement) (h : accepted name statements) :
      loaded = (.ok (LoadSummary.of name statements),
        (engine.withStore (statements.foldl Store.takeIn engine.store)).addRules
          (statements.filterMap Statement.rule?)) := by
    obtain ⟨hname, ⟨items, hops, hstatements⟩, hfit⟩ := h
    refine Engine.loadDocument_eq_ok_iff.2 ⟨name, items, _, ?_, ?_, Engine.finish_taking engine name statements⟩
    · exact (Document.ofJson_obj_eq_ok_iff hdistinct).2 ⟨hname, hops⟩
    · exact Loading.steps_eq_ok_iff.2 ⟨statements, hstatements, hfit, rfl⟩
  refine ⟨⟨?_, ?_⟩, fun name statements h => ?_⟩
  · rintro ⟨summary, hsummary⟩
    have hloaded : loaded = (.ok summary, loaded.2) := Prod.ext hsummary rfl
    obtain ⟨name, items, loading, hdocument, hsteps, -⟩ := Engine.loadDocument_eq_ok_iff.1 hloaded
    obtain ⟨hname, hops⟩ := (Document.ofJson_obj_eq_ok_iff hdistinct).1 hdocument
    obtain ⟨statements, hstatements, hfit, -⟩ := Loading.steps_eq_ok_iff.1 hsteps
    exact ⟨name, statements, hname, ⟨items, hops, hstatements⟩, hfit⟩
  · rintro ⟨name, statements, h⟩
    rw [hmeaning name statements h]
    exact ⟨_, rfl⟩
  · rw [hmeaning name statements h, Engine.addRules_eq]
    rfl

/-- A file that declares items, makes one, and has a rule for items and a remark. -/
def listingDocument : List (String × Json) := [
  ("name", .str "listing"),
  ("ops", .arr [
    .arr [.str "literalize", .str "item", .str "name"],
    .arr [.str "make", .str "item", .str "name", .str "a"],
    .arr [.str "p", .str "list", .arr [.arr [.str "item", .str "name", .str "$name"]],
      .arr [.arr [.str "write", .str "$name"], .arr [.str "remove", .int 0]]],
    .arr [.str "remark", .str "no more items"]])]

/-- The file loads: it declares a type, makes a fact, adds a rule, and one statement is passed over. -/
theorem load_means_statements_listing :
    (listingDocument.map (·.1)).Nodup ∧
      let loaded := (Engine.new .sequential).loadDocument .builtins (.obj listingDocument)
      loaded.1 = .ok { name := some "listing", templates := 1, facts := 1, rules := 1, skipped := 1 } ∧
        loaded.2.store.template? "item" = some ⟨"item", [("name", .nil)]⟩ ∧ loaded.2.store.pending = [⟨0⟩] ∧
        loaded.2.store.fact? ⟨0⟩ = some { id := ⟨0⟩, type := "item", fields := [("name", .str "a")] } ∧
        loaded.2.rules.map (fun source => (source.serial, source.rule.name)) = [(0, "list")] := by
  have hdistinct : (listingDocument.map (·.1)).Nodup := by decide
  have hvariable : isVariableName "$name" = true := by decide
  have hname : Json.IsDeclaration (.str "name") [("name", .nil)] := .name "name"
  have hcondition : Json.IsCondition (.arr [.str "item", .str "name", .str "$name"])
      ⟨"item", [("name", .variable "$name")]⟩ := .mk (.cons (.term nofun (.ofName hvariable)) .nil)
  have hwrite : Json.IsAction .builtins (.arr [.str "write", .str "$name"])
      ⟨Builtin.write.command, [.variable "$name"]⟩ := .mk rfl (.cons (.ofName hvariable) .nil)
  have hremove : Json.IsAction .builtins (.arr [.str "remove", .int 0])
      ⟨Builtin.remove.command, [.literal (.int 0)]⟩ := .mk rfl (.cons (.ofValue nofun (.int (by decide))) .nil)
  have haccepted : Document.IsAccepted .builtins (Engine.new .sequential).store.schema listingDocument
      (some "listing") [.literalize (Template.withFields { type := "item" } [("name", .nil)]),
        .make "item" [("name", .str "a")],
        .rule ⟨"list", [⟨"item", [("name", .variable "$name")]⟩],
          [⟨Builtin.write.command, [.variable "$name"]⟩, ⟨Builtin.remove.command, [.literal (.int 0)]⟩]⟩,
        .skipped] := by
    refine ⟨.text _, ⟨_, rfl, .cons (.literalize (.cons hname .nil)) (.cons (.make (.cons (.str "a") .nil))
      (.cons (.rule (.cons hcondition .nil) (.cons hwrite (.cons hremove .nil)))
        (.cons (.unknown ?_) .nil)))⟩, ?_⟩
    · simp [Json.keywords]
    · exact ⟨trivial, ⟨["name"], rfl, by decide⟩, trivial, trivial, trivial⟩
  obtain ⟨-, hmeaning⟩ := load_means_statements (Engine.new .sequential) .builtins hdistinct
  have hloaded := hmeaning _ _ haccepted
  exact ⟨hdistinct, congrArg Prod.fst hloaded, congrArg (fun loaded => loaded.2.store.template? "item") hloaded,
    congrArg (fun loaded => loaded.2.store.pending) hloaded,
    congrArg (fun loaded => loaded.2.store.fact? ⟨0⟩) hloaded,
    congrArg (fun loaded => loaded.2.rules.map fun source => (source.serial, source.rule.name)) hloaded⟩

end ProductionSystem
