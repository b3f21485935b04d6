import ProductionSystem.Proofs.AllOrNothing
import ProductionSystem.Proofs.ComposedLoads

/-!
The two ways in which a rule file makes a fact: a statement, and the action of a rule. The loader decodes the fields of
a statement by itself, and takes the parameters of an action as they come, for the command to decode; so they look at
different things first and tell different errors. Without variables they make the same fact, or neither makes one.
-/

namespace ProductionSystem

namespace Json

variable {registry : Registry} {items : List Json}

/-- The fields of a statement are values that are fields as arguments. -/
theorem areFields_iff {fields : List (String × Value)} :
    AreFields IsValue items fields ↔ List.Forall₂ IsValue items (Arguments.spelled fields) := by
  constructor
  · intro h
    induction h with
    | nil => exact .nil
    | cons hitem _ ih => exact .cons (.str _) (.cons hitem ih)
  · intro h
    induction fields generalizing items with
    | nil =>
        cases h
        exact .nil
    | cons field fields ih =>
        cases h with
        | cons hname hrest =>
            cases hrest with
            | cons hitem hrest =>
                cases hname
                exact .cons hitem (ih hrest)

/-- A statement with the word for a fact is one if it consists of values that a command would take for a type and
fields. -/
theorem isStatement_make_iff (hitems : items ≠ []) {statement : Statement} :
    (Json.arr (.str "make" :: items)).IsStatement registry statement ↔
      ∃ type fields, List.Forall₂ IsValue items (.str type :: Arguments.spelled fields) ∧
        statement = .make type fields := by
  rw [← Statement.ofJson_eq_ok_iff]
  cases items with
  | nil => exact (hitems rfl).elim
  | cons type items =>
      constructor
      · intro h
        obtain ⟨⟨name, fields⟩, hmake, rfl⟩ := Parsed.map_eq_ok_iff.1 h
        obtain ⟨rfl, hfields⟩ := Statement.ofMake_eq_ok_iff.1 hmake
        exact ⟨name, fields, .cons (.str name) (areFields_iff.1 hfields), rfl⟩
      · rintro ⟨name, fields, hvalues, rfl⟩
        obtain ⟨htype, hfields⟩ := List.forall₂_cons.1 hvalues
        cases htype
        exact Parsed.map_eq_ok_iff.2 ⟨(name, fields), Statement.ofMake_eq_ok_iff.2 ⟨rfl, areFields_iff.2 hfields⟩, rfl⟩

/-- Without variables, parameters are values. -/
theorem forall₂_isParam_iff (hplain : ∀ text, .str text ∈ items → isVariableName text = false) {params : List Param} :
    List.Forall₂ IsParam items params ↔ ∃ values, List.Forall₂ IsValue items values ∧ params = values.map .literal := by
  induction items generalizing params with
  | nil =>
      refine ⟨fun h => ⟨[], .nil, List.forall₂_nil_left_iff.1 h⟩, ?_⟩
      rintro ⟨values, hvalues, rfl⟩
      cases hvalues
      exact .nil
  | cons item items ih =>
      have hitem : ∀ text, item = .str text → isVariableName text = false := fun text htext =>
        hplain text (htext ▸ List.mem_cons_self)
      have hitems := @ih fun text htext => hplain text (List.mem_cons_of_mem _ htext)
      constructor
      · intro h
        obtain ⟨param, params, hparam, hparams, rfl⟩ := List.forall₂_cons_left_iff.1 h
        obtain ⟨values, hvalues, rfl⟩ := hitems.1 hparams
        cases hparam with
        | ofName hname => cases (hitem _ rfl).symm.trans hname
        | ofValue _ hvalue => exact ⟨_ :: values, .cons hvalue hvalues, rfl⟩
      · rintro ⟨values, hvalues, rfl⟩
        obtain ⟨value, rest, hvalue, hrest, rfl⟩ := List.forall₂_cons_left_iff.1 hvalues
        exact .cons (.ofValue hitem hvalue) (hitems.2 ⟨rest, hrest, rfl⟩)

/-- An action with the same word and no variables is one if it consists of values. -/
theorem isAction_make_iff (hplain : ∀ text, .str text ∈ items → isVariableName text = false) {action : Action} :
    (Json.arr (.str "make" :: items)).IsAction .builtins action ↔
      ∃ values, List.Forall₂ IsValue items values ∧ action = ⟨Builtin.make.command, values.map .literal⟩ := by
  have hmake : Registry.builtins.get? "make" = some Builtin.make.command := rfl
  have hplace : "make" ∉ Statement.namingCommands := by decide
  constructor
  · intro h
    cases h with
    | mk hcommand hparams =>
        obtain ⟨values, hvalues, rfl⟩ := (forall₂_isParam_iff hplain).1 hparams
        obtain rfl := Option.some.inj (hmake.symm.trans hcommand)
        exact ⟨values, hvalues, by rw [if_neg hplace]⟩
  · rintro ⟨values, hvalues, rfl⟩
    have haction := IsAction.mk hmake ((forall₂_isParam_iff hplain).2 ⟨values, hvalues, rfl⟩)
    rwa [if_neg hplace] at haction

end Json

namespace Builtin

open Arguments

/-- Given a type and fields, the command makes a fact, or fails as making one does. -/
theorem run_make_of_spell {type : String} {fields : List (String × Value)} {state : ActionState}
    {result : Except ErrorKind FactRef} {after : Store} (h : state.workspace.store.make type fields = (result, after)) :
    (make.body (.str type :: spelled fields)).run state =
      ((result.mapError Abort.failed).map fun _ => (), state.withStore after) := by
  have hspell : Spell IsName (.str type :: spelled fields) type fields := ⟨.str type, rfl, rfl⟩
  rw [ActionM.make_eq_taking, ActionM.run_taking_of_spell (decodes_name "make") hspell, ActionM.run_discard,
    ActionM.createFact, show state = ⟨state.firing, state.workspace⟩ from rfl, ActionM.run_onStore, h]
  rfl

/-- Given anything else, the command fails and does nothing. -/
theorem run_make_of_not_spell {args : List Value} (h : ∀ type fields, args ≠ .str type :: spelled fields)
    (state : ActionState) : ∃ abort, (make.body args).run state = (.error abort, state) := by
  obtain ⟨type, fields, _, rfl, rfl⟩ | ⟨problem, hmisused⟩ :=
    spell_or_misused "make" "a fact type" IsName (.notName "make") args
  · exact (h type fields rfl).elim
  · rw [ActionM.make_eq_taking, ActionM.run_taking_of_misused (decodes_name "make") hmisused]
    exact ⟨_, rfl⟩

end Builtin

namespace Engine

variable {engine after : Engine} {registry : Registry} {file json : Json} {name : Option String}

/-- A document with a single statement is taken in, or nothing happens but that an id may be used up. -/
theorem loadDocument_single (engine : Engine) (registry : Registry)
    (hdocument : Document.ofJson file = .ok ⟨name, some [json]⟩) :
    (∃ statement, json.IsStatement registry statement ∧ statement.Fits engine.store.schema ∧
      engine.loadDocument registry file = (.ok (LoadSummary.of name [statement]), engine.taking [statement])) ∨
    ∃ kind e, json.IsRefused registry engine.store kind ∧
      engine.loadDocument registry file = (.error e, engine.withStore (engine.store.refusing kind)) := by
  cases hloaded : engine.loadDocument registry file with
  | mk result after =>
      cases result with
      | ok summary =>
          obtain ⟨statements, hstatements, hfit⟩ :=
            exists_statements_of_loadDocument hdocument (congrArg Prod.fst hloaded)
          obtain ⟨statement, rest, hstatement, hrest, rfl⟩ := List.forall₂_cons_left_iff.1 hstatements
          cases hrest
          rw [loadDocument_eq_taking hdocument hstatements hfit] at hloaded
          exact .inl ⟨statement, hstatement, hfit.1, hloaded.symm⟩
      | error e =>
          obtain ⟨taken, kind, hstops, -, rfl⟩ := (loadDocument_eq_error_iff hdocument).1 hloaded
          obtain ⟨last, hlast, -⟩ := hstops.refused
          have hlength : taken.length < [json].length := (List.getElem?_eq_some_iff.1 hlast).choose
          obtain rfl : taken = [] := List.length_eq_zero_iff.1 (Nat.lt_one_iff.1 hlength)
          exact .inr ⟨kind, e, Document.stopsAfter_cons_nil_iff.1 hstops, rfl⟩

section Rules

variable {ruleName : String} {conditionItems actionItems rest : List Json}
  (hdocument : Document.ofJson file = .ok ⟨name, some [.arr (.str "p" :: .str ruleName :: .arr conditionItems ::
    .arr actionItems :: rest)]⟩)

include hdocument

/-- A document with a single rule adds the rule. -/
theorem loadDocument_rule (engine : Engine) {conditions : List Condition} {actions : List Action}
    (hconditions : List.Forall₂ Json.IsCondition conditionItems conditions)
    (hactions : List.Forall₂ (Json.IsAction registry) actionItems actions) :
    ∃ summary, engine.loadDocument registry file =
      (.ok summary, engine.addRules [{ name := ruleName, conditions, actions }]) :=
  ⟨_, loadDocument_eq_taking hdocument (.cons (.rule hconditions hactions) .nil) ⟨trivial, trivial⟩⟩

theorem loadDocument_rule_refused (engine : Engine)
    (hactions : ∀ actions, ¬List.Forall₂ (Json.IsAction registry) actionItems actions) :
    ∃ e, engine.loadDocument registry file = (.error e, engine) := by
  have hnone {statement : Statement} (h : (Json.arr (.str "p" :: .str ruleName :: .arr conditionItems ::
      .arr actionItems :: rest)).IsStatement registry statement) : False := by
    obtain ⟨rule, hrule, -⟩ := Parsed.map_eq_ok_iff.1 (Statement.ofJson_eq_ok_iff.2 h)
    obtain ⟨_, _, _, -, hparts, -, hmeans⟩ := Statement.ofRule_eq_ok_iff.1 hrule
    cases hparts
    exact hactions rule.actions hmeans
  obtain ⟨statement, hstatement, -⟩ | ⟨kind, e, hrefused, hloaded⟩ := engine.loadDocument_single registry hdocument
  · exact (hnone hstatement).elim
  · cases hrefused with
    | illFormed _ => exact ⟨e, hloaded⟩
    | inapplicable hjson _ => exact (hnone hjson).elim

end Rules

/-- What the first action of a firing is given. -/
def firstState (engine : Engine) (found : Match) : ActionState where
  firing := { rule := found.source.rule.name, facts := found.facts, bindings := found.bindings }
  workspace := engine.workspace

/-- What a firing with one action, which makes a fact, leaves of memory, and what it reports. -/
theorem fire_make (engine : Engine) {found : Match} {values : List Value}
    (hactions : found.source.rule.actions = [⟨Builtin.make.command, values.map .literal⟩]) {store : Store}
    {result : Except Abort Unit}
    (hrun : (Builtin.make.body values).run (engine.firstState found) =
      (result, (engine.firstState found).withStore store)) :
    (engine.fire found).store = store ∧
      (result = .ok () → (engine.fire found).failures = engine.failures) ∧
      ∀ abort, result = .error abort →
        (engine.fire found).failures =
          engine.failures.push (.of found.source.rule.name "make" (abort.cause Builtin.make.command)) := by
  have hargs : Param.resolveAll found.bindings (values.map .literal) = .ok values :=
    Param.resolveAll_eq_ok_iff.2 (List.forall₂_map_left_iff.2 (List.forall₂_same.2 fun _ _ => rfl))
  have hmode : Builtin.make.command.mode = .sync := rfl
  have hbody : Builtin.make.command.body = Builtin.make.body := rfl
  rw [firstState] at hrun
  simp only [fire, hactions, List.foldl_cons, List.foldl_nil, dispatch, hargs, hmode, exec, Command.run_eq, hbody, hrun]
  cases result with
  | ok _ =>
      refine ⟨rfl, fun _ => rfl, fun abort h => ?_⟩
      cases h
  | error abort =>
      refine ⟨rfl, fun h => ?_, fun other h => ?_⟩
      · cases h
      · rw [← Except.error.inj h]
        rfl

end Engine

/-- Does a firing of the rule, whenever the templates are the given ones, add a fact to memory and do nothing else? -/
def Rule.FiresMaking (rule : Rule) (templates : Dictionary Template) (type : String) (fields : Fields) : Prop :=
  ∀ (engine : Engine) (found : Match), engine.store.templates = templates → found.source.rule = rule →
    (engine.fire found).store = engine.store.gaining type fields ∧ (engine.fire found).failures = engine.failures

/-- Does a firing of the rule, whenever the templates are the given ones, report a failure and add nothing? -/
def Rule.FiresFailing (rule : Rule) (templates : Dictionary Template) : Prop :=
  ∀ (engine : Engine) (found : Match), engine.store.templates = templates → found.source.rule = rule →
    (∃ nextId, (engine.fire found).store = { engine.store with nextId }) ∧
      ∃ failure, (engine.fire found).failures = engine.failures.push failure

section Rules

variable {rule : Rule} {store : Store} {type : String} {fields : List (String × Value)} {values : List Value}

theorem Rule.firesMaking {template : Template}
    (hactions : rule.actions = [⟨Builtin.make.command, (.str type :: Arguments.spelled fields).map .literal⟩])
    (htemplate : store.template? type = some template) (hfields : ∀ entry ∈ fields, entry.1 ∈ template.fieldNames) :
    rule.FiresMaking store.templates template.type (template.fieldsWith fields) := by
  rintro engine found htemplates rfl
  have hknown : engine.store.template? type = some template := by
    rw [Store.template?, htemplates]
    exact htemplate
  obtain ⟨hstore, hfailures, -⟩ :=
    engine.fire_make hactions (Builtin.run_make_of_spell (Store.make_of_fields hknown hfields))
  exact ⟨hstore, hfailures rfl⟩

theorem Rule.firesFailing_of_refuses {kind : ErrorKind}
    (hactions : rule.actions = [⟨Builtin.make.command, (.str type :: Arguments.spelled fields).map .literal⟩])
    (hrefuses : store.Refuses type fields kind) : rule.FiresFailing store.templates := by
  rintro engine found htemplates rfl
  have hhere : engine.store.Refuses type fields kind := by
    cases hrefuses with
    | undeclared htype => exact .undeclared (by rw [Store.template?, htemplates]; exact htype)
    | unknownField htype hfield => exact .unknownField (by rw [Store.template?, htemplates]; exact htype) hfield
  obtain ⟨hstore, -, hfailures⟩ := engine.fire_make hactions (Builtin.run_make_of_spell (Store.make_of_refuses hhere))
  exact ⟨⟨_, hstore⟩, _, hfailures _ rfl⟩

/-- A firing whose action says something else than a type and fields reports a failure. -/
theorem Rule.firesFailing_of_not_spell (hactions : rule.actions = [⟨Builtin.make.command, values.map .literal⟩])
    (hvalues : ∀ type fields, values ≠ .str type :: Arguments.spelled fields) (templates : Dictionary Template) :
    rule.FiresFailing templates := by
  rintro engine found - rfl
  obtain ⟨abort, hrun⟩ := Builtin.run_make_of_not_spell hvalues (engine.firstState found)
  obtain ⟨hstore, -, hfailures⟩ := engine.fire_make hactions hrun
  exact ⟨⟨engine.store.nextId, hstore⟩, _, hfailures _ rfl⟩

end Rules

/-- **A statement and an action make the same fact.** Let a statement and the only action of a rule say to make a fact,
in the same words and with no variable among them. Either the statement loads and a fact is added, and the rule loads
and each of its firings with the same templates adds a fact of the same type with the same fields and does nothing
else; or the statement is refused and no fact is added, and the rule is refused too or each of its firings reports a
failure and adds no fact. -/
theorem statement_and_action_make_alike (engine : Engine) (registry : Registry) {items : List Json}
    (hitems : items ≠ []) (hplain : ∀ text, .str text ∈ items → isVariableName text = false)
    {statementFile ruleFile : Json} {statementName ruleFileName : Option String} {name : String}
    {conditionItems rest : List Json} {conditions : List Condition}
    (hstatement : Document.ofJson statementFile = .ok ⟨statementName, some [.arr (.str "make" :: items)]⟩)
    (hrule : Document.ofJson ruleFile =
      .ok ⟨ruleFileName, some [.arr (.str "p" :: .str name :: .arr conditionItems ::
        .arr [.arr (.str "make" :: items)] :: rest)]⟩)
    (hconditions : List.Forall₂ Json.IsCondition conditionItems conditions) :
    let stated := engine.loadDocument registry statementFile
    let ruled := engine.loadDocument .builtins ruleFile
    let rule params : Rule := { name, conditions, actions := [⟨Builtin.make.command, params⟩] }
    (∃ type fields params,
      (∃ summary, stated.1 = .ok summary) ∧ stated.2.store = engine.store.gaining type fields ∧
      (∃ summary, ruled = (.ok summary, engine.addRules [rule params])) ∧
      (rule params).FiresMaking engine.store.templates type fields) ∨
    (∃ e nextId, stated = (.error e, engine.withStore { engine.store with nextId })) ∧
      ((∃ e, ruled = (.error e, engine)) ∨
        ∃ params, (∃ summary, ruled = (.ok summary, engine.addRules [rule params])) ∧
          (rule params).FiresFailing engine.store.templates) := by
  intro stated ruled rule
  have hruled {values : List Value} (hvalues : List.Forall₂ Json.IsValue items values) :
      ∃ summary, ruled = (.ok summary, engine.addRules [rule (values.map .literal)]) :=
    Engine.loadDocument_rule hrule engine hconditions
      (.cons ((Json.isAction_make_iff hplain).2 ⟨values, hvalues, rfl⟩) .nil)
  obtain ⟨statement, hmeans, hfits, hstated⟩ | ⟨kind, e, hrefused, hstated⟩ :=
    engine.loadDocument_single registry hstatement
  · obtain ⟨type, fields, hvalues, rfl⟩ := (Json.isStatement_make_iff hitems).1 hmeans
    obtain ⟨names, hschema, hfields⟩ := hfits
    obtain ⟨template, htemplate, rfl⟩ := Option.map_eq_some_iff.1 hschema
    refine .inl ⟨template.type, template.fieldsWith fields, _, ⟨_, congrArg Prod.fst hstated⟩, ?_, hruled hvalues,
      Rule.firesMaking rfl htemplate hfields⟩
    have hstore : stated.2.store = (engine.store.make type fields).2 := by
      rw [show stated = _ from hstated, Engine.store_taking]
      rfl
    rw [hstore, Store.make_of_fields htemplate hfields]
  · refine .inr ⟨⟨e, _, hstated⟩, ?_⟩
    cases hrefused with
    | illFormed hjson =>
        -- an object among the words is refused in the rule as well; anything else is left for the command to refuse
        by_cases hvalues : ∃ values, List.Forall₂ Json.IsValue items values
        · obtain ⟨values, hvalues⟩ := hvalues
          refine .inr ⟨_, hruled hvalues, Rule.firesFailing_of_not_spell rfl (fun type fields hspelled => ?_) _⟩
          have hmeans : (Json.arr (.str "make" :: items)).IsStatement registry (.make type fields) :=
            (Json.isStatement_make_iff hitems).2 ⟨type, fields, hspelled ▸ hvalues, rfl⟩
          rw [Statement.ofJson_eq_ok_iff.2 hmeans] at hjson
          cases hjson
        · refine .inl (Engine.loadDocument_rule_refused hrule engine fun actions hactions => hvalues ?_)
          obtain ⟨action, _, haction, -⟩ := List.forall₂_cons_left_iff.1 hactions
          obtain ⟨values, hvalues, -⟩ := (Json.isAction_make_iff hplain).1 haction
          exact ⟨values, hvalues⟩
    | inapplicable hjson hrefuses =>
        obtain ⟨type, fields, hvalues, hmake⟩ := (Json.isStatement_make_iff hitems).1 hjson
        cases hmake
        exact .inr ⟨_, hruled hvalues, Rule.firesFailing_of_refuses rfl hrefuses⟩

/-- A part with its size given twice. -/
def growing : List Json := [.str "part", .str "size", .int 3, .str "size", .null]

/-- Loaded as a statement and fired as an action, it is the same part. -/
theorem statement_and_action_make_alike_part :
    let engine := (Engine.new .sequential).register ⟨"part", [("size", .int 1)]⟩
    let stating : List Json := [.arr (.str "make" :: growing)]
    let ruling : List Json :=
      [.arr [.str "p", .str "grow", .arr [.arr [.str "part"]], .arr [.arr (.str "make" :: growing)]]]
    growing ≠ [] ∧ (∀ text, .str text ∈ growing → isVariableName text = false) ∧
      Document.ofJson (.obj [("ops", .arr stating)]) = .ok ⟨none, some stating⟩ ∧
      Document.ofJson (.obj [("ops", .arr ruling)]) = .ok ⟨none, some ruling⟩ ∧
      List.Forall₂ Json.IsCondition [.arr [.str "part"]] [⟨"part", []⟩] ∧
      ∃ type fields params,
        (engine.loadDocument .builtins (.obj [("ops", .arr stating)])).2.store = engine.store.gaining type fields ∧
          (⟨"grow", [⟨"part", []⟩], [⟨Builtin.make.command, params⟩]⟩ : Rule).FiresMaking engine.store.templates
            type fields := by
  intro engine stating ruling
  have hplain : ∀ text, .str text ∈ growing → isVariableName text = false := by
    intro text htext
    simp only [growing, List.mem_cons, Json.str.injEq, reduceCtorEq, List.not_mem_nil, or_false, false_or] at htext
    obtain rfl | rfl | rfl := htext
    · rfl
    · rfl
    · rfl
  have hconditions : List.Forall₂ Json.IsCondition [.arr [.str "part"]] [⟨"part", []⟩] := .cons (.mk .nil) .nil
  have hloads : (engine.loadDocument .builtins (.obj [("ops", .arr stating)])).1 =
      .ok (LoadSummary.of none [.make "part" [("size", .int 3), ("size", .nil)]]) := rfl
  have hstating : Document.ofJson (.obj [("ops", .arr stating)]) = .ok ⟨none, some stating⟩ := rfl
  have hruling : Document.ofJson (.obj [("ops", .arr ruling)]) = .ok ⟨none, some ruling⟩ := rfl
  have hitems : growing ≠ [] := nofun
  refine ⟨hitems, hplain, hstating, hruling, hconditions, ?_⟩
  obtain ⟨type, fields, params, -, hstore, -, hfires⟩ | ⟨⟨e, nextId, hfails⟩, -⟩ :=
    statement_and_action_make_alike engine .builtins hitems hplain hstating hruling hconditions
  · exact ⟨type, fields, params, hstore, hfires⟩
  · rw [hfails] at hloads
    cases hloads

end ProductionSystem
