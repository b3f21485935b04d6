import ProductionSystem.Proofs.FirstMatch
import ProductionSystem.Proofs.MakeSpellings
import ProductionSystem.Proofs.MemoryRefinement

/-!
A fact and a condition in the same words. The loader reads the words of a statement as values and those of a condition
as tests, so that null is the absent value in the one and the test for it in the other, and a string with the mark
of a variable is text in the one and the variable in the other. Yet every value passes the test in its place if the
variables stand for their own names, wherever and however often they stand; so the fact fulfils the condition.
-/

namespace ProductionSystem

namespace Json

/-- Fields as a statement and a condition have them: names and documents in turn. -/
def spelled (entries : List (String × Json)) : List Json := entries.flatMap fun entry => [.str entry.1, entry.2]

theorem names_of_areFields_spelled {α : Type} {IsEntry : Json → α → Prop} {entries : List (String × Json)}
    {fields : List (String × α)} (h : AreFields IsEntry (spelled entries) fields) :
    fields.map Prod.fst = entries.map Prod.fst := by
  induction entries generalizing fields with
  | nil =>
      cases h
      rfl
  | cons entry entries ih =>
      cases h with
      | cons _ hrest => exact congrArg (entry.1 :: ·) (ih hrest)

/-- What reads as a value reads as a test, and the value passes it if variables stand for their names. -/
theorem IsValue.exists_isPattern {json : Json} {value : Value} (h : json.IsValue value) :
    ∃ pattern, json.IsPattern pattern ∧ pattern.Holds Value.str value := by
  by_cases hnull : json = .null
  · subst hnull
    cases h
    exact ⟨.absent, .absent, rfl⟩
  · by_cases hname : ∃ text, json = .str text ∧ isVariableName text = true
    · obtain ⟨text, rfl, hname⟩ := hname
      cases h
      exact ⟨.variable text, .term hnull (.ofName hname), rfl⟩
    · refine ⟨.literal value, .term hnull (.ofValue (fun text htext => ?_) h), rfl⟩
      rw [Bool.eq_false_iff]
      exact fun hvariable => hname ⟨text, htext, hvariable⟩

/-- The words of a fact are the words of a condition, each of whose tests is passed by the field in its place. -/
theorem AreFields.exists_tests {items : List Json} {fields : List (String × Value)}
    (h : AreFields IsValue items fields) :
    ∃ tests, AreFields IsPattern items tests ∧
      ∀ test ∈ tests, ∃ field ∈ fields, field.1 = test.1 ∧ test.2.Holds Value.str field.2 := by
  induction h with
  | nil => exact ⟨[], .nil, List.forall_mem_nil _⟩
  | @cons name _ value _ fields hvalue _ ih =>
      obtain ⟨pattern, hpattern, hholds⟩ := hvalue.exists_isPattern
      obtain ⟨tests, htests, hpassed⟩ := ih
      refine ⟨(name, pattern) :: tests, .cons hpattern htests, List.forall_mem_cons.2 ⟨?_, fun test htest => ?_⟩⟩
      · exact ⟨(name, value), List.mem_cons_self, rfl, hholds⟩
      · obtain ⟨field, hfield, hpasses⟩ := hpassed test htest
        exact ⟨field, List.mem_cons_of_mem _ hfield, hpasses⟩

/-- The test of a field is passed by a fact that was made with the value in its place, if no other value was given. -/
theorem AreFields.exists_condition {items : List Json} {template : Template} {fields : List (String × Value)}
    (h : AreFields IsValue items fields) (hdistinct : (fields.map Prod.fst).Nodup)
    (hknown : ∀ field ∈ fields, field.1 ∈ template.fieldNames) :
    ∃ condition, (arr (.str template.type :: items)).IsCondition condition ∧ condition.type = template.type ∧
      ∀ id, condition.Holds Value.str { id, type := template.type, fields := template.fieldsWith fields } := by
  obtain ⟨tests, htests, hpassed⟩ := h.exists_tests
  refine ⟨⟨template.type, tests⟩, .mk htests, rfl, fun id => ⟨rfl, fun test htest => ?_⟩⟩
  obtain ⟨field, hfield, hname, hpasses⟩ := hpassed test htest
  have hvalue := Template.get?_fieldsWith hdistinct hfield (hknown field hfield)
  rwa [Fact.get, ← hname, hvalue, Option.getD_some]

end Json

/-- A statement that loads gives fields of a declared type their values, and the fact is the only thing new in memory. -/
theorem Engine.exists_template_of_loadDocument {engine : Engine} {registry : Registry} {type : String}
    {items : List Json} {file : Json} {name : Option String} {summary : LoadSummary}
    (hdocument : Document.ofJson file = .ok ⟨name, some [.arr (.str "make" :: .str type :: items)]⟩)
    (hloads : (engine.loadDocument registry file).1 = .ok summary) :
    ∃ template fields, engine.store.template? type = some template ∧ Json.AreFields Json.IsValue items fields ∧
      (∀ field ∈ fields, field.1 ∈ template.fieldNames) ∧
      (engine.loadDocument registry file).2.store =
        engine.store.gaining template.type (template.fieldsWith fields) := by
  obtain ⟨statement, hmeans, hfits, hloaded⟩ | ⟨kind, e, -, hrefused⟩ := engine.loadDocument_single registry hdocument
  · obtain ⟨_, fields, hitems, rfl⟩ := (Json.isStatement_make_iff (List.cons_ne_nil _ _)).1 hmeans
    obtain ⟨htype, hvalues⟩ := List.forall₂_cons.1 hitems
    cases htype
    obtain ⟨names, hschema, hknown⟩ := hfits
    obtain ⟨template, htemplate, rfl⟩ := Option.map_eq_some_iff.1 hschema
    refine ⟨template, fields, htemplate, Json.areFields_iff.2 hvalues, hknown, ?_⟩
    rw [hloaded, store_taking]
    exact congrArg Prod.snd (Store.make_of_fields htemplate hknown)
  · rw [hrefused] at hloads
    cases hloads

/-- **A condition that is spelled like a fact matches the fact.** Let an engine, whatever was done to its memory before,
load a statement that gives different fields of a fact any values. The fact that it adds fulfils the condition in
the same words under empty bindings: any rule with this condition and with actions is loaded by every engine, and
matches wherever the fact is live and as it was made, as after a drain. -/
theorem fact_matches_condition_spelled_alike {engine : Engine} {operations : List Operation}
    (hhistory : engine.store = (({} : Session).run operations).2.store) {registry : Registry} {type : String}
    {entries : List (String × Json)} (hdistinct : (entries.map Prod.fst).Nodup) {file : Json} {name : Option String}
    (hdocument : Document.ofJson file = .ok ⟨name, some [.arr (.str "make" :: .str type :: Json.spelled entries)]⟩)
    {summary : LoadSummary} (hloads : (engine.loadDocument registry file).1 = .ok summary) :
    let loaded := (engine.loadDocument registry file).2
    let spelling := Json.arr (.str type :: Json.spelled entries)
    ∃ ref fact condition,
      loaded.store.pending = engine.store.pending ++ [ref] ∧ loaded.store.fact? ref = some fact ∧
      spelling.IsCondition condition ∧ (condition.unify fact Dictionary.empty).isSome = true ∧
      (∀ (other : Engine) (commands : Registry) (ruleFile : Json) (fileName : Option String) (ruleName : String)
        (actionItems rest : List Json) (actions : List Action),
        Document.ofJson ruleFile = .ok ⟨fileName, some [.arr (.str "p" :: .str ruleName :: .arr [spelling] ::
          .arr actionItems :: rest)]⟩ →
        List.Forall₂ (Json.IsAction commands) actionItems actions →
        ∃ summary, other.loadDocument commands ruleFile =
          (.ok summary, other.addRules [{ name := ruleName, conditions := [condition], actions }])) ∧
      (ref ∈ loaded.store.drain.get type ∧ loaded.store.drain.fact? ref = some fact) ∧
      ∀ (source : RuleInstance) (store : Store), source.rule.conditions = [condition] → ref ∈ store.get type →
        store.fact? ref = some fact → (source.match? none (store.view store.snapshot)).isSome = true := by
  intro loaded spelling
  obtain ⟨template, fields, htemplate, hfields, hknown, hstore⟩ :=
    Engine.exists_template_of_loadDocument hdocument hloads
  -- a template is known under its own type, so the fact is of the type that the condition names
  obtain rfl : template.type = type := Session.type_of_template? operations (hhistory ▸ htemplate)
  obtain ⟨condition, hcondition, htype, hholds⟩ :=
    hfields.exists_condition (Json.names_of_areFields_spelled hfields ▸ hdistinct) hknown
  let ref : FactRef := ⟨engine.store.facts.size⟩
  let fact : Fact := { id := ⟨engine.store.nextId⟩, type := template.type, fields := template.fieldsWith fields }
  have hfact : loaded.store.fact? ref = some fact := hstore ▸ Store.fact?_gaining ..
  have hpending : loaded.store.pending = engine.store.pending ++ [ref] := hstore ▸ rfl
  have hunify := Condition.isSome_unify_of_holds (Bindings.agreesWith_empty Value.str) (hholds fact.id)
  refine ⟨ref, fact, condition, hpending, hfact, hcondition, hunify, ?_, ⟨?_, hfact⟩, ?_⟩
  · intro other commands ruleFile fileName ruleName actionItems rest actions hrule hactions
    exact Engine.loadDocument_rule hrule other (.cons hcondition .nil) hactions
  · exact Store.mem_get_drain (hpending ▸ List.mem_append_right _ List.mem_cons_self) hfact
  · intro source store hasks hlive hstays
    refine (RuleInstance.isSome_match?_iff_of_condition hasks).2 ⟨⟨ref, fact⟩, ?_, rfl, _, hholds fact.id⟩
    exact Store.mem_candidates_iff.2 ⟨htype ▸ hlive, hstays⟩

/-- A part whose label and owner are one text that could be a variable, and whose pieces nest another. -/
def markedPart : List (String × Json) :=
  [("label", .str "$x"), ("note", .null), ("size", .int 3), ("weight", .float 0x3FF8000000000000),
    ("pieces", .arr [.null, .arr [.str "$x", .float 0x3FF8000000000000]]), ("owner", .str "$x")]

/-- Once the part is live, the rule that asks for a part in the same words matches. -/
theorem fact_matches_condition_spelled_alike_part :
    let template : Template := ⟨"part", markedPart.map fun entry => (entry.1, .nil)⟩
    let engine := (Engine.new .sequential).register template
    let stating : List Json := [.arr (.str "make" :: .str "part" :: Json.spelled markedPart)]
    let ruling : List Json := [.arr [.str "p", .str "find", .arr [.arr (.str "part" :: Json.spelled markedPart)], .arr []]]
    let loaded := (engine.loadDocument .builtins (.obj [("ops", .arr stating)])).2
    let ruled := (loaded.loadDocument .builtins (.obj [("ops", .arr ruling)])).2
    engine.store = (({} : Session).run [.register template]).2.store ∧ (markedPart.map Prod.fst).Nodup ∧
      Document.ofJson (.obj [("ops", .arr stating)]) = .ok ⟨none, some stating⟩ ∧
      (∃ summary, (engine.loadDocument .builtins (.obj [("ops", .arr stating)])).1 = .ok summary) ∧
      ∃ source ∈ ruled.rules, source.rule.name = "find" ∧
        (source.match? none (ruled.store.drain.view ruled.store.drain.snapshot)).isSome = true := by
  intro template engine stating ruling loaded ruled
  have hhistory : engine.store = (({} : Session).run [.register template]).2.store := rfl
  have hdistinct : (markedPart.map Prod.fst).Nodup := by decide
  have hstating : Document.ofJson (.obj [("ops", .arr stating)]) = .ok ⟨none, some stating⟩ := rfl
  have hruling : Document.ofJson (.obj [("ops", .arr ruling)]) = .ok ⟨none, some ruling⟩ := rfl
  have hloads : (engine.loadDocument .builtins (.obj [("ops", .arr stating)])).1 = .ok { facts := 1 } := rfl
  refine ⟨hhistory, hdistinct, hstating, ⟨_, hloads⟩, ?_⟩
  obtain ⟨ref, fact, condition, -, -, -, -, hrule, ⟨hlive, hfact⟩, hmatches⟩ :=
    fact_matches_condition_spelled_alike hhistory hdistinct hstating hloads
  obtain ⟨summary, hruled⟩ := hrule loaded .builtins _ none "find" [] [] [] hruling .nil
  have hafter : ruled = loaded.addRules [{ name := "find", conditions := [condition], actions := [] }] :=
    congrArg Prod.snd hruled
  have hstore : ruled.store = loaded.store := by rw [hafter, Engine.store_addRules]
  refine ⟨_, hafter ▸ loaded.mem_rules_addRules _, rfl, ?_⟩
  rw [hstore]
  exact hmatches _ _ rfl hlive hfact

end ProductionSystem
