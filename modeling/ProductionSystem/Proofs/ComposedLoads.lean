import ProductionSystem.Proofs.FailedLoads
import ProductionSystem.Proofs.RuleOrder

/-!
Loading in parts. A document may be cut between any two of its statements: loading the part before the cut and then
the part behind it comes to what loading the whole comes to. Declarations and facts are taken in one after the other
anyway; the rules are added and sorted twice instead of once, which puts them in the same places.
-/

namespace ProductionSystem

theorem Statement.allFit_append_iff {store : Store} {statements later : List Statement} :
    AllFit store.schema (statements ++ later) ↔
      AllFit store.schema statements ∧ AllFit (statements.foldl Store.takeIn store).schema later := by
  induction statements generalizing store with
  | nil => exact (iff_of_eq (true_and _)).symm
  | cons statement statements ih =>
      rw [List.cons_append, AllFit, AllFit, ← Store.schema_takeIn, ih, and_assoc, List.foldl_cons]

theorem Json.exists_of_forall₂_append {registry : Registry} {items later : List Json} {all : List Statement}
    (h : List.Forall₂ (Json.IsStatement registry) (items ++ later) all) :
    ∃ statements rest, List.Forall₂ (Json.IsStatement registry) items statements ∧
      List.Forall₂ (Json.IsStatement registry) later rest ∧ all = statements ++ rest := by
  have htake := List.forall₂_take items.length h
  have hdrop := List.forall₂_drop items.length h
  rw [List.take_left] at htake
  rw [List.drop_left] at hdrop
  exact ⟨_, _, htake, hdrop, (List.take_append_drop _ _).symm⟩

/-- What is taken in of a document in two parts, if the first is taken in as a whole. -/
theorem Document.stopsAfter_append_iff {registry : Registry} {store : Store} {items later : List Json}
    {taken : List Statement} {kind : ErrorKind} :
    StopsAfter registry store (items ++ later) taken kind ↔
      StopsAfter registry store items taken kind ∨
        ∃ statements rest, taken = statements ++ rest ∧
          List.Forall₂ (Json.IsStatement registry) items statements ∧ Statement.AllFit store.schema statements ∧
          StopsAfter registry (statements.foldl Store.takeIn store) later rest kind := by
  induction items generalizing store taken with
  | nil =>
      rw [List.nil_append]
      constructor
      · exact fun h => .inr ⟨[], taken, rfl, .nil, trivial, h⟩
      · rintro (h | ⟨statements, rest, rfl, hstatements, -, h⟩)
        · exact absurd h not_stopsAfter_nil
        · cases hstatements
          exact h
  | cons json items ih =>
      rw [List.cons_append]
      cases taken with
      | nil =>
          rw [stopsAfter_cons_nil_iff, stopsAfter_cons_nil_iff]
          refine ⟨.inl, ?_⟩
          rintro (h | ⟨statements, rest, htaken, hstatements, -⟩)
          · exact h
          · obtain ⟨rfl, -⟩ := List.append_eq_nil_iff.1 htaken.symm
            cases hstatements
      | cons statement taken =>
          rw [stopsAfter_cons_cons_iff, stopsAfter_cons_cons_iff, ih]
          constructor
          · rintro ⟨hstatement, hfits, h | ⟨statements, rest, rfl, hstatements, hfit, h⟩⟩
            · exact .inl ⟨hstatement, hfits, h⟩
            · rw [Store.schema_takeIn] at hfit
              exact .inr ⟨statement :: statements, rest, rfl, .cons hstatement hstatements, ⟨hfits, hfit⟩, h⟩
          · rintro (⟨hstatement, hfits, h⟩ | ⟨statements, rest, htaken, hstatements, hfit, h⟩)
            · exact ⟨hstatement, hfits, .inl h⟩
            · cases hstatements with
              | cons hstatement hstatements =>
                  obtain ⟨rfl, rfl⟩ := List.cons.inj htaken
                  rw [Statement.AllFit, ← Store.schema_takeIn] at hfit
                  exact ⟨hstatement, hfit.1, .inr ⟨_, rest, rfl, hstatements, hfit.2, h⟩⟩

namespace LoadSummary

/-- The counts of two parts of a document together. -/
def total (name : Option String) (first second : LoadSummary) : LoadSummary where
  name
  templates := first.templates + second.templates
  facts := first.facts + second.facts
  rules := first.rules + second.rules
  skipped := first.skipped + second.skipped

theorem of_append (name first second : Option String) (statements later : List Statement) :
    of name (statements ++ later) = total name (of first statements) (of second later) := by
  simp only [of, total, List.countP_append, List.filterMap_append, List.length_append]

end LoadSummary

namespace Engine

variable {engine : Engine} {registry : Registry} {json : Json} {name : Option String} {items : List Json}

/-- The engine after statements are taken in and their rules are added. -/
def taking (engine : Engine) (statements : List Statement) : Engine :=
  (engine.withStore (statements.foldl Store.takeIn engine.store)).addRules (statements.filterMap Statement.rule?)

theorem store_taking (engine : Engine) (statements : List Statement) :
    (engine.taking statements).store = statements.foldl Store.takeIn engine.store := store_addRules _ _

/-- Statements that are taken in in two parts come to what they come to at once. -/
theorem taking_append (engine : Engine) (statements later : List Statement) :
    engine.taking (statements ++ later) = (engine.taking statements).taking later := by
  have hstore := engine.store_taking statements
  unfold taking at hstore ⊢
  rw [hstore, ← addRules_withStore, List.filterMap_append, addRules_append, List.foldl_append]
  rfl

theorem loadDocument_eq_taking (hdocument : Document.ofJson json = .ok ⟨name, some items⟩)
    {statements : List Statement} (hstatements : List.Forall₂ (Json.IsStatement registry) items statements)
    (hfit : Statement.AllFit engine.store.schema statements) :
    engine.loadDocument registry json = (.ok (LoadSummary.of name statements), engine.taking statements) := by
  refine loadDocument_eq_ok_iff.2 ⟨name, items, _, hdocument, ?_, finish_taking engine name statements⟩
  exact Loading.steps_eq_ok_iff.2 ⟨statements, hstatements, hfit, rfl⟩

theorem exists_statements_of_loadDocument (hdocument : Document.ofJson json = .ok ⟨name, some items⟩)
    {summary : LoadSummary} (h : (engine.loadDocument registry json).1 = .ok summary) :
    ∃ statements, List.Forall₂ (Json.IsStatement registry) items statements ∧
      Statement.AllFit engine.store.schema statements := by
  have hloaded : engine.loadDocument registry json = (.ok summary, (engine.loadDocument registry json).2) :=
    Prod.ext h rfl
  obtain ⟨name', items', loading, hdocument', hsteps, -⟩ := loadDocument_eq_ok_iff.1 hloaded
  obtain ⟨-, hitems⟩ := Document.mk.inj (Except.ok.inj (hdocument'.symm.trans hdocument))
  obtain rfl := Option.some.inj hitems
  obtain ⟨statements, hstatements, hfit, -⟩ := Loading.steps_eq_ok_iff.1 hsteps
  exact ⟨statements, hstatements, hfit⟩

section Parts

variable {whole first second : Json} {name name₁ name₂ : Option String} {items later : List Json}
  (hwhole : Document.ofJson whole = .ok ⟨name, some (items ++ later)⟩)
  (hfirst : Document.ofJson first = .ok ⟨name₁, some items⟩)
  (hsecond : Document.ofJson second = .ok ⟨name₂, some later⟩)

include hwhole hfirst hsecond

/-- A document that loads at once loads in its two parts. -/
theorem loads_in_parts {summary : LoadSummary} (h : (engine.loadDocument registry whole).1 = .ok summary) :
    let one := engine.loadDocument registry first
    let two := one.2.loadDocument registry second
    (engine.loadDocument registry whole).2 = two.2 ∧ ∃ summary₁ summary₂, one.1 = .ok summary₁ ∧
      two.1 = .ok summary₂ ∧ summary = LoadSummary.total name summary₁ summary₂ := by
  intro one two
  obtain ⟨all, hall, hfit⟩ := exists_statements_of_loadDocument hwhole h
  have hjoint := loadDocument_eq_taking hwhole hall hfit
  obtain ⟨statements, rest, hstatements, hrest, rfl⟩ := Json.exists_of_forall₂_append hall
  obtain ⟨hfit, hlater⟩ := Statement.allFit_append_iff.1 hfit
  have hone : one = (.ok (LoadSummary.of name₁ statements), engine.taking statements) :=
    loadDocument_eq_taking hfirst hstatements hfit
  rw [← store_taking] at hlater
  have htwo : two = (.ok (LoadSummary.of name₂ rest), (engine.taking statements).taking rest) := by
    simp only [two, hone]
    exact loadDocument_eq_taking hsecond hrest hlater
  have hsummary := Except.ok.inj ((congrArg Prod.fst hjoint).symm.trans h)
  rw [LoadSummary.of_append name name₁ name₂] at hsummary
  refine ⟨?_, _, _, congrArg Prod.fst hone, congrArg Prod.fst htwo, hsummary.symm⟩
  rw [hjoint, htwo, taking_append]

/-- A document that fails at once fails in one of its two parts. -/
theorem fails_in_parts {e : Error} (h : (engine.loadDocument registry whole).1 = .error e) :
    let joint := engine.loadDocument registry whole
    let one := engine.loadDocument registry first
    let two := one.2.loadDocument registry second
    let failing (kind : ErrorKind) (place : Nat) : Except Error LoadSummary :=
      .error ⟨kind, some { stack := ["statement " ++ toString place] }⟩
    ∃ kind place, joint.1 = failing kind place ∧
      (place < items.length ∧ one.1 = failing kind place ∧ joint.2 = one.2 ∨
        items.length ≤ place ∧ (∃ summary, one.1 = .ok summary) ∧ two.1 = failing kind (place - items.length) ∧
          joint.2.store = two.2.store) := by
  intro joint one two failing
  have hjoint : joint = (.error e, joint.2) := Prod.ext h rfl
  obtain ⟨taken, kind, hstops, rfl, hafter⟩ := (loadDocument_eq_error_iff hwhole).1 hjoint
  refine ⟨kind, taken.length, h, ?_⟩
  rcases Document.stopsAfter_append_iff.1 hstops with hstops | ⟨statements, rest, rfl, hstatements, hfit, hstops⟩
  · obtain ⟨json, hjson, -⟩ := hstops.refused
    have hone := (loadDocument_eq_error_iff hfirst).2 ⟨taken, kind, hstops, rfl, hafter⟩
    exact .inl ⟨(List.getElem?_eq_some_iff.1 hjson).1, congrArg Prod.fst hone, (congrArg Prod.snd hone).symm⟩
  · have hone : one = (.ok (LoadSummary.of name₁ statements), engine.taking statements) :=
      loadDocument_eq_taking hfirst hstatements hfit
    rw [← store_taking] at hstops
    have htwo : two = (failing kind rest.length, (engine.taking statements).withStore
        ((rest.foldl Store.takeIn (engine.taking statements).store).refusing kind)) := by
      simp only [two, hone]
      exact (loadDocument_eq_error_iff hsecond).2 ⟨rest, kind, hstops, rfl, rfl⟩
    have hlength : (statements ++ rest).length = items.length + rest.length := by
      rw [List.length_append, hstatements.length_eq]
    refine .inr ⟨by omega, ⟨_, congrArg Prod.fst hone⟩, ?_, ?_⟩
    · rw [htwo, hlength, Nat.add_sub_cancel_left]
    · rw [← hafter, htwo, List.foldl_append, store_taking]
      rfl

end Parts

end Engine

/-- **Loading is compositional.** Let the statements of a document be those of two others, one after the other. Then
the document loads exactly if the first one loads and after that the second one; the engine is the same then, with
all its types, waiting facts and rules, and the counts of the summaries add up. If the document fails, the error
tells the place of a statement. Either the statement belongs to the first document, which fails with the same error;
or the first one loads, and the second one fails for the same reason, at the place counted from its own beginning,
which leaves working memory the same. -/
theorem loading_composes (engine : Engine) (registry : Registry) {whole first second : Json}
    {name name₁ name₂ : Option String} {items later : List Json}
    (hwhole : Document.ofJson whole = .ok ⟨name, some (items ++ later)⟩)
    (hfirst : Document.ofJson first = .ok ⟨name₁, some items⟩)
    (hsecond : Document.ofJson second = .ok ⟨name₂, some later⟩) :
    let joint := engine.loadDocument registry whole
    let one := engine.loadDocument registry first
    let two := one.2.loadDocument registry second
    let failing (kind : ErrorKind) (place : Nat) : Except Error LoadSummary :=
      .error ⟨kind, some { stack := ["statement " ++ toString place] }⟩
    ((∃ summary, joint.1 = .ok summary) ↔ (∃ summary, one.1 = .ok summary) ∧ ∃ summary, two.1 = .ok summary) ∧
      (∀ summary, joint.1 = .ok summary → joint.2 = two.2 ∧
        ∃ summary₁ summary₂, one.1 = .ok summary₁ ∧ two.1 = .ok summary₂ ∧
          summary = LoadSummary.total name summary₁ summary₂) ∧
      ∀ e, joint.1 = .error e → ∃ kind place, joint.1 = failing kind place ∧
        (place < items.length ∧ one.1 = failing kind place ∧ joint.2 = one.2 ∨
          items.length ≤ place ∧ (∃ summary, one.1 = .ok summary) ∧ two.1 = failing kind (place - items.length) ∧
            joint.2.store = two.2.store) := by
  intro joint one two failing
  refine ⟨⟨?_, ?_⟩, fun summary h => Engine.loads_in_parts hwhole hfirst hsecond h,
    fun e h => Engine.fails_in_parts hwhole hfirst hsecond h⟩
  · rintro ⟨summary, h⟩
    obtain ⟨-, summary₁, summary₂, hone, htwo, -⟩ := Engine.loads_in_parts hwhole hfirst hsecond h
    exact ⟨⟨summary₁, hone⟩, summary₂, htwo⟩
  · rintro ⟨⟨summary₁, hone⟩, summary₂, htwo⟩
    cases h : joint.1 with
    | ok summary => exact ⟨summary, rfl⟩
    | error e =>
        obtain ⟨kind, place, -, ⟨-, hfailed, -⟩ | ⟨-, -, hfailed, -⟩⟩ :=
          Engine.fails_in_parts hwhole hfirst hsecond h
        · cases hone.symm.trans hfailed
        · cases htwo.symm.trans hfailed

/-- The declaration of goals, the rule for them and one goal, loaded at once and in two parts. -/
theorem loading_composes_coloredGoals :
    let document (items : List Json) : Json := .obj [("ops", .arr items)]
    let engine := Engine.new .sequential
    let joint := engine.loadDocument .builtins (document (coloredGoals.take 3))
    let one := engine.loadDocument .builtins (document (coloredGoals.take 1))
    let two := one.2.loadDocument .builtins (document ((coloredGoals.drop 1).take 2))
    (∀ items, Document.ofJson (document items) = .ok ⟨none, some items⟩) ∧
      joint.1 = .ok { templates := 1, facts := 1, rules := 1 } ∧ joint.2 = two.2 ∧ (∃ summary, two.1 = .ok summary) ∧
      two.2.rules.map (fun source => (source.serial, source.rule.name)) = [(0, "drop")] ∧
      two.2.store.pending = [⟨0⟩] := by
  intro document engine joint one two
  have hdocument (items : List Json) : Document.ofJson (document items) = .ok ⟨none, some items⟩ := rfl
  obtain ⟨-, hloads, -⟩ := loading_composes engine .builtins
    (hdocument (coloredGoals.take 1 ++ (coloredGoals.drop 1).take 2)) (hdocument _) (hdocument _)
  have hjoint : joint = _ := Engine.loadDocument_eq_taking (hdocument (coloredGoals.take 3))
    stopsAfter_coloredGoals.statements stopsAfter_coloredGoals.fit
  obtain ⟨hafter, -, summary, -, htwo, -⟩ := hloads _ (congrArg Prod.fst hjoint)
  have hafter : joint.2 = two.2 := hafter
  refine ⟨hdocument, congrArg Prod.fst hjoint, hafter, ⟨summary, htwo⟩, ?_⟩
  rw [← hafter, hjoint]
  exact ⟨rfl, rfl⟩

end ProductionSystem
