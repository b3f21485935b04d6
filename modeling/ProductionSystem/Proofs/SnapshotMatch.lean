import ProductionSystem.Proofs.FirstMatch
import ProductionSystem.Proofs.MemoryRefinement

/-!
Matching a rule against a snapshot. The facts that a snapshot lists under a type are of that type, also
when memory has changed since, so the type test of a condition never fails; what decides is the choice
of positions in the lists. The match found is the first choice, in lexicographic order, of facts that are
not retracted, have different ids and pass all tests under one assignment.
-/

namespace ProductionSystem

/-- Do the picks match a rule under an assignment? They are live facts of the snapshot, one from the list
of the type of each condition; none is retracted now, no two have one id, and every test holds. -/
structure Rule.MatchedBy (rule : Rule) (store : Store) (snapshot : Snapshot) (assignment : Assignment)
    (picks : List Pick) : Prop where
  listed : List.Forall₂ (fun condition pick =>
    (snapshot.get condition.type)[pick.position]? = some pick.candidate.ref ∧
      store.fact? pick.candidate.ref = some pick.candidate.fact) rule.conditions picks
  unretracted : ∀ pick ∈ picks, pick.candidate.fact.retracted = false
  distinct : picks.Pairwise fun a b => a.candidate.fact.id ≠ b.candidate.fact.id
  passed : List.Forall₂ (fun condition pick =>
    ∀ test ∈ condition.tests, test.2.Holds assignment (pick.candidate.fact.get test.1)) rule.conditions picks

/-- Does a snapshot list known facts, each under its own type? -/
def Snapshot.Typed (snapshot : Snapshot) (store : Store) : Prop :=
  ∀ type, ∀ ref ∈ snapshot.get type, ∃ fact, store.fact? ref = some fact ∧ fact.type = type

namespace Store

/-- Known facts are candidates at the positions at which they are listed. -/
theorem getElem?_candidates {store : Store} {refs : List FactRef}
    (hknown : ∀ ref ∈ refs, ∃ fact, store.fact? ref = some fact) (position : Nat) (candidate : Candidate) :
    (store.candidates refs)[position]? = some candidate ↔
      refs[position]? = some candidate.ref ∧ store.fact? candidate.ref = some candidate.fact := by
  induction refs generalizing position with
  | nil => simp [candidates]
  | cons ref refs ih =>
      rw [List.forall_mem_cons] at hknown
      obtain ⟨⟨fact, hfact⟩, hrest⟩ := hknown
      have hcons : store.candidates (ref :: refs) = ⟨ref, fact⟩ :: store.candidates refs := by
        simp only [candidates, List.filterMap_cons, hfact, Option.map_some]
      rw [hcons]
      cases position with
      | zero =>
          rw [List.getElem?_cons_zero, List.getElem?_cons_zero, Option.some.injEq, Option.some.injEq]
          constructor
          · rintro rfl
            exact ⟨rfl, hfact⟩
          · rintro ⟨rfl, hsame⟩
            rw [hfact, Option.some.injEq] at hsame
            rw [hsame]
      | succ position => exact ih hrest position

end Store

/-- In a snapshot that is typed, the answers to the conditions are the matches of the rule. -/
theorem Rule.answers_iff_matchedBy {rule : Rule} {store : Store} {snapshot : Snapshot}
    (htyped : snapshot.Typed store) (assignment : Assignment) (picks : List Pick) :
    Goal.Answers [] assignment (rule.goals (store.view snapshot)) picks ↔
      rule.MatchedBy store snapshot assignment picks := by
  have hlisted (condition : Condition) (pick : Pick) :
      (store.view snapshot condition.type)[pick.position]? = some pick.candidate ↔
        (snapshot.get condition.type)[pick.position]? = some pick.candidate.ref ∧
          store.fact? pick.candidate.ref = some pick.candidate.fact :=
    Store.getElem?_candidates (fun ref href => (htyped condition.type ref href).imp fun _ h => h.1) _ _
  constructor
  · rintro ⟨hoffered, hunretracted, hdistinct, -, hfulfilled⟩
    rw [Rule.goals, List.forall₂_map_left_iff] at hoffered hfulfilled
    exact ⟨hoffered.imp fun condition pick h => (hlisted condition pick).1 h, hunretracted, hdistinct,
      hfulfilled.imp fun _ _ h => h.2⟩
  · rintro ⟨htaken, hunretracted, hdistinct, hpassed⟩
    refine ⟨?_, hunretracted, hdistinct, fun taken htaken => (List.not_mem_nil htaken).elim, ?_⟩
    · rw [Rule.goals, List.forall₂_map_left_iff]
      exact htaken.imp fun condition pick h => (hlisted condition pick).2 h
    · rw [Rule.goals, List.forall₂_map_left_iff]
      refine htaken.mp (fun condition pick h htests => ⟨?_, htests⟩) hpassed
      obtain ⟨fact, hfact, htype⟩ := htyped condition.type _ (List.mem_of_getElem? h.1)
      rw [h.2, Option.some.injEq] at hfact
      rw [hfact, htype]

/-- A snapshot taken in a history is typed, whatever is done to memory afterwards. -/
theorem Session.typed_snapshot (before after : List Operation) :
    Snapshot.Typed (({} : Session).run before).2.store.snapshot
      (({} : Session).run (before ++ after)).2.store := by
  intro type ref href
  have htaken := (SessionRepresents.empty.run before).2.store
  have hnow := (SessionRepresents.empty.run (before ++ after)).2.store
  have hkept := FlatMemory.keepsIdentity_run (({} : FlatMemory).run before).2 after
  rw [← FlatMemory.run_append] at hkept
  have hlive : ref ∈ (({} : FlatMemory).run before).2.get type := htaken.live type ▸ href
  obtain ⟨-, htype⟩ := List.mem_filter.1 hlive
  obtain ⟨fact, hfact, hsame⟩ := (Option.any_eq_true _ _).1 htype
  obtain ⟨kept, hstays, -, hkind⟩ := hkept ref.index fact hfact
  refine ⟨kept, (hnow.fact?_eq ref).trans hstays, ?_⟩
  rw [hkind, of_decide_eq_true hsame]

theorem Condition.mem_variableNames_of_mem_tests {condition : Condition} {field name : String}
    (htest : (field, Pattern.variable name) ∈ condition.tests) : name ∈ condition.variableNames :=
  List.mem_filterMap.2 ⟨_, htest, rfl⟩

/-- A variable that a test names is bound to the value of the field, in each condition. -/
theorem Rule.MatchedBy.get?_eq {rule : Rule} {store : Store} {snapshot : Snapshot} {bindings : Bindings}
    {assignment : Assignment} {picks : List Pick}
    (hmatched : rule.MatchedBy store snapshot assignment picks) (hagrees : bindings.AgreesWith assignment)
    (hbound : ∀ name, bindings.contains name = true ↔ name ∈ rule.variableNames) :
    List.Forall₂ (fun condition pick => ∀ field name, (field, Pattern.variable name) ∈ condition.tests →
      bindings.get? name = some (pick.candidate.fact.get field)) rule.conditions picks := by
  have hnamed : ∀ condition ∈ rule.conditions, ∀ field name,
      (field, Pattern.variable name) ∈ condition.tests → bindings.contains name = true := by
    intro condition hcondition field name htest
    rw [hbound, Rule.variableNames, List.mem_eraseDups, List.mem_flatMap]
    exact ⟨condition, hcondition, Condition.mem_variableNames_of_mem_tests htest⟩
  rw [List.forall₂_iff_get]
  obtain ⟨hlength, hpassed⟩ := List.forall₂_iff_get.1 hmatched.passed
  refine ⟨hlength, fun position hposition hpick field name htest => ?_⟩
  have hbinds := hnamed _ (List.get_mem rule.conditions ⟨position, hposition⟩) field name htest
  rw [Bindings.get?_of_contains hagrees hbinds]
  exact congrArg some (hpassed position hposition hpick _ htest)

/-- **The matcher finds the first match.** Take any snapshot of working memory, memory as it is at any later
moment, and any rule. If no choice of positions in the lists of the snapshot matches the rule under any
assignment, none is found; else the one found is the first in the lexicographic order of the positions,
condition by condition. Exactly the variables of the rule are bound, each to the value of every field that
it tests. -/
theorem match?_finds_first_choice (before after : List Operation) (source : RuleInstance) :
    let snapshot := (({} : Session).run before).2.store.snapshot
    let store := (({} : Session).run (before ++ after)).2.store
    match source.match? none (store.view snapshot) with
    | none => ¬∃ picks assignment, source.rule.MatchedBy store snapshot assignment picks
    | some found =>
      found.source = source ∧ ∃ picks,
        (∃ assignment, source.rule.MatchedBy store snapshot assignment picks) ∧
        (∀ others assignment, source.rule.MatchedBy store snapshot assignment others →
          picks.map (·.position) ≤ others.map (·.position)) ∧
        found.facts = picks.map (·.candidate.ref) ∧
        (∀ name, found.bindings.contains name = true ↔ name ∈ source.rule.variableNames) ∧
        List.Forall₂ (fun condition pick => ∀ field name,
            (field, Pattern.variable name) ∈ condition.tests →
              found.bindings.get? name = some (pick.candidate.fact.get field))
          source.rule.conditions picks := by
  intro snapshot store
  have hanswers : ∀ assignment picks, Goal.Answers [] assignment (source.rule.goals (store.view snapshot)) picks ↔
      source.rule.MatchedBy store snapshot assignment picks :=
    Rule.answers_iff_matchedBy (Session.typed_snapshot before after)
  rw [RuleInstance.match?_none]
  cases hsolve : Goal.solve (source.rule.goals (store.view snapshot)) [] Dictionary.empty with
  | none =>
      rintro ⟨picks, assignment, hmatched⟩
      have hsome := Goal.isSome_solve_of_answers (Bindings.agreesWith_empty assignment)
        ((hanswers assignment picks).2 hmatched)
      rw [hsolve] at hsome
      cases hsome
  | some finding =>
      obtain ⟨picks, hagrees, hfacts, hbound, hleast⟩ := Goal.exists_answer_of_solve_eq_some hsolve
      have hfound := finding.bindings.agreesWith_toAssignment
      have hmatched := (hanswers _ picks).1 ((hagrees _).1 hfound).2
      have hvariables : ∀ name, finding.bindings.contains name = true ↔ name ∈ source.rule.variableNames := by
        intro name
        rw [hbound, Rule.mem_variableNames_iff (store.view snapshot)]
        simp [Dictionary.contains]
      refine ⟨rfl, picks, ⟨_, hmatched⟩, fun others assignment hothers => ?_, hfacts, hvariables, ?_⟩
      · exact hleast assignment others (Bindings.agreesWith_empty assignment)
          ((hanswers assignment others).2 hothers)
      · exact hmatched.get?_eq hfound hvariables

end ProductionSystem
