import Mathlib.Data.List.Forall2
import Mathlib.Data.List.Lex
import ProductionSystem.Proofs.Backtracking
import ProductionSystem.Proofs.Unification

/-!
The first match. A choice takes one candidate for each goal; it answers the goals if no fact taken is
retracted, all ids are different, and one assignment fulfils all conditions. The recursion finds the
answer whose positions come first in lexicographic order: a candidate before the one taken for the first
goal starts no answer, as the recursion went on from it in vain.
-/

namespace ProductionSystem

/-- A candidate taken for a goal, and its position among the candidates of the goal. -/
structure Pick where
  position : Nat
  candidate : Candidate

namespace Goal

/-- Is the pick a candidate of the goal, at its position? -/
def Offers (goal : Goal) (pick : Pick) : Prop := goal.candidates[pick.position]? = some pick.candidate

/-- Do picks, one for each goal, answer the goals after the facts committed to before? -/
structure Answers (committed : List Candidate) (assignment : Assignment) (goals : List Goal)
    (picks : List Pick) : Prop where
  offered : List.Forall₂ Offers goals picks
  unretracted : ∀ pick ∈ picks, pick.candidate.fact.retracted = false
  distinct : picks.Pairwise fun a b => a.candidate.fact.id ≠ b.candidate.fact.id
  apart : ∀ taken ∈ committed, ∀ pick ∈ picks, taken.fact.id ≠ pick.candidate.fact.id
  fulfilled : List.Forall₂ (fun goal pick => goal.condition.Holds assignment pick.candidate.fact) goals picks

theorem admits_eq_true_iff {committed : List Candidate} {candidate : Candidate} :
    admits committed candidate = true ↔
      candidate.fact.retracted = false ∧ ∀ taken ∈ committed, taken.fact.id ≠ candidate.fact.id := by
  simp [admits]

variable {committed : List Candidate} {assignment : Assignment} {goal : Goal} {goals : List Goal}

theorem answers_nil_iff {picks : List Pick} : Answers committed assignment [] picks ↔ picks = [] := by
  constructor
  · intro h
    exact List.forall₂_nil_left_iff.1 h.offered
  · rintro rfl
    exact ⟨.nil, by simp, .nil, by simp, .nil⟩

/-- An answer takes a fitting candidate for the first goal, and answers the others after it. -/
theorem answers_cons_iff {pick : Pick} {picks : List Pick} :
    Answers committed assignment (goal :: goals) (pick :: picks) ↔
      goal.Offers pick ∧ admits committed pick.candidate = true ∧
        goal.condition.Holds assignment pick.candidate.fact ∧
        Answers (committed ++ [pick.candidate]) assignment goals picks := by
  rw [admits_eq_true_iff]
  constructor
  · rintro ⟨hoffered, hunretracted, hdistinct, hapart, hfulfilled⟩
    rw [List.forall₂_cons] at hoffered hfulfilled
    rw [List.forall_mem_cons] at hunretracted
    rw [List.pairwise_cons] at hdistinct
    refine ⟨hoffered.1, ⟨hunretracted.1, fun taken htaken => hapart taken htaken pick List.mem_cons_self⟩,
      hfulfilled.1, hoffered.2, hunretracted.2, hdistinct.2, ?_, hfulfilled.2⟩
    intro taken htaken other hother
    rcases List.mem_append.1 htaken with htaken | htaken
    · exact hapart taken htaken other (List.mem_cons_of_mem _ hother)
    · rw [List.mem_singleton.1 htaken]
      exact hdistinct.1 other hother
  · rintro ⟨hoffers, ⟨hlive, hfresh⟩, hholds, hrest⟩
    refine ⟨.cons hoffers hrest.offered, List.forall_mem_cons.2 ⟨hlive, hrest.unretracted⟩,
      List.pairwise_cons.2 ⟨fun other hother => ?_, hrest.distinct⟩, ?_, .cons hholds hrest.fulfilled⟩
    · exact hrest.apart pick.candidate (List.mem_append_right _ List.mem_cons_self) other hother
    · intro taken htaken
      refine List.forall_mem_cons.2 ⟨hfresh taken htaken, fun other hother => ?_⟩
      exact hrest.apart taken (List.mem_append_left _ htaken) other hother

theorem exists_cons_of_answers {picks : List Pick}
    (h : Answers committed assignment (goal :: goals) picks) :
    ∃ pick rest, picks = pick :: rest := by
  obtain ⟨pick, rest, -, -, heq⟩ := List.forall₂_cons_left_iff.1 h.offered
  exact ⟨pick, rest, heq⟩

/-- A candidate fits if some agreeing assignment fulfils the condition with it. -/
theorem exists_fit_of_holds {condition : Condition} {bindings : Bindings} {candidate : Candidate}
    (hagrees : bindings.AgreesWith assignment) (hadmits : admits committed candidate = true)
    (hholds : condition.Holds assignment candidate.fact) :
    ∃ extended, fit condition committed bindings candidate = some extended ∧
      extended.AgreesWith assignment := by
  obtain ⟨extended, hunify⟩ :=
    Option.isSome_iff_exists.1 (Condition.isSome_unify_of_holds hagrees hholds)
  refine ⟨extended, by rw [fit, if_pos hadmits, hunify], ?_⟩
  exact (Condition.agreesWith_of_unify hunify assignment).2 ⟨hagrees, hholds⟩

theorem isSome_solve_of_answers {bindings : Bindings} {picks : List Pick}
    (hagrees : bindings.AgreesWith assignment) (h : Answers committed assignment goals picks) :
    (solve goals committed bindings).isSome = true := by
  induction goals generalizing committed bindings picks with
  | nil => rfl
  | cons goal goals ih =>
      obtain ⟨pick, rest, rfl⟩ := exists_cons_of_answers h
      obtain ⟨hoffers, hadmits, hholds, hrest⟩ := answers_cons_iff.1 h
      obtain ⟨extended, hfit, hextended⟩ := exists_fit_of_holds hagrees hadmits hholds
      rw [solve, List.findSome?_isSome_iff]
      refine ⟨pick.candidate, List.mem_of_getElem? hoffers, ?_⟩
      rw [hfit, Option.bind_some]
      exact ih hextended hrest

/-- What the recursion finds: an answer under every assignment that agrees with the bindings found,
which bind the variables of the goals, and no answer comes before it. -/
theorem exists_answer_of_solve_eq_some {bindings : Bindings} {finding : Finding}
    (h : solve goals committed bindings = some finding) :
    ∃ picks, (∀ assignment, finding.bindings.AgreesWith assignment ↔
        bindings.AgreesWith assignment ∧ Answers committed assignment goals picks) ∧
      finding.facts = committed.map (·.ref) ++ picks.map (·.candidate.ref) ∧
      (∀ name, finding.bindings.contains name = true ↔
        bindings.contains name = true ∨ ∃ goal ∈ goals, name ∈ goal.condition.variableNames) ∧
      ∀ assignment others, bindings.AgreesWith assignment → Answers committed assignment goals others →
        picks.map (·.position) ≤ others.map (·.position) := by
  induction goals generalizing committed bindings with
  | nil =>
      obtain rfl := Option.some.inj h
      refine ⟨[], fun assignment => ?_, by simp, by simp, fun assignment others _ hothers => ?_⟩
      · simp only [answers_nil_iff, and_true]
      · rw [answers_nil_iff.1 hothers]
  | cons goal goals ih =>
      rw [solve, List.findSome?_eq_some_iff] at h
      obtain ⟨passed, candidate, later, hsplit, hfound, hpassed⟩ := h
      obtain ⟨extended, hfit, hsolve⟩ := Option.bind_eq_some_iff.1 hfound
      obtain ⟨picks, hanswers, hfacts, hbound, hleast⟩ := ih hsolve
      have hadmits : admits committed candidate = true := by
        by_contra hadmits
        rw [fit, if_neg hadmits] at hfit
        cases hfit
      rw [fit, if_pos hadmits] at hfit
      have hat : goal.candidates[passed.length]? = some candidate := by
        rw [hsplit, List.getElem?_append_right (Nat.le_refl _), Nat.sub_self, List.getElem?_cons_zero]
      refine ⟨⟨passed.length, candidate⟩ :: picks, fun assignment => ?_, ?_, fun name => ?_, ?_⟩
      · rw [hanswers, Condition.agreesWith_of_unify hfit, answers_cons_iff, and_assoc]
        simp only [Offers, hat, hadmits, true_and]
      · rw [hfacts, List.map_append, List.append_assoc]
        rfl
      · rw [hbound, Condition.contains_of_unify hfit, or_assoc]
        simp only [List.mem_cons, or_and_right, exists_or, exists_eq_left]
      · intro assignment others hagrees hothers
        obtain ⟨other, rest, rfl⟩ := exists_cons_of_answers hothers
        obtain ⟨hother, hadmitted, hholds, hrest⟩ := answers_cons_iff.1 hothers
        obtain ⟨reached, hreached, hagreed⟩ := exists_fit_of_holds hagrees hadmitted hholds
        simp only [List.map_cons]
        rcases Nat.lt_trichotomy passed.length other.position with hlt | heq | hgt
        · exact le_of_lt (List.Lex.rel hlt)
        · -- the same candidate: the answers differ in the later goals only
          have hsame : other.candidate = candidate := by
            rw [Offers, ← heq, hat] at hother
            exact (Option.some.inj hother).symm
          rw [← heq]
          rw [hsame] at hreached hrest
          rw [fit, if_pos hadmits, hfit] at hreached
          obtain rfl := Option.some.inj hreached
          exact List.cons_le_cons _ (hleast assignment rest hagreed hrest)
        · -- an earlier candidate that starts an answer would have been taken
          have hmem : other.candidate ∈ passed := by
            rw [Offers, hsplit, List.getElem?_append_left hgt] at hother
            exact List.mem_of_getElem? hother
          have hsome := isSome_solve_of_answers hagreed hrest
          have hnone := hpassed _ hmem
          rw [hreached, Option.bind_some] at hnone
          rw [hnone] at hsome
          cases hsome

/-- The recursion finds something exactly if the goals have an answer. -/
theorem isSome_solve_iff {bindings : Bindings} :
    (solve goals committed bindings).isSome = true ↔
      ∃ assignment picks, bindings.AgreesWith assignment ∧ Answers committed assignment goals picks := by
  constructor
  · intro h
    obtain ⟨finding, hfinding⟩ := Option.isSome_iff_exists.1 h
    obtain ⟨picks, hanswers, -⟩ := exists_answer_of_solve_eq_some hfinding
    exact ⟨_, picks, (hanswers _).1 finding.bindings.agreesWith_toAssignment⟩
  · rintro ⟨assignment, picks, hagrees, hanswers⟩
    exact isSome_solve_of_answers hagrees hanswers

end Goal

theorem Rule.mem_variableNames_iff {rule : Rule} {name : String} (view : View) :
    name ∈ rule.variableNames ↔ ∃ goal ∈ rule.goals view, name ∈ goal.condition.variableNames := by
  simp only [variableNames, goals, List.mem_eraseDups, List.mem_flatMap, List.mem_map,
    exists_exists_and_eq_and]

/-- The candidates are the known facts among those that are listed. -/
theorem Store.mem_candidates_iff {store : Store} {refs : List FactRef} {candidate : Candidate} :
    candidate ∈ store.candidates refs ↔
      candidate.ref ∈ refs ∧ store.fact? candidate.ref = some candidate.fact := by
  simp only [candidates, List.mem_filterMap, Option.map_eq_some_iff]
  constructor
  · rintro ⟨ref, href, fact, hfact, rfl⟩
    exact ⟨href, hfact⟩
  · rintro ⟨href, hfact⟩
    exact ⟨candidate.ref, href, candidate.fact, hfact, rfl⟩

namespace RuleInstance

variable {source : RuleInstance} {view : View}

theorem isSome_match?_iff :
    (source.match? none view).isSome = true ↔
      ∃ assignment picks, Goal.Answers [] assignment (source.rule.goals view) picks := by
  rw [match?_none, Option.isSome_map, Goal.isSome_solve_iff]
  simp only [Bindings.agreesWith_empty, true_and]

/-- A rule with one condition matches exactly if a candidate that is not retracted fulfils the condition. -/
theorem isSome_match?_iff_of_condition {condition : Condition} (hasks : source.rule.conditions = [condition]) :
    (source.match? none view).isSome = true ↔
      ∃ candidate ∈ view condition.type, candidate.fact.retracted = false ∧
        ∃ assignment, condition.Holds assignment candidate.fact := by
  have hgoals : source.rule.goals view = [⟨condition, view condition.type⟩] := by
    rw [Rule.goals, hasks, List.map_singleton]
  rw [isSome_match?_iff, hgoals]
  constructor
  · rintro ⟨assignment, picks, hanswers⟩
    obtain ⟨pick, rest, rfl⟩ := Goal.exists_cons_of_answers hanswers
    obtain ⟨hoffers, hadmits, hholds, -⟩ := Goal.answers_cons_iff.1 hanswers
    exact ⟨pick.candidate, List.mem_of_getElem? hoffers, (Goal.admits_eq_true_iff.1 hadmits).1, assignment, hholds⟩
  · rintro ⟨candidate, hcandidate, hunretracted, assignment, hholds⟩
    obtain ⟨position, hposition⟩ := List.getElem?_of_mem hcandidate
    refine ⟨assignment, [⟨position, candidate⟩], Goal.answers_cons_iff.2 ⟨hposition, ?_, hholds, ?_⟩⟩
    · exact Goal.admits_eq_true_iff.2 ⟨hunretracted, List.forall_mem_nil _⟩
    · exact Goal.answers_nil_iff.2 rfl

/-- The match that is found: an answer to the conditions, none comes before it, and the variables of the rule
are bound. -/
theorem exists_answer_of_match?_eq_some {found : Match} (h : source.match? none view = some found) :
    ∃ picks, Goal.Answers [] found.bindings.toAssignment (source.rule.goals view) picks ∧
      found.facts = picks.map (·.candidate.ref) ∧
      (∀ name, found.bindings.contains name = true ↔ name ∈ source.rule.variableNames) ∧
      ∀ assignment others, Goal.Answers [] assignment (source.rule.goals view) others →
        picks.map (·.position) ≤ others.map (·.position) := by
  rw [match?_none] at h
  obtain ⟨finding, hsolve, rfl⟩ := Option.map_eq_some_iff.1 h
  obtain ⟨picks, hanswers, hfacts, hbound, hleast⟩ := Goal.exists_answer_of_solve_eq_some hsolve
  refine ⟨picks, ((hanswers _).1 finding.bindings.agreesWith_toAssignment).2, hfacts, fun name => ?_, ?_⟩
  · rw [hbound, Rule.mem_variableNames_iff view]
    simp [Dictionary.contains]
  · intro assignment others hothers
    exact hleast assignment others (Bindings.agreesWith_empty assignment) hothers

end RuleInstance

end ProductionSystem
