import ProductionSystem.Conflict
import ProductionSystem.Proofs.ParallelMatch
import ProductionSystem.Proofs.Pasts

/-!
Matching in a memory with a past. A search compares the ids of facts with each other, and nothing else that counts
on from the past, so it takes the same course, and the rule chosen is the same.
-/

namespace ProductionSystem

variable (past : Past)

def RuleInstance.after (source : RuleInstance) : RuleInstance := { source with serial := source.serial + past.rules }

def Candidate.after (candidate : Candidate) : Candidate := ⟨candidate.ref.after past, candidate.fact.after past⟩

def Goal.after (goal : Goal) : Goal := { goal with candidates := goal.candidates.map (Candidate.after past) }

def Finding.after (finding : Finding) : Finding := { finding with facts := finding.facts.map (FactRef.after past) }

def Frame.after (frame : Frame) : Frame where
  goals := frame.goals.map (Goal.after past)
  untried := frame.untried.map (Candidate.after past)
  committed := frame.committed.map (Candidate.after past)
  bindings := frame.bindings

def Frame.Expansion.after : Frame.Expansion → Frame.Expansion
  | .complete finding => .complete (finding.after past)
  | .exhausted => .exhausted
  | .extended parent child => .extended (parent.after past) (child.after past)

def Search.Result.after (result : Search.Result) : Search.Result :=
  { result with finding? := result.finding?.map (Finding.after past) }

def Match.after (found : Match) : Match where
  source := found.source.after past
  facts := found.facts.map (FactRef.after past)
  bindings := found.bindings

theorem RuleInstance.same_after (source other : RuleInstance) :
    (source.after past).same (other.after past) = source.same other := by
  rw [Bool.eq_iff_iff, same, same, beq_iff_eq, beq_iff_eq]
  exact Nat.add_right_cancel_iff

namespace Condition

variable (fact : Fact) (bindings : Bindings)

theorem unifyTests_after (tests : List (String × Pattern)) :
    unifyTests (fact.after past) tests bindings = unifyTests fact tests bindings := by
  induction tests generalizing bindings with
  | nil => rfl
  | cons test rest ih =>
      have hget : (fact.after past).get test.1 = fact.get test.1 := rfl
      simp only [unifyTests, hget, funext ih]

theorem unify_after (condition : Condition) :
    condition.unify (fact.after past) bindings = condition.unify fact bindings := by
  rw [unify, unify, unifyTests_after]
  rfl

end Condition

namespace Goal

theorem admits_after (committed : List Candidate) (candidate : Candidate) :
    admits (committed.map (Candidate.after past)) (candidate.after past) = admits committed candidate := by
  simp only [admits, List.all_map, Function.comp_def, Candidate.after, Fact.after, ne_eq, FactId.after_inj]

theorem firstFit_after (condition : Condition) (committed : List Candidate) (bindings : Bindings)
    (untried : List Candidate) :
    firstFit condition (committed.map (Candidate.after past)) bindings (untried.map (Candidate.after past)) =
      (firstFit condition committed bindings untried).map fun (candidate, extended, rest) =>
        (candidate.after past, extended, rest.map (Candidate.after past)) := by
  induction untried with
  | nil => rfl
  | cons candidate rest ih =>
      have hunify : condition.unify (candidate.after past).fact bindings = condition.unify candidate.fact bindings :=
        Condition.unify_after past candidate.fact bindings condition
      simp only [List.map_cons, firstFit, admits_after, hunify, ih]
      split
      · cases condition.unify candidate.fact bindings <;> rfl
      · rfl

end Goal

namespace Frame

theorem enter_after (goals : List Goal) (committed : List Candidate) (bindings : Bindings) :
    enter (goals.map (Goal.after past)) (committed.map (Candidate.after past)) bindings =
      (enter goals committed bindings).after past := by
  cases goals <;> rfl

theorem expand_after (frame : Frame) : (frame.after past).expand = frame.expand.after past := by
  obtain ⟨goals, untried, committed, bindings⟩ := frame
  cases goals with
  | nil => simp only [expand, after, List.map_nil, List.map_map, Expansion.after, Finding.after]; rfl
  | cons goal goals =>
      simp only [expand, after, List.map_cons]
      rw [show (goal.after past).condition = goal.condition from rfl, Goal.firstFit_after]
      cases Goal.firstFit goal.condition committed bindings untried with
      | none => rfl
      | some fit =>
          obtain ⟨candidate, extended, rest⟩ := fit
          have hcommitted : committed.map (Candidate.after past) ++ [candidate.after past] =
              (committed ++ [candidate]).map (Candidate.after past) := by
            rw [List.map_append, List.map_singleton]
          simp only [Option.map_some, hcommitted, enter_after]
          rfl

end Frame

namespace Search

theorem run_after (budget : Option Nat) (frames : Nat) (stack : List Frame) :
    run budget frames (stack.map (Frame.after past)) = (run budget frames stack).after past := by
  fun_induction run budget frames stack with
  | case1 frames => rw [List.map_nil, run]; rfl
  | case2 frames frame stack hexceeds => rw [List.map_cons, run_cons, if_pos hexceeds]; rfl
  | case3 frames frame stack hwithin finding hexpand =>
      rw [List.map_cons, run_cons, if_neg hwithin, Frame.expand_after, hexpand]
      rfl
  | case4 frames frame stack hwithin hexpand ih =>
      rw [List.map_cons, run_cons, if_neg hwithin, Frame.expand_after, hexpand]
      exact ih
  | case5 frames frame stack hwithin parent child hexpand ih =>
      rw [List.map_cons, run_cons, if_neg hwithin, Frame.expand_after, hexpand]
      exact ih

theorem start_after (budget : Option Nat) (goals : List Goal) :
    start budget (goals.map (Goal.after past)) = (start budget goals).after past := by
  have henter : Frame.enter (goals.map (Goal.after past)) [] Dictionary.empty =
      (Frame.enter goals [] Dictionary.empty).after past := Frame.enter_after past goals [] Dictionary.empty
  rw [start, henter]
  exact run_after past budget 0 [Frame.enter goals [] Dictionary.empty]

end Search

/-- The candidates, as they are called in a memory with a past. -/
def View.after (view : View) : View := fun type => (view type).map (Candidate.after past)

namespace Store

theorem candidates_after (store : Store) (refs : List FactRef) :
    (store.after past).candidates (refs.map (FactRef.after past)) =
      (store.candidates refs).map (Candidate.after past) := by
  simp only [candidates, List.filterMap_map, List.map_filterMap, Function.comp_def, fact?_after, Option.map_map]
  rfl

theorem view_after (store : Store) (snapshot : Snapshot) :
    (store.after past).view (snapshot.after past) = View.after past (store.view snapshot) := by
  funext type
  have hget : (snapshot.after past).get type = (snapshot.get type).map (FactRef.after past) :=
    LiveIndex.of_after past snapshot.live type
  rw [view, hget, candidates_after]
  rfl

end Store

theorem Rule.search_after (rule : Rule) (budget : Option Nat) (view : View) :
    rule.search budget (View.after past view) = (rule.search budget view).after past := by
  have hgoals : rule.goals (View.after past view) = (rule.goals view).map (Goal.after past) := by
    simp only [goals, List.map_map]
    rfl
  rw [search, hgoals, Search.start_after]
  rfl

theorem RuleInstance.match?_after (source : RuleInstance) (budget : Option Nat) (view : View) :
    (source.after past).match? budget (View.after past view) = (source.match? budget view).map (Match.after past) := by
  have hsearch : (source.after past).rule.search budget (View.after past view) =
      (source.rule.search budget view).after past := Rule.search_after past source.rule budget view
  simp only [match?, hsearch, Search.Result.after, Option.map_map]
  rfl

theorem Match.all_after (budget : Option Nat) (view : View) (rules : List RuleInstance) :
    all budget (View.after past view) (rules.map (RuleInstance.after past)) =
      (all budget view rules).map (Match.after past) := by
  simp only [all, List.filterMap_map, List.map_filterMap, Function.comp_def, RuleInstance.match?_after]

/-- A choice by what the renaming keeps is a choice of the same one. -/
theorem Conflict.select_map {α β : Type} (f : α → β) {takenLast : α → Bool} {takenLast' : β → Bool}
    (h : ∀ choice, takenLast' (f choice) = takenLast choice) (choices : List α) :
    select takenLast' (choices.map f) = (select takenLast choices).map f := by
  have hlast : takenLast' ∘ f = takenLast := funext h
  simp only [select, contenders, List.length_map, List.eraseP_map, hlast]
  split <;> rw [List.head?_map]

end ProductionSystem
