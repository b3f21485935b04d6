import Mathlib.Data.List.Forall2
import ProductionSystem.Engine

/-!
What the search with a stack of frames finds. Without a budget it finds what a plain recursion over the
conditions finds: the recursion takes for the first condition the candidates one after the other, and
goes on with the rest of the conditions from each that fits. A frame stands for the part of the recursion
that its untried candidates span, and a stack for the parts of its frames one after the other, so a step
of the search never changes what the stack stands for.

Two searches take the same course under any budget if a relation between their frames is kept by expansion.
-/

namespace ProductionSystem

namespace Goal

/-- The bindings under which a candidate can be taken next, if it can. -/
def fit (condition : Condition) (committed : List Candidate) (bindings : Bindings) (candidate : Candidate) :
    Option Bindings :=
  if admits committed candidate then condition.unify candidate.fact bindings else none

variable {condition : Condition} {committed : List Candidate} {bindings : Bindings}

theorem firstFit_cons (first : Candidate) (others : List Candidate) :
    firstFit condition committed bindings (first :: others) =
      match fit condition committed bindings first with
      | some extended => some (first, extended, others)
      | none => firstFit condition committed bindings others := by
  by_cases hadmits : admits committed first = true
  · cases hunify : condition.unify first.fact bindings with
    | none => simp only [firstFit, fit, if_pos hadmits, hunify]
    | some extended => simp only [firstFit, fit, if_pos hadmits, hunify]
  · simp only [firstFit, fit, if_neg hadmits]

theorem firstFit_eq_none_iff {untried : List Candidate} :
    firstFit condition committed bindings untried = none ↔
      ∀ candidate ∈ untried, fit condition committed bindings candidate = none := by
  induction untried with
  | nil => simp [firstFit]
  | cons first others ih =>
      rw [List.forall_mem_cons, ← ih, firstFit_cons]
      cases fit condition committed bindings first <;> simp

/-- The first fit passes over the candidates before it, which do not fit. -/
theorem exists_of_firstFit_eq_some {untried rest : List Candidate} {candidate : Candidate}
    {extended : Bindings}
    (h : firstFit condition committed bindings untried = some (candidate, extended, rest)) :
    ∃ passed, untried = passed ++ candidate :: rest ∧
      fit condition committed bindings candidate = some extended ∧
      ∀ other ∈ passed, fit condition committed bindings other = none := by
  induction untried with
  | nil => simp [firstFit] at h
  | cons first others ih =>
      rw [firstFit_cons] at h
      cases hfirst : fit condition committed bindings first with
      | none =>
          rw [hfirst] at h
          obtain ⟨passed, rfl, hfit, hpassed⟩ := ih h
          exact ⟨first :: passed, rfl, hfit, List.forall_mem_cons.2 ⟨hfirst, hpassed⟩⟩
      | some found =>
          rw [hfirst] at h
          obtain ⟨rfl, rfl, rfl⟩ := Option.some.inj h |> Prod.mk.inj |>.imp id Prod.mk.inj
          exact ⟨[], rfl, hfirst, fun _ hmem => (List.not_mem_nil hmem).elim⟩

/-- The search as a plain recursion over the conditions that have no fact yet. -/
def solve : List Goal → List Candidate → Bindings → Option Finding
  | [], committed, bindings => some ⟨committed.map (·.ref), bindings⟩
  | goal :: goals, committed, bindings =>
    goal.candidates.findSome? fun candidate =>
      (fit goal.condition committed bindings candidate).bind (solve goals (committed ++ [candidate]))

/-- What is found was taken before or is a candidate. -/
theorem mem_facts_of_solve {goals : List Goal} {finding : Finding} (h : solve goals committed bindings = some finding)
    {ref : FactRef} (href : ref ∈ finding.facts) :
    ref ∈ committed.map (·.ref) ∨ ∃ goal ∈ goals, ∃ candidate ∈ goal.candidates, candidate.ref = ref := by
  induction goals generalizing committed bindings with
  | nil =>
      obtain rfl := Option.some.inj h
      exact .inl href
  | cons goal goals ih =>
      obtain ⟨candidate, hcandidate, hfound⟩ := List.exists_of_findSome?_eq_some h
      obtain ⟨extended, -, hsolve⟩ := Option.bind_eq_some_iff.1 hfound
      rcases ih hsolve with hbefore | ⟨other, hother, hlater⟩
      · rw [List.map_append, List.mem_append, List.map_singleton, List.mem_singleton] at hbefore
        refine hbefore.imp_right fun heq => ⟨goal, List.mem_cons_self, candidate, hcandidate, heq.symm⟩
      · exact .inr ⟨other, List.mem_cons_of_mem _ hother, hlater⟩

end Goal

namespace Frame

/-- What is found from a frame on: its untried candidates come first in the recursion. -/
def solve (frame : Frame) : Option Finding :=
  match frame.goals with
  | [] => some ⟨frame.committed.map (·.ref), frame.bindings⟩
  | goal :: goals =>
    frame.untried.findSome? fun candidate =>
      (Goal.fit goal.condition frame.committed frame.bindings candidate).bind
        (Goal.solve goals (frame.committed ++ [candidate]))

theorem solve_enter (goals : List Goal) (committed : List Candidate) (bindings : Bindings) :
    (enter goals committed bindings).solve = Goal.solve goals committed bindings := by
  cases goals <;> rfl

theorem solve_of_complete {frame : Frame} {finding : Finding} (h : frame.expand = .complete finding) :
    frame.solve = some finding := by
  unfold expand at h
  split at h
  · rename_i hgoals
    simp only [solve, hgoals, Expansion.complete.inj h]
  · split at h <;> cases h

theorem solve_of_exhausted {frame : Frame} (h : frame.expand = .exhausted) : frame.solve = none := by
  unfold expand at h
  split at h
  · cases h
  · rename_i goal goals hgoals
    split at h
    · rename_i hnone
      have hunfit := Goal.firstFit_eq_none_iff.1 hnone
      simp only [solve, hgoals, List.findSome?_eq_none_iff]
      intro candidate hmem
      rw [hunfit candidate hmem, Option.bind_none]
    · cases h

/-- An expanded frame finds what its child finds, and else what is left of it finds. -/
theorem solve_of_extended {frame parent child : Frame} (h : frame.expand = .extended parent child) :
    frame.solve = child.solve.or parent.solve := by
  unfold expand at h
  split at h
  · cases h
  · rename_i goal goals hgoals
    split at h
    · cases h
    · rename_i candidate extended rest hfirst
      obtain ⟨rfl, rfl⟩ := Expansion.extended.inj h
      obtain ⟨passed, hsplit, hfit, hpassed⟩ := Goal.exists_of_firstFit_eq_some hfirst
      have hskip : passed.findSome? (fun other =>
          (Goal.fit goal.condition frame.committed frame.bindings other).bind
            (Goal.solve goals (frame.committed ++ [other]))) = none := by
        rw [List.findSome?_eq_none_iff]
        intro other hmem
        rw [hpassed other hmem, Option.bind_none]
      rw [solve_enter]
      simp only [solve, hgoals, hsplit, List.findSome?_append, hskip, Option.none_or,
        List.findSome?_cons, hfit, Option.bind_some]
      cases Goal.solve goals (frame.committed ++ [candidate]) extended <;> rfl

end Frame

namespace Search

/-- Without a budget, the search finds what the frames of its stack find, the upper ones first. -/
theorem finding?_run_none (frames : Nat) (stack : List Frame) :
    (run none frames stack).finding? = stack.findSome? Frame.solve := by
  fun_induction run none frames stack with
  | case1 => rfl
  | case2 frames frame stack hexceeds => simp [exceeds] at hexceeds
  | case3 frames frame stack _ finding hexpand =>
      simp only [List.findSome?_cons, Frame.solve_of_complete hexpand]
  | case4 frames frame stack _ hexpand ih =>
      simp only [List.findSome?_cons, Frame.solve_of_exhausted hexpand, ih]
  | case5 frames frame stack _ parent child hexpand ih =>
      rw [ih, List.findSome?_cons, List.findSome?_cons, List.findSome?_cons, Frame.solve_of_extended hexpand]
      cases child.solve <;> rfl

theorem finding?_start_none (goals : List Goal) :
    (start none goals).finding? = Goal.solve goals [] Dictionary.empty := by
  rw [start, finding?_run_none, List.findSome?_cons, List.findSome?_nil, Frame.solve_enter]
  cases Goal.solve goals [] Dictionary.empty <;> rfl

end Search

/-- Do two expansions go the same way, to frames that are related? -/
inductive Frame.Expansion.Lockstep (R : Frame → Frame → Prop) : Expansion → Expansion → Prop
  | complete (finding : Finding) : Lockstep R (.complete finding) (.complete finding)
  | exhausted : Lockstep R .exhausted .exhausted
  | extended {parent parent' child child' : Frame} (hparent : R parent parent') (hchild : R child child') :
    Lockstep R (.extended parent child) (.extended parent' child')

/-- If related frames expand in lockstep, stacks of related frames are searched in lockstep: to the same end, and in
the same number of frames. -/
theorem Search.run_lockstep {R : Frame → Frame → Prop}
    (hexpands : ∀ frame frame', R frame frame' → frame.expand.Lockstep R frame'.expand)
    (budget : Option Nat) (frames : Nat) {stack stack' : List Frame} (h : List.Forall₂ R stack stack') :
    run budget frames stack = run budget frames stack' := by
  fun_induction run budget frames stack generalizing stack' with
  | case1 frames =>
      cases h with
      | nil => rw [run]
  | case2 frames frame stack hexceeds =>
      cases h with
      | cons hframe hstack => rw [run_cons, if_pos hexceeds]
  | case3 frames frame stack hwithin finding hexpand =>
      cases h with
      | @cons _ frame' _ stack' hframe hstack =>
          have hlockstep := hexpands frame frame' hframe
          rw [hexpand] at hlockstep
          generalize hexpand' : frame'.expand = expansion at hlockstep
          cases hlockstep
          rw [run_cons, if_neg hwithin, hexpand']
  | case4 frames frame stack hwithin hexpand ih =>
      cases h with
      | @cons _ frame' _ stack' hframe hstack =>
          have hlockstep := hexpands frame frame' hframe
          rw [hexpand] at hlockstep
          generalize hexpand' : frame'.expand = expansion at hlockstep
          cases hlockstep
          rw [run_cons budget frames frame', if_neg hwithin, hexpand']
          exact ih hstack
  | case5 frames frame stack hwithin parent child hexpand ih =>
      cases h with
      | @cons _ frame' _ stack' hframe hstack =>
          have hlockstep := hexpands frame frame' hframe
          rw [hexpand] at hlockstep
          generalize hexpand' : frame'.expand = expansion at hlockstep
          cases hlockstep with
          | extended hparent hchild =>
              rw [run_cons budget frames frame', if_neg hwithin, hexpand']
              exact ih (.cons hchild (.cons hparent hstack))

theorem RuleInstance.match?_none (source : RuleInstance) (view : View) :
    source.match? none view = (Goal.solve (source.rule.goals view) [] Dictionary.empty).map
      fun finding => ⟨source, finding.facts, finding.bindings⟩ := by
  rw [match?, Rule.search, Search.finding?_start_none]

/-- Without a budget, what an engine chooses is told by the recursion. -/
theorem Engine.choose_of_matchAll {engine : Engine} {rules : List RuleInstance}
    (hall : engine.matchAll = Match.all none engine.view rules) :
    engine.choose = Conflict.select (fun found => engine.lastFired.any found.source.same)
      (rules.filterMap fun source => (Goal.solve (source.rule.goals engine.view) [] Dictionary.empty).map
        fun finding => ⟨source, finding.facts, finding.bindings⟩) := by
  rw [choose, hall, Match.all]
  simp only [RuleInstance.match?_none]

end ProductionSystem
