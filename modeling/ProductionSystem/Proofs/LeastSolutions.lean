import Mathlib.Data.List.Forall2
import Mathlib.Data.List.Sort
import Mathlib.Order.Bounds.Basic
import ProductionSystem.Proofs.FirstMatch

/-!
Unification finds least solutions. Dictionaries are ordered by what they define, and bindings solve a test if
they bind its variable to the value tested. Unifying the tests of a condition one after the other gives the least
bindings above the given ones that solve all of them. A least solution does not depend on how the tests are listed,
so neither does a search: it takes the same course for conditions with the same tests, frame by frame.
-/

namespace ProductionSystem

namespace Dictionary

variable {α : Type}

theorem get?_eq_some_iff_mem {slots : Slots α} (hordered : slots.Pairwise fun a b => a.1 < b.1) {name : String}
    {a : α} : Slots.get? name slots = some a ↔ (name, a) ∈ slots := by
  induction slots with
  | nil => simp [Slots.get?]
  | cons first rest ih =>
      obtain ⟨hfirst, hrest⟩ := List.pairwise_cons.1 hordered
      rw [Slots.get?, List.mem_cons, ← ih hrest, Prod.ext_iff]
      by_cases heq : name = first.1
      · -- the later entries have other names
        have hnone : Slots.get? name rest ≠ some a := fun h =>
          String.lt_irrefl name (by simpa [← heq] using hfirst (name, a) ((ih hrest).1 h))
        rw [if_pos heq, Option.some.injEq]
        simp only [heq, true_and, heq ▸ hnone, or_false, eq_comm]
      · rw [if_neg heq, or_iff_right fun h => heq h.1]

/-- Ordered lists with the same entries are equal. -/
theorem eq_of_mem_iff {slots slots' : Slots α} (hordered : slots.Pairwise fun a b => a.1 < b.1)
    (hordered' : slots'.Pairwise fun a b => a.1 < b.1) (h : ∀ entry, entry ∈ slots ↔ entry ∈ slots') :
    slots = slots' := by
  have hirrefl : Std.Irrefl fun a b : String × α => a.1 < b.1 := ⟨fun a => String.lt_irrefl a.1⟩
  have hantisymm : Std.Antisymm fun a b : String × α => a.1 < b.1 :=
    ⟨fun a _ hab hba => (String.lt_irrefl a.1 (String.lt_trans hab hba)).elim⟩
  exact hordered.eq_of_mem_iff hordered' h

/-- A dictionary is what it defines. -/
@[ext] theorem ext_get? {d d' : Dictionary α} (h : ∀ name, d.get? name = d'.get? name) : d = d' := by
  have hentries : d.entries = d'.entries := by
    refine eq_of_mem_iff d.ordered d'.ordered fun entry => ?_
    rw [← get?_eq_some_iff_mem d.ordered, ← get?_eq_some_iff_mem d'.ordered]
    exact iff_of_eq (congrArg (· = some entry.2) (h entry.1))
  cases d
  cases d'
  cases hentries
  rfl

/-- One dictionary is below another that defines at least the same. -/
instance : PartialOrder (Dictionary α) where
  le d d' := ∀ name a, d.get? name = some a → d'.get? name = some a
  le_refl _ _ _ h := h
  le_trans _ _ _ h h' name a ha := h' name a (h name a ha)
  le_antisymm _ _ h h' := ext_get? fun name => Option.ext fun a => ⟨h name a, h' name a⟩

end Dictionary

namespace Bindings

theorem agreesWith_of_le {bindings extended : Bindings} {assignment : Assignment} (hle : bindings ≤ extended)
    (h : extended.AgreesWith assignment) : bindings.AgreesWith assignment :=
  fun name value hvalue => h name value (hle name value hvalue)

/-- Bindings that demand no more, of variables that the others bind too, are below them. -/
theorem le_of_agreesWith {bindings other : Bindings} (hagrees : bindings.AgreesWith other.toAssignment)
    (hbound : ∀ name, bindings.contains name = true → other.contains name = true) : bindings ≤ other := by
  intro name value hvalue
  have hcontains : bindings.contains name = true := by rw [Dictionary.contains, hvalue, Option.isSome_some]
  rw [get?_of_contains other.agreesWith_toAssignment (hbound name hcontains), hagrees name value hvalue]

end Bindings

namespace Pattern

/-- Do bindings solve the test of a value? A variable has to be bound, and to the value. -/
def SolvedBy (bindings : Bindings) (value : Value) : Pattern → Prop
  | .literal demanded => demanded = value
  | .variable name => bindings.get? name = some value
  | .absent => value = .nil

theorem solvedBy_iff {pattern : Pattern} {bindings : Bindings} {value : Value} :
    pattern.SolvedBy bindings value ↔
      pattern.Holds bindings.toAssignment value ∧
        ∀ name, pattern.variableName? = some name → bindings.contains name = true := by
  cases pattern with
  | literal demanded => simp [SolvedBy, Holds, variableName?]
  | absent => simp [SolvedBy, Holds, variableName?]
  | «variable» name =>
      simp only [SolvedBy, Holds, variableName?, Option.some.injEq, forall_eq', Dictionary.contains,
        Bindings.toAssignment]
      cases bindings.get? name with
      | none => simp
      | some bound => simp

end Pattern

namespace Condition

/-- Do bindings solve all tests of a fact? -/
def SolvedBy (bindings : Bindings) (fact : Fact) (tests : List (String × Pattern)) : Prop :=
  ∀ test ∈ tests, test.2.SolvedBy bindings (fact.get test.1)

/-- The bindings above the given ones that solve all tests of a fact. -/
def solutions (fact : Fact) (tests : List (String × Pattern)) (bindings : Bindings) : Set Bindings :=
  {extended | bindings ≤ extended ∧ SolvedBy extended fact tests}

variable {fact : Fact} {tests : List (String × Pattern)} {bindings extended : Bindings}

theorem solvedBy_iff :
    SolvedBy bindings fact tests ↔
      (∀ test ∈ tests, test.2.Holds bindings.toAssignment (fact.get test.1)) ∧
        ∀ name ∈ tests.filterMap (fun test => test.2.variableName?), bindings.contains name = true := by
  simp only [SolvedBy, Pattern.solvedBy_iff, List.mem_filterMap]
  constructor
  · intro h
    exact ⟨fun test htest => (h test htest).1, fun name ⟨test, htest, hname⟩ => (h test htest).2 name hname⟩
  · rintro ⟨hholds, hbound⟩ test htest
    exact ⟨hholds test htest, fun name hname => hbound name ⟨test, htest, hname⟩⟩

/-- What unification returns is a solution, and below every other. -/
theorem isLeast_of_unifyTests (h : unifyTests fact tests bindings = some extended) :
    IsLeast (solutions fact tests bindings) extended := by
  have hagrees := agreesWith_of_unifyTests h
  have hbound := contains_of_unifyTests h
  constructor
  · obtain ⟨hbelow, hholds⟩ := (hagrees _).1 extended.agreesWith_toAssignment
    refine ⟨Bindings.le_of_agreesWith hbelow fun name hname => (hbound name).2 (.inl hname), ?_⟩
    exact solvedBy_iff.2 ⟨hholds, fun name hname => (hbound name).2 (.inr hname)⟩
  · rintro other ⟨hle, hsolved⟩
    obtain ⟨hholds, hvariables⟩ := solvedBy_iff.1 hsolved
    have hbelow := Bindings.agreesWith_of_le hle other.agreesWith_toAssignment
    refine Bindings.le_of_agreesWith ((hagrees _).2 ⟨hbelow, hholds⟩) fun name hname => ?_
    rcases (hbound name).1 hname with hname | hname
    · obtain ⟨value, hvalue⟩ := Option.isSome_iff_exists.1 hname
      rw [Dictionary.contains, hle name value hvalue, Option.isSome_some]
    · exact hvariables name hname

theorem isSome_unifyTests_of_solution (h : extended ∈ solutions fact tests bindings) :
    (unifyTests fact tests bindings).isSome = true :=
  isSome_unifyTests_of_holds (Bindings.agreesWith_of_le h.1 extended.agreesWith_toAssignment) (solvedBy_iff.1 h.2).1

theorem unifyTests_eq_some_iff :
    unifyTests fact tests bindings = some extended ↔ IsLeast (solutions fact tests bindings) extended := by
  refine ⟨isLeast_of_unifyTests, fun h => ?_⟩
  obtain ⟨found, hfound⟩ := Option.isSome_iff_exists.1 (isSome_unifyTests_of_solution h.1)
  rw [hfound, (isLeast_of_unifyTests hfound).unique h]

theorem unify_eq_some_iff {condition : Condition} :
    condition.unify fact bindings = some extended ↔
      fact.type = condition.type ∧ IsLeast (solutions fact condition.tests bindings) extended := by
  rw [unify, Option.ite_none_right_eq_some, unifyTests_eq_some_iff]

theorem isSome_unify_iff {condition : Condition} :
    (condition.unify fact bindings).isSome = true ↔
      fact.type = condition.type ∧ ∃ extended, bindings ≤ extended ∧ SolvedBy extended fact condition.tests := by
  constructor
  · intro h
    obtain ⟨extended, hextended⟩ := Option.isSome_iff_exists.1 h
    obtain ⟨htype, hleast⟩ := unify_eq_some_iff.1 hextended
    exact ⟨htype, extended, hleast.1⟩
  · rintro ⟨htype, extended, hsolution⟩
    rw [unify, if_pos htype]
    exact isSome_unifyTests_of_solution hsolution

/-- Do two conditions ask for the same type and the same tests, in any order and any number of times? -/
def Alike (condition condition' : Condition) : Prop :=
  condition.type = condition'.type ∧ ∀ test, test ∈ condition.tests ↔ test ∈ condition'.tests

theorem solutions_congr {tests' : List (String × Pattern)} (h : ∀ test, test ∈ tests ↔ test ∈ tests') :
    solutions fact tests bindings = solutions fact tests' bindings := by
  simp only [solutions, SolvedBy, h]

theorem Alike.unify_eq {condition condition' : Condition} (h : condition.Alike condition') (fact : Fact)
    (bindings : Bindings) : condition.unify fact bindings = condition'.unify fact bindings := by
  ext extended
  rw [unify_eq_some_iff, unify_eq_some_iff, h.1, solutions_congr h.2]

end Condition

namespace Goal

/-- Do two goals ask for the same of the same candidates? -/
structure Alike (goal goal' : Goal) : Prop where
  condition : goal.condition.Alike goal'.condition
  candidates : goal.candidates = goal'.candidates

theorem firstFit_alike {condition condition' : Condition} (h : condition.Alike condition')
    (committed : List Candidate) (bindings : Bindings) (untried : List Candidate) :
    firstFit condition committed bindings untried = firstFit condition' committed bindings untried := by
  induction untried with
  | nil => rfl
  | cons candidate rest ih => simp only [firstFit, h.unify_eq, ih]

end Goal

namespace Frame

/-- Do two frames differ at most in how the tests of their goals are listed? -/
structure Alike (frame frame' : Frame) : Prop where
  goals : List.Forall₂ Goal.Alike frame.goals frame'.goals
  untried : frame.untried = frame'.untried
  committed : frame.committed = frame'.committed
  bindings : frame.bindings = frame'.bindings

theorem alike_enter {goals goals' : List Goal} (h : List.Forall₂ Goal.Alike goals goals')
    (committed : List Candidate) (bindings : Bindings) :
    (enter goals committed bindings).Alike (enter goals' committed bindings) := by
  refine ⟨h, ?_, rfl, rfl⟩
  cases h with
  | nil => rfl
  | cons hgoal _ => exact hgoal.candidates

/-- Does a frame expand like another that expands in the given way? -/
def Expansion.Alike (expansion' : Expansion) : Expansion → Prop
  | .complete finding => expansion' = .complete finding
  | .exhausted => expansion' = .exhausted
  | .extended parent child =>
    ∃ parent' child', expansion' = .extended parent' child' ∧ parent.Alike parent' ∧ child.Alike child'

theorem Alike.expand {frame frame' : Frame} (h : frame.Alike frame') : frame'.expand.Alike frame.expand := by
  obtain ⟨goals, untried, committed, bindings⟩ := frame
  obtain ⟨goals', untried', committed', bindings'⟩ := frame'
  obtain ⟨hgoals, rfl, rfl, rfl⟩ := h
  cases hgoals with
  | nil => rfl
  | @cons goal goal' goals goals' hgoal hrest =>
      simp only [Frame.expand, Goal.firstFit_alike hgoal.condition]
      cases Goal.firstFit goal'.condition committed bindings untried with
      | none => rfl
      | some fit => exact ⟨_, _, rfl, ⟨.cons hgoal hrest, rfl, rfl, rfl⟩, alike_enter hrest _ _⟩

end Frame

namespace Search

/-- Stacks of like frames are searched alike, and in the same number of steps. -/
theorem run_alike (budget : Option Nat) (frames : Nat) {stack stack' : List Frame}
    (h : List.Forall₂ Frame.Alike stack stack') : run budget frames stack = run budget frames stack' := by
  refine run_lockstep (fun frame frame' hframe => ?_) budget frames h
  have hlike := hframe.expand
  cases hexpand : frame.expand with
  | complete finding =>
      rw [hexpand] at hlike
      rw [show frame'.expand = .complete finding from hlike]
      exact .complete finding
  | exhausted =>
      rw [hexpand] at hlike
      rw [show frame'.expand = .exhausted from hlike]
      exact .exhausted
  | extended parent child =>
      rw [hexpand] at hlike
      obtain ⟨parent', child', hexpand', hparent, hchild⟩ := hlike
      rw [hexpand']
      exact .extended hparent hchild

end Search

/-- Rules whose conditions are alike are searched alike. -/
theorem Rule.search_alike {rule rule' : Rule} (h : List.Forall₂ Condition.Alike rule.conditions rule'.conditions)
    (budget : Option Nat) (view : View) : rule.search budget view = rule'.search budget view := by
  have hgoals : List.Forall₂ Goal.Alike (rule.goals view) (rule'.goals view) := by
    rw [goals, goals, List.forall₂_map_left_iff, List.forall₂_map_right_iff]
    exact h.imp fun condition condition' halike => ⟨halike, congrArg view halike.1⟩
  exact Search.run_alike budget 0 (.cons (Frame.alike_enter hgoals _ _) .nil)

/-- **Unification is independent of the order of the tests.** A fact can be unified with a condition if and only if
it has the type of the condition and some bindings above the given ones solve all tests. The least such bindings are
returned; they bind the variables of the tests and the ones bound before, and no others. So it does not matter in which
order the tests are listed, or how often. If the conditions of two rules have the same types and the same tests, in
whatever order and with whatever repetitions, then the search takes the same facts and bindings for both, or none, and
pops the same number of frames, for all candidates and under every budget. -/
theorem unification_ignores_test_order :
    (∀ (condition : Condition) (fact : Fact) (bindings : Bindings),
      ((condition.unify fact bindings).isSome = true ↔ fact.type = condition.type ∧
        ∃ extended, bindings ≤ extended ∧ Condition.SolvedBy extended fact condition.tests) ∧
      ∀ extended, (condition.unify fact bindings = some extended ↔ fact.type = condition.type ∧
          IsLeast {other | bindings ≤ other ∧ Condition.SolvedBy other fact condition.tests} extended) ∧
        (condition.unify fact bindings = some extended → ∀ name, extended.contains name = true ↔
          bindings.contains name = true ∨ name ∈ condition.variableNames)) ∧
    (∀ (condition condition' : Condition), condition.Alike condition' →
      ∀ fact bindings, condition.unify fact bindings = condition'.unify fact bindings) ∧
    (∀ (condition : Condition) (tests : List (String × Pattern)), tests.Perm condition.tests →
      ({ condition with tests := tests } : Condition).Alike condition) ∧
    ∀ (rule rule' : Rule), List.Forall₂ Condition.Alike rule.conditions rule'.conditions →
      ∀ budget view, rule.search budget view = rule'.search budget view := by
  refine ⟨fun condition fact bindings => ⟨Condition.isSome_unify_iff, fun extended => ⟨?_, ?_⟩⟩, ?_, ?_, ?_⟩
  · exact Condition.unify_eq_some_iff
  · intro h name
    exact Condition.contains_of_unify h name
  · intro condition condition' halike fact bindings
    exact halike.unify_eq fact bindings
  · intro condition tests hperm
    exact ⟨rfl, fun test => hperm.mem_iff⟩
  · intro rule rule' halike budget view
    exact Rule.search_alike halike budget view

/-- A rule for an item that is nowhere and one that is where the first one is wanted. -/
def placing (tests : List (String × Pattern)) : Rule where
  name := "placing"
  conditions := [⟨"item", tests⟩, ⟨"item", [("at", .variable "$place")]⟩]

/-- An item with the place it is at and the place where it is wanted. -/
def placedItem (index : Nat) (place wanted : Value) : Candidate where
  ref := ⟨index⟩
  fact := { id := ⟨index.toUInt64⟩, type := "item", fields := [("at", place), ("wanted", wanted)] }

/-- The tests of the first condition in the other order, and one of them twice. The same binding solves both, and the
search pops the same frames and takes the second item before the first. -/
theorem unification_ignores_test_order_placing :
    let tests : List (String × Pattern) := [("at", .absent), ("wanted", .variable "$place")]
    let tests' : List (String × Pattern) :=
      [("wanted", .variable "$place"), ("wanted", .variable "$place"), ("at", .absent)]
    let items := [placedItem 0 (.str "shelf") .nil, placedItem 1 .nil (.str "shelf")]
    let solution : Bindings := Dictionary.empty.insert "$place" (.str "shelf")
    (⟨"item", tests⟩ : Condition).Alike ⟨"item", tests'⟩ ∧
      Condition.unify ⟨"item", tests⟩ (placedItem 1 .nil (.str "shelf")).fact Dictionary.empty = some solution ∧
      Condition.unify ⟨"item", tests'⟩ (placedItem 1 .nil (.str "shelf")).fact Dictionary.empty = some solution ∧
      ((placing tests).search none fun _ => items).finding? = some ⟨[⟨1⟩, ⟨0⟩], solution⟩ ∧
      ∀ budget, (placing tests).search budget (fun _ => items) = (placing tests').search budget fun _ => items := by
  intro tests tests' items solution
  have halike : (⟨"item", tests⟩ : Condition).Alike ⟨"item", tests'⟩ := by
    refine ⟨rfl, fun test => ?_⟩
    simp [tests, tests', or_comm, or_left_comm]
  obtain ⟨-, hconditions, -, hrules⟩ := unification_ignores_test_order
  have hunify :
      Condition.unify ⟨"item", tests⟩ (placedItem 1 .nil (.str "shelf")).fact Dictionary.empty = some solution := by
    decide
  refine ⟨halike, hunify, ?_, ?_, fun budget => ?_⟩
  · rw [← hconditions _ _ halike, hunify]
  · rw [Rule.search, Search.finding?_start_none]
    decide
  · exact hrules _ _ (.cons halike (.cons ⟨rfl, fun _ => Iff.rfl⟩ .nil)) budget _

end ProductionSystem
