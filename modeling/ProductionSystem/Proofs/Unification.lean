import ProductionSystem.Condition

/-!
Unification as the solving of constraints. A test holds of a field under an assignment of values to
variables, and bindings stand for the assignments that agree with them. Unifying a test narrows these
down to the ones under which the test holds, and binds the variable of the test: so it fails only if no
assignment is left, and what it returns does not depend on how it was found.
-/

namespace ProductionSystem

/-- What every variable stands for. -/
abbrev Assignment := String → Value

namespace Bindings

/-- Does the assignment give every bound variable its value? -/
def AgreesWith (bindings : Bindings) (assignment : Assignment) : Prop :=
  ∀ name value, bindings.get? name = some value → assignment name = value

/-- The assignment that makes the variables without a binding absent. -/
def toAssignment (bindings : Bindings) : Assignment := fun name => (bindings.get? name).getD .nil

theorem agreesWith_toAssignment (bindings : Bindings) : bindings.AgreesWith bindings.toAssignment := by
  intro name value h
  rw [toAssignment, h, Option.getD_some]

theorem agreesWith_empty (assignment : Assignment) :
    AgreesWith (Dictionary.empty : Bindings) assignment := by
  intro name value h
  rw [Dictionary.get?_empty] at h
  cases h

/-- A new binding adds one demand. -/
theorem agreesWith_insert {bindings : Bindings} {name : String} (value : Value)
    (hfree : bindings.get? name = none) (assignment : Assignment) :
    AgreesWith (bindings.insert name value) assignment ↔
      bindings.AgreesWith assignment ∧ assignment name = value := by
  constructor
  · intro h
    refine ⟨fun other bound hother => ?_, h name value (by rw [Dictionary.get?_insert, if_pos rfl])⟩
    have hne : other ≠ name := by
      rintro rfl
      rw [hfree] at hother
      cases hother
    exact h other bound (by rw [Dictionary.get?_insert, if_neg hne, hother])
  · rintro ⟨h, hname⟩ other bound hother
    rw [Dictionary.get?_insert] at hother
    split at hother
    · rename_i heq
      rw [heq, hname, Option.some.inj hother]
    · exact h other bound hother

theorem get?_of_contains {bindings : Bindings} {assignment : Assignment} {name : String}
    (hagrees : bindings.AgreesWith assignment) (hbound : bindings.contains name = true) :
    bindings.get? name = some (assignment name) := by
  obtain ⟨value, hvalue⟩ := Option.isSome_iff_exists.1 hbound
  rw [hvalue, hagrees name value hvalue]

end Bindings

namespace Value

theorem isNil_eq_true_iff {value : Value} : value.isNil = true ↔ value = .nil := by
  cases value <;> simp [isNil]

end Value

namespace Pattern

/-- Does a field value pass the test under an assignment? -/
def Holds (assignment : Assignment) (value : Value) : Pattern → Prop
  | .literal demanded => demanded = value
  | .variable name => assignment name = value
  | .absent => value = .nil

/-- What unifying one test leaves: the assignments under which the test holds. -/
theorem agreesWith_of_unify {pattern : Pattern} {value : Value} {bindings extended : Bindings}
    (h : pattern.unify value bindings = some extended) (assignment : Assignment) :
    extended.AgreesWith assignment ↔ bindings.AgreesWith assignment ∧ pattern.Holds assignment value := by
  cases pattern with
  | literal demanded =>
      simp only [unify, Option.ite_none_right_eq_some, Option.some.injEq] at h
      obtain ⟨hvalue, rfl⟩ := h
      simp only [Holds, hvalue, and_true]
  | absent =>
      simp only [unify, Option.ite_none_right_eq_some, Option.some.injEq, Value.isNil_eq_true_iff] at h
      obtain ⟨hvalue, rfl⟩ := h
      simp only [Holds, hvalue, and_true]
  | «variable» name =>
      simp only [unify] at h
      split at h
      · rename_i bound hbound
        simp only [Option.ite_none_right_eq_some, Option.some.injEq] at h
        obtain ⟨rfl, rfl⟩ := h
        exact ⟨fun hb => ⟨hb, hb name bound hbound⟩, fun hb => hb.1⟩
      · rename_i hfree
        obtain rfl := Option.some.inj h
        exact Bindings.agreesWith_insert value hfree assignment

/-- A test under which some agreeing assignment holds can be unified. -/
theorem isSome_unify_of_holds {pattern : Pattern} {value : Value} {bindings : Bindings}
    {assignment : Assignment} (hagrees : bindings.AgreesWith assignment)
    (hholds : pattern.Holds assignment value) : (pattern.unify value bindings).isSome = true := by
  cases pattern with
  | literal demanded => simp only [unify, if_pos (show demanded = value from hholds), Option.isSome_some]
  | absent => simp only [unify, if_pos (Value.isNil_eq_true_iff.2 hholds), Option.isSome_some]
  | «variable» name =>
      simp only [unify]
      split
      · rename_i bound hbound
        have : bound = value := (hagrees name bound hbound).symm.trans hholds
        simp only [if_pos this, Option.isSome_some]
      · rfl

/-- Unifying a test binds its variable, if it is one, and no other. -/
theorem contains_of_unify {pattern : Pattern} {value : Value} {bindings extended : Bindings}
    (h : pattern.unify value bindings = some extended) (name : String) :
    extended.contains name = true ↔ bindings.contains name = true ∨ pattern.variableName? = some name := by
  cases pattern with
  | literal demanded =>
      simp only [unify, Option.ite_none_right_eq_some, Option.some.injEq] at h
      simp [h.2, variableName?]
  | absent =>
      simp only [unify, Option.ite_none_right_eq_some, Option.some.injEq] at h
      simp [h.2, variableName?]
  | «variable» tested =>
      simp only [unify] at h
      split at h
      · rename_i bound hbound
        simp only [Option.ite_none_right_eq_some, Option.some.injEq] at h
        obtain ⟨-, rfl⟩ := h
        refine ⟨Or.inl, ?_⟩
        rintro (h | h)
        · exact h
        · obtain rfl := Option.some.inj h
          rw [Dictionary.contains, hbound, Option.isSome_some]
      · obtain rfl := Option.some.inj h
        simp only [Dictionary.contains, Dictionary.get?_insert, variableName?, Option.some.injEq]
        by_cases heq : name = tested
        · simp [heq]
        · simp [heq, Ne.symm heq]

end Pattern

namespace Condition

/-- Does a fact fulfil the condition under an assignment? -/
def Holds (condition : Condition) (assignment : Assignment) (fact : Fact) : Prop :=
  fact.type = condition.type ∧
    ∀ test ∈ condition.tests, test.2.Holds assignment (fact.get test.1)

theorem agreesWith_of_unifyTests {fact : Fact} {tests : List (String × Pattern)}
    {bindings extended : Bindings} (h : unifyTests fact tests bindings = some extended)
    (assignment : Assignment) :
    extended.AgreesWith assignment ↔
      bindings.AgreesWith assignment ∧ ∀ test ∈ tests, test.2.Holds assignment (fact.get test.1) := by
  induction tests generalizing bindings with
  | nil =>
      obtain rfl := Option.some.inj h
      simp
  | cons test tests ih =>
      obtain ⟨after, hafter, hrest⟩ := Option.bind_eq_some_iff.1 h
      rw [ih hrest, Pattern.agreesWith_of_unify hafter, List.forall_mem_cons, and_assoc]

theorem isSome_unifyTests_of_holds {fact : Fact} {tests : List (String × Pattern)} {bindings : Bindings}
    {assignment : Assignment} (hagrees : bindings.AgreesWith assignment)
    (hholds : ∀ test ∈ tests, test.2.Holds assignment (fact.get test.1)) :
    (unifyTests fact tests bindings).isSome = true := by
  induction tests generalizing bindings with
  | nil => rfl
  | cons test tests ih =>
      obtain ⟨hfirst, hrest⟩ := List.forall_mem_cons.1 hholds
      obtain ⟨after, hafter⟩ :=
        Option.isSome_iff_exists.1 (Pattern.isSome_unify_of_holds hagrees hfirst)
      have hagrees' : after.AgreesWith assignment :=
        (Pattern.agreesWith_of_unify hafter assignment).2 ⟨hagrees, hfirst⟩
      rw [unifyTests, hafter, Option.bind_some]
      exact ih hagrees' hrest

theorem contains_of_unifyTests {fact : Fact} {tests : List (String × Pattern)}
    {bindings extended : Bindings} (h : unifyTests fact tests bindings = some extended) (name : String) :
    extended.contains name = true ↔
      bindings.contains name = true ∨ name ∈ tests.filterMap fun test => test.2.variableName? := by
  induction tests generalizing bindings with
  | nil =>
      obtain rfl := Option.some.inj h
      simp
  | cons test tests ih =>
      obtain ⟨after, hafter, hrest⟩ := Option.bind_eq_some_iff.1 h
      rw [ih hrest, Pattern.contains_of_unify hafter, or_assoc]
      simp only [List.mem_filterMap, List.mem_cons, or_and_right, exists_or, exists_eq_left]

/-- What unifying a condition leaves: the assignments under which the fact fulfils it. -/
theorem agreesWith_of_unify {condition : Condition} {fact : Fact} {bindings extended : Bindings}
    (h : condition.unify fact bindings = some extended) (assignment : Assignment) :
    extended.AgreesWith assignment ↔ bindings.AgreesWith assignment ∧ condition.Holds assignment fact := by
  simp only [unify, Option.ite_none_right_eq_some] at h
  rw [agreesWith_of_unifyTests h.2, Holds]
  simp only [h.1, true_and]

theorem isSome_unify_of_holds {condition : Condition} {fact : Fact} {bindings : Bindings}
    {assignment : Assignment} (hagrees : bindings.AgreesWith assignment)
    (hholds : condition.Holds assignment fact) : (condition.unify fact bindings).isSome = true := by
  rw [unify, if_pos hholds.1]
  exact isSome_unifyTests_of_holds hagrees hholds.2

theorem contains_of_unify {condition : Condition} {fact : Fact} {bindings extended : Bindings}
    (h : condition.unify fact bindings = some extended) (name : String) :
    extended.contains name = true ↔ bindings.contains name = true ∨ name ∈ condition.variableNames := by
  simp only [unify, Option.ite_none_right_eq_some] at h
  exact contains_of_unifyTests h.2 name

end Condition

end ProductionSystem
