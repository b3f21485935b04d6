import Mathlib.Data.List.Perm.Basic
import ProductionSystem.Proofs.FirstMatch

/-!
The order of the conditions. It decides which facts are tried first and which condition binds a variable, and so
which match is found. But what an answer has to be does not mention the order: the facts come from the candidates of
their conditions, no two of them are the same, and one assignment fulfils every condition. So an answer to the
conditions, put into another order with them, is an answer to the conditions in that order, and as the search misses
no answer, it finds a match in every order or in none.
-/

namespace ProductionSystem

namespace Goal

/-- An answer follows its goals into another order. -/
theorem Answers.perm {committed : List Candidate} {assignment : Assignment} {goals goals' : List Goal}
    {picks : List Pick} (h : Answers committed assignment goals picks) (hperm : goals'.Perm goals) :
    ∃ picks', picks'.Perm picks ∧ Answers committed assignment goals' picks' := by
  have hpaired : List.Forall₂ (fun goal pick => goal.Offers pick ∧ goal.condition.Holds assignment pick.candidate.fact)
      goals picks :=
    h.offered.mp (fun _ _ hoffers hholds => ⟨hoffers, hholds⟩) h.fulfilled
  obtain ⟨picks', hpaired', hpicks⟩ := List.perm_comp_forall₂ hperm hpaired
  refine ⟨picks', hpicks, hpaired'.imp fun _ _ h => h.1, fun pick hpick => ?_, ?_, fun taken htaken pick hpick => ?_,
    hpaired'.imp fun _ _ h => h.2⟩
  · exact h.unretracted pick (hpicks.mem_iff.1 hpick)
  · exact (hpicks.pairwise_iff fun hne => hne.symm).2 h.distinct
  · exact h.apart taken htaken pick (hpicks.mem_iff.1 hpick)

end Goal

namespace Rule

theorem goals_perm {rule rule' : Rule} (hperm : rule'.conditions.Perm rule.conditions) (view : View) :
    (rule'.goals view).Perm (rule.goals view) :=
  hperm.map _

theorem mem_variableNames_iff_of_perm {rule rule' : Rule} (hperm : rule'.conditions.Perm rule.conditions)
    (name : String) : name ∈ rule'.variableNames ↔ name ∈ rule.variableNames := by
  rw [variableNames, variableNames, List.mem_eraseDups, List.mem_eraseDups]
  exact (hperm.flatMap_right _).mem_iff

end Rule

theorem RuleInstance.isSome_match?_of_perm {source source' : RuleInstance}
    (hperm : source'.rule.conditions.Perm source.rule.conditions) {view : View}
    (h : (source.match? none view).isSome = true) : (source'.match? none view).isSome = true := by
  obtain ⟨assignment, picks, hanswers⟩ := isSome_match?_iff.1 h
  obtain ⟨picks', -, hanswers'⟩ := hanswers.perm (Rule.goals_perm hperm view)
  exact isSome_match?_iff.2 ⟨assignment, picks', hanswers'⟩

/-- **The order of the conditions does not decide whether a rule matches.** Take two rules with the same conditions in
different orders, and any candidates, such as the live facts of a snapshot. Without a budget, a match is found for the
one if and only if a match is found for the other, and both matches bind the same variables: those of the rule. -/
theorem matching_ignores_condition_order {source source' : RuleInstance}
    (hperm : source'.rule.conditions.Perm source.rule.conditions) (view : View) :
    ((source'.match? none view).isSome = true ↔ (source.match? none view).isSome = true) ∧
      ∀ found found', source.match? none view = some found → source'.match? none view = some found' →
        ∀ name, (found'.bindings.contains name = true ↔ found.bindings.contains name = true) ∧
          (found.bindings.contains name = true ↔ name ∈ source.rule.variableNames) := by
  refine ⟨⟨RuleInstance.isSome_match?_of_perm hperm.symm, RuleInstance.isSome_match?_of_perm hperm⟩, ?_⟩
  intro found found' hfound hfound' name
  obtain ⟨_, -, -, hbound, -⟩ := RuleInstance.exists_answer_of_match?_eq_some hfound
  obtain ⟨_, -, -, hbound', -⟩ := RuleInstance.exists_answer_of_match?_eq_some hfound'
  refine ⟨?_, hbound name⟩
  rw [hbound, hbound', Rule.mem_variableNames_iff_of_perm hperm]

/-- Somebody gives what somebody else wants. -/
def bargain (conditions : List Condition) : RuleInstance where
  serial := 0
  rule := { name := "bargain", conditions }

/-- Somebody who gives one good and wants another. -/
def trader (index : Nat) (gives wants : String) : Candidate where
  ref := ⟨index⟩
  fact := { id := ⟨index.toUInt64⟩, type := "trader", fields := [("gives", .str gives), ("wants", .str wants)] }

/-- Who gives is found for the first trader in one order, who wants in the other: the matches take different traders
and bind the good to different values, but both bind it. -/
theorem matching_ignores_condition_order_bargain :
    let gives : Condition := ⟨"trader", [("gives", .variable "$good")]⟩
    let wants : Condition := ⟨"trader", [("wants", .variable "$good")]⟩
    let view : View := fun _ => [trader 0 "nails" "tar", trader 1 "rope" "nails", trader 2 "tar" "rope"]
    [wants, gives].Perm [gives, wants] ∧
      (((bargain [wants, gives]).match? none view).isSome = true ↔
        ((bargain [gives, wants]).match? none view).isSome = true) ∧
      ∃ found found', (bargain [gives, wants]).match? none view = some found ∧
        (bargain [wants, gives]).match? none view = some found' ∧
        found.facts = [⟨0⟩, ⟨1⟩] ∧ found'.facts = [⟨0⟩, ⟨2⟩] ∧
        found.bindings.get? "$good" = some (.str "nails") ∧ found'.bindings.get? "$good" = some (.str "tar") ∧
        ∀ name, found'.bindings.contains name = true ↔ found.bindings.contains name = true := by
  intro gives wants view
  have hperm : [wants, gives].Perm [gives, wants] := .swap gives wants []
  obtain ⟨hfinds, hbinds⟩ :=
    @matching_ignores_condition_order (bargain [gives, wants]) (bargain [wants, gives]) hperm view
  have hfound : (bargain [gives, wants]).match? none view =
      some ⟨bargain [gives, wants], [⟨0⟩, ⟨1⟩], Dictionary.empty.insert "$good" (.str "nails")⟩ := by
    rw [RuleInstance.match?_none]
    rfl
  have hfound' : (bargain [wants, gives]).match? none view =
      some ⟨bargain [wants, gives], [⟨0⟩, ⟨2⟩], Dictionary.empty.insert "$good" (.str "tar")⟩ := by
    rw [RuleInstance.match?_none]
    rfl
  exact ⟨hperm, hfinds, _, _, hfound, hfound', rfl, rfl, rfl, rfl, fun name => (hbinds _ _ hfound hfound' name).1⟩

end ProductionSystem
