import Mathlib.Data.List.Sort
import ProductionSystem.Proofs.LoadedDocuments

/-!
The order of rules. Rules are sorted by how specific they are, and rules that are equally specific stay in the order
in which they were added. So the order depends on the rules alone: adding rules in several parts, each of which is
followed by a sort, puts them where a single sort of all of them puts them.
-/

namespace ProductionSystem

section Sorting

variable {α : Type} {key : α → Nat}

theorem mem_iff_of_filter_eq {l l' : List α} (hfilter : ∀ k, l.filter (key · = k) = l'.filter (key · = k)) {a : α} :
    a ∈ l ↔ a ∈ l' := by
  have hat := congrArg (a ∈ ·) (hfilter (key a))
  simpa using hat

/-- Lists in falling order are equal if they have the same elements of each key, in the same order. -/
theorem eq_of_pairwise_of_filter_eq {l l' : List α} (h : l.Pairwise fun a b => key b ≤ key a)
    (h' : l'.Pairwise fun a b => key b ≤ key a)
    (hfilter : ∀ k, l.filter (key · = k) = l'.filter (key · = k)) : l = l' := by
  induction l generalizing l' with
  | nil =>
      refine (List.eq_nil_iff_forall_not_mem.2 fun a ha => ?_).symm
      exact List.not_mem_nil ((mem_iff_of_filter_eq hfilter).2 ha)
  | cons a l ih =>
      have hmem {c : α} : c ∈ a :: l ↔ c ∈ l' := mem_iff_of_filter_eq hfilter
      cases l' with
      | nil => exact absurd (hmem.1 List.mem_cons_self) List.not_mem_nil
      | cons b l' =>
          rw [List.pairwise_cons] at h h'
          have hab : key b ≤ key a := by
            rcases List.mem_cons.1 (hmem.2 List.mem_cons_self) with heq | hb
            · rw [heq]
            · exact h.1 b hb
          have hba : key a ≤ key b := by
            rcases List.mem_cons.1 (hmem.1 List.mem_cons_self) with heq | ha
            · rw [heq]
            · exact h'.1 a ha
          have hkey : key a = key b := Nat.le_antisymm hba hab
          obtain rfl : a = b := by
            have hat := hfilter (key a)
            rw [List.filter_cons_of_pos (by simp), List.filter_cons_of_pos (by simp [hkey])] at hat
            exact (List.cons.inj hat).1
          have htail (k : Nat) : l.filter (key · = k) = l'.filter (key · = k) := by
            have hat := hfilter k
            rw [List.filter_cons, List.filter_cons] at hat
            split at hat
            · exact (List.cons.inj hat).2
            · exact hat
          rw [ih h.2 h'.2 htail]

variable (key) in
theorem trans_of_key (a b c : α) (hab : decide (key b ≤ key a) = true) (hbc : decide (key c ≤ key b) = true) :
    decide (key c ≤ key a) = true :=
  decide_eq_true ((of_decide_eq_true hbc).trans (of_decide_eq_true hab))

variable (key) in
theorem total_of_key (a b : α) : (decide (key b ≤ key a) || decide (key a ≤ key b)) = true := by
  rw [Bool.or_eq_true, decide_eq_true_eq, decide_eq_true_eq]
  exact Nat.le_total (key b) (key a)

variable (key) in
/-- Sorting keeps the order of the elements of each key. -/
theorem filter_mergeSort (l : List α) (k : Nat) :
    (l.mergeSort fun a b => key b ≤ key a).filter (key · = k) = l.filter (key · = k) := by
  have hsublist : (l.filter (key · = k)).Sublist (l.mergeSort fun a b => key b ≤ key a) := by
    refine List.sublist_mergeSort (trans_of_key key) (total_of_key key) ?_ List.filter_sublist
    refine List.pairwise_of_forall_mem_list fun a ha b hb => ?_
    simp only [List.mem_filter, decide_eq_true_eq] at ha hb ⊢
    omega
  have hfiltered := hsublist.filter (key · = k)
  rw [List.filter_filter, List.filter_congr (fun a _ => Bool.and_self _)] at hfiltered
  refine (hfiltered.eq_of_length ?_).symm
  rw [((List.mergeSort_perm l _).filter _).length_eq]

variable (key) in
theorem pairwise_mergeSort_key (l : List α) :
    (l.mergeSort fun a b => key b ≤ key a).Pairwise fun a b => key b ≤ key a := by
  have hpairwise := List.pairwise_mergeSort (trans_of_key key) (total_of_key key) l
  simpa only [decide_eq_true_eq] using hpairwise

variable (key) in
/-- Elements that were sorted before more came are where a single sort puts them. -/
theorem mergeSort_mergeSort_append (l later : List α) :
    ((l.mergeSort fun a b => key b ≤ key a) ++ later).mergeSort (fun a b => key b ≤ key a) =
      (l ++ later).mergeSort fun a b => key b ≤ key a := by
  refine eq_of_pairwise_of_filter_eq (pairwise_mergeSort_key key _) (pairwise_mergeSort_key key _) fun k => ?_
  rw [filter_mergeSort, filter_mergeSort, List.filter_append, List.filter_append, filter_mergeSort]

end Sorting

namespace Engine

variable (engine : Engine) (rules later : List Rule)

theorem numbered_append :
    engine.numbered (rules ++ later) =
      engine.numbered rules ++ { engine with added := engine.added + rules.length }.numbered later := by
  rw [numbered, numbered, numbered, List.zipIdx_append, List.map_append]

theorem addRules_withStore (store : Store) :
    (engine.withStore store).addRules rules = (engine.addRules rules).withStore store := by
  rw [addRules_eq, addRules_eq]
  rfl

theorem store_addRules : (engine.addRules rules).store = engine.store := by
  rw [addRules_eq]
  rfl

/-- Rules that are added in two parts are where adding all of them at once puts them. -/
theorem addRules_append : engine.addRules (rules ++ later) = (engine.addRules rules).addRules later := by
  have hnumbered : (engine.addRules rules).numbered later =
      { engine with added := engine.added + rules.length }.numbered later := by
    rw [addRules_eq]
    rfl
  rw [addRules_eq (engine.addRules rules), hnumbered, addRules_eq engine, addRules_eq engine, numbered_append,
    ← List.append_assoc, List.length_append]
  cases hsort : engine.config.sortBySpecificity with
  | false => simp only [Bool.false_eq_true, if_false, Nat.add_assoc]
  | true =>
      have hsorted := mergeSort_mergeSort_append (fun source : RuleInstance => source.rule.specificity)
        (engine.rules ++ engine.numbered rules)
      simp only [if_true, Nat.add_assoc, hsorted]

end Engine

end ProductionSystem
