import ProductionSystem.Proofs.FirstMatch

/-!
The partial choices that the search visits: facts for some of the first conditions, which fulfil these. The recursion
visits a choice before those that go on from it, and the candidates of a condition in their order up to the first
that leads to a match. So it visits the partial choices in the lexicographic order of their positions, each once, and
exactly those that do not come behind the first choice for all conditions, if there is one.
-/

namespace ProductionSystem

section Prefixes

variable {α β : Type}

/-- The items of a list up to the first that is accepted, that one included. -/
def upTo (accepts : α → Bool) : List α → List α
  | [] => []
  | a :: rest => if accepts a then [a] else a :: upTo accepts rest

theorem upTo_sublist (accepts : α → Bool) (l : List α) : (upTo accepts l).Sublist l := by
  induction l with
  | nil => exact .slnil
  | cons a rest ih =>
      rw [upTo]
      split
      · exact (List.nil_sublist rest).cons_cons a
      · exact ih.cons_cons a

theorem upTo_append {accepts : α → Bool} {passed : List α} (hpassed : ∀ a ∈ passed, accepts a = false)
    (rest : List α) : upTo accepts (passed ++ rest) = passed ++ upTo accepts rest := by
  induction passed with
  | nil => rfl
  | cons a passed ih =>
      obtain ⟨ha, hpassed⟩ := List.forall_mem_cons.1 hpassed
      rw [List.cons_append, upTo, ha, if_neg Bool.false_ne_true, ih hpassed, List.cons_append]

theorem upTo_map (accepts : β → Bool) (f : α → β) (l : List α) :
    upTo accepts (l.map f) = (upTo (accepts ∘ f) l).map f := by
  induction l with
  | nil => rfl
  | cons a rest ih =>
      rw [List.map_cons, upTo, upTo, ih]
      split <;> simp_all

/-- In a list with rising keys, the items up to the first accepted are those without an accepted item before them. -/
theorem mem_upTo_iff {accepts : α → Bool} {key : α → Nat} {l : List α}
    (hrising : l.Pairwise fun a b => key a < key b) {a : α} :
    a ∈ upTo accepts l ↔ a ∈ l ∧ ∀ b ∈ l, key b < key a → accepts b = false := by
  induction l with
  | nil => exact ⟨nofun, nofun⟩
  | cons first rest ih =>
      obtain ⟨hfirst, hrising⟩ := List.pairwise_cons.1 hrising
      rw [upTo]
      cases haccepts : accepts first with
      | true =>
          rw [if_pos rfl, List.mem_singleton]
          constructor
          · rintro rfl
            refine ⟨List.mem_cons_self, List.forall_mem_cons.2 ⟨fun hlt => absurd hlt (Nat.lt_irrefl _), ?_⟩⟩
            exact fun b hb hlt => absurd hlt (Nat.lt_asymm (hfirst b hb))
          · rintro ⟨ha, hbefore⟩
            rcases List.mem_cons.1 ha with rfl | ha
            · rfl
            · exact absurd (hbefore first List.mem_cons_self (hfirst a ha)) (by rw [haccepts]; decide)
      | false =>
          rw [if_neg Bool.false_ne_true, List.mem_cons, ih hrising, List.forall_mem_cons, List.mem_cons]
          constructor
          · rintro (rfl | ⟨ha, hbefore⟩)
            · exact ⟨.inl rfl, fun _ => haccepts, fun b hb hlt => absurd hlt (Nat.lt_asymm (hfirst b hb))⟩
            · exact ⟨.inr ha, fun _ => haccepts, hbefore⟩
          · rintro ⟨rfl | ha, -, hbefore⟩
            · exact .inl rfl
            · exact .inr ⟨ha, hbefore⟩

end Prefixes

theorem nil_le_positions (positions : List Nat) : [] ≤ positions := by
  cases positions with
  | nil => exact le_rfl
  | cons position rest => exact le_of_lt List.Lex.nil

theorem positions_cons_le_cons_iff {i j : Nat} {p q : List Nat} : i :: p ≤ j :: q ↔ i < j ∨ i = j ∧ p ≤ q := by
  constructor
  · intro h
    rcases le_iff_lt_or_eq.1 h with h | h
    · cases h with
      | rel hlt => exact .inl hlt
      | cons hlt => exact .inr ⟨rfl, le_of_lt hlt⟩
    · obtain ⟨rfl, rfl⟩ := List.cons.inj h
      exact .inr ⟨rfl, le_rfl⟩
  · rintro (hlt | ⟨rfl, h⟩)
    · exact le_of_lt (List.Lex.rel hlt)
    · exact List.cons_le_cons i h

namespace Goal

/-- The candidates of a goal, with their positions. -/
def picks (goal : Goal) : List Pick := goal.candidates.mapIdx Pick.mk

theorem mem_picks_iff {goal : Goal} {pick : Pick} : pick ∈ goal.picks ↔ goal.Offers pick := by
  rw [picks, List.mem_mapIdx, Offers, List.getElem?_eq_some_iff]
  constructor
  · rintro ⟨position, hposition, rfl⟩
    exact ⟨hposition, rfl⟩
  · rintro ⟨hposition, hcandidate⟩
    exact ⟨pick.position, hposition, by rw [hcandidate]⟩

theorem Offers.eq {goal : Goal} {pick other : Pick} (hoffers : goal.Offers pick) (hother : goal.Offers other)
    (hposition : pick.position = other.position) : pick = other := by
  cases pick
  cases other
  dsimp only at hposition
  subst hposition
  rw [Pick.mk.injEq]
  exact ⟨rfl, Option.some.inj (hoffers.symm.trans hother)⟩

theorem pairwise_picks (goal : Goal) : goal.picks.Pairwise fun a b => a.position < b.position := by
  rw [picks, List.pairwise_iff_getElem]
  intro i j hi hj hlt
  rw [List.getElem_mapIdx, List.getElem_mapIdx]
  exact hlt

/-- What the recursion finds from a candidate for the first condition on. -/
def solveWith (goal : Goal) (goals : List Goal) (committed : List Candidate) (bindings : Bindings)
    (candidate : Candidate) : Option Finding :=
  (fit goal.condition committed bindings candidate).bind (solve goals (committed ++ [candidate]))

/-- The partial choices that the recursion visits, in the order in which it does. -/
def visited : List Goal → List Candidate → Bindings → List (List Pick)
  | [], _, _ => [[]]
  | goal :: goals, committed, bindings =>
    [] :: (upTo (fun pick => (solveWith goal goals committed bindings pick.candidate).isSome) goal.picks).flatMap
      fun pick =>
        match fit goal.condition committed bindings pick.candidate with
        | none => []
        | some extended => (visited goals (committed ++ [pick.candidate]) extended).map (pick :: ·)

variable {goal : Goal} {goals : List Goal} {committed : List Candidate} {bindings : Bindings}

theorem mem_visited_cons_iff {picks : List Pick} :
    picks ∈ visited (goal :: goals) committed bindings ↔
      picks = [] ∨ ∃ pick rest extended, picks = pick :: rest ∧ goal.Offers pick ∧
        (∀ other, goal.Offers other → other.position < pick.position →
          solveWith goal goals committed bindings other.candidate = none) ∧
        fit goal.condition committed bindings pick.candidate = some extended ∧
        rest ∈ visited goals (committed ++ [pick.candidate]) extended := by
  rw [visited, List.mem_cons, List.mem_flatMap]
  simp only [mem_upTo_iff (pairwise_picks goal), mem_picks_iff, Option.isSome_eq_false_iff, Option.isNone_iff_eq_none]
  refine or_congr_right ⟨?_, ?_⟩
  · rintro ⟨pick, ⟨hoffers, hbefore⟩, hmem⟩
    cases hfit : fit goal.condition committed bindings pick.candidate with
    | none =>
        rw [hfit] at hmem
        exact absurd hmem List.not_mem_nil
    | some extended =>
        rw [hfit] at hmem
        obtain ⟨rest, hrest, rfl⟩ := List.mem_map.1 hmem
        exact ⟨pick, rest, extended, rfl, hoffers, hbefore, hfit, hrest⟩
  · rintro ⟨pick, rest, extended, rfl, hoffers, hbefore, hfit, hrest⟩
    refine ⟨pick, ⟨hoffers, hbefore⟩, ?_⟩
    rw [hfit]
    exact List.mem_map_of_mem hrest

/-- Answers that begin with a fitting candidate go on with answers under the bindings that it gives. -/
theorem answers_cons_iff_of_fit {pick : Pick} {rest : List Pick} {extended : Bindings} {assignment : Assignment}
    (hoffers : goal.Offers pick) (hfit : fit goal.condition committed bindings pick.candidate = some extended) :
    bindings.AgreesWith assignment ∧ Answers committed assignment (goal :: goals) (pick :: rest) ↔
      extended.AgreesWith assignment ∧ Answers (committed ++ [pick.candidate]) assignment goals rest := by
  obtain ⟨hadmits, hunify⟩ := Option.ite_none_right_eq_some.1 hfit
  rw [answers_cons_iff, Condition.agreesWith_of_unify hunify, and_assoc]
  simp only [hoffers, hadmits, true_and]

theorem exists_fit_of_answers {pick : Pick} {rest : List Pick} {assignment : Assignment}
    (hagrees : bindings.AgreesWith assignment) (h : Answers committed assignment (goal :: goals) (pick :: rest)) :
    goal.Offers pick ∧ ∃ extended, fit goal.condition committed bindings pick.candidate = some extended := by
  obtain ⟨hoffers, hadmits, hholds, -⟩ := answers_cons_iff.1 h
  obtain ⟨extended, hfit, -⟩ := exists_fit_of_holds hagrees hadmits hholds
  exact ⟨hoffers, extended, hfit⟩

/-- A candidate leads to a finding exactly if it starts an answer to all goals. -/
theorem solveWith_ne_none_iff {pick : Pick} (hoffers : goal.Offers pick) :
    solveWith goal goals committed bindings pick.candidate ≠ none ↔
      ∃ assignment rest, bindings.AgreesWith assignment ∧
        Answers committed assignment (goal :: goals) (pick :: rest) := by
  constructor
  · intro h
    obtain ⟨finding, hfinding⟩ := Option.ne_none_iff_exists'.1 h
    obtain ⟨extended, hfit, hsolve⟩ := Option.bind_eq_some_iff.1 hfinding
    obtain ⟨rest, hanswers, -⟩ := exists_answer_of_solve_eq_some hsolve
    have hfound := (hanswers _).1 finding.bindings.agreesWith_toAssignment
    exact ⟨_, rest, (answers_cons_iff_of_fit hoffers hfit).2 hfound⟩
  · rintro ⟨assignment, rest, hagrees, hanswers⟩ hnone
    obtain ⟨-, extended, hfit⟩ := exists_fit_of_answers hagrees hanswers
    obtain ⟨hextended, hrest⟩ := (answers_cons_iff_of_fit hoffers hfit).1 ⟨hagrees, hanswers⟩
    have hsome := isSome_solve_of_answers hextended hrest
    rw [solveWith, hfit, Option.bind_some] at hnone
    rw [hnone] at hsome
    cases hsome

/-- **What is visited**: the choices for some of the first goals that answer these, up to the first that answers all
goals. -/
theorem mem_visited_iff {picks : List Pick} :
    picks ∈ visited goals committed bindings ↔
      (∃ assignment, bindings.AgreesWith assignment ∧
        Answers committed assignment (goals.take picks.length) picks) ∧
      ∀ assignment others, bindings.AgreesWith assignment → Answers committed assignment goals others →
        picks.map (·.position) ≤ others.map (·.position) := by
  induction goals generalizing committed bindings picks with
  | nil =>
      rw [visited, List.mem_singleton]
      constructor
      · rintro rfl
        refine ⟨⟨_, bindings.agreesWith_toAssignment, answers_nil_iff.2 rfl⟩, fun _ others _ _ => ?_⟩
        exact nil_le_positions _
      · rintro ⟨⟨assignment, -, hanswers⟩, -⟩
        rw [List.take_nil] at hanswers
        exact answers_nil_iff.1 hanswers
  | cons goal goals ih =>
      rw [mem_visited_cons_iff]
      constructor
      · rintro (rfl | ⟨pick, rest, extended, rfl, hoffers, hbefore, hfit, hrest⟩)
        · refine ⟨⟨_, bindings.agreesWith_toAssignment, answers_nil_iff.2 rfl⟩, fun _ others _ _ => ?_⟩
          exact nil_le_positions _
        · obtain ⟨⟨assignment, hanswers⟩, hleast⟩ := ih.1 hrest
          refine ⟨⟨assignment, (answers_cons_iff_of_fit hoffers hfit).2 hanswers⟩, ?_⟩
          intro assignment others hagrees hothers
          obtain ⟨other, others, rfl⟩ := exists_cons_of_answers hothers
          have hother := (exists_fit_of_answers hagrees hothers).1
          rw [List.map_cons, List.map_cons, positions_cons_le_cons_iff]
          rcases Nat.lt_trichotomy pick.position other.position with hlt | heq | hgt
          · exact .inl hlt
          · obtain rfl := hoffers.eq hother heq
            obtain ⟨hextended, hothers⟩ := (answers_cons_iff_of_fit hoffers hfit).1 ⟨hagrees, hothers⟩
            exact .inr ⟨rfl, hleast assignment others hextended hothers⟩
          · -- the recursion would have stopped at the other candidate
            have hleads := (solveWith_ne_none_iff hother).2 ⟨assignment, others, hagrees, hothers⟩
            exact absurd (hbefore other hother hgt) hleads
      · rintro ⟨⟨assignment, hagrees, hanswers⟩, hleast⟩
        cases picks with
        | nil => exact .inl rfl
        | cons pick rest =>
            obtain ⟨hoffers, extended, hfit⟩ := exists_fit_of_answers hagrees hanswers
            have hrest := (answers_cons_iff_of_fit hoffers hfit).1 ⟨hagrees, hanswers⟩
            refine .inr ⟨pick, rest, extended, rfl, hoffers, fun other hother hlt => ?_, hfit,
              ih.2 ⟨⟨assignment, hrest⟩, fun assignment others hextended hothers => ?_⟩⟩
            · by_contra hleads
              obtain ⟨_, others, hagrees, hothers⟩ := (solveWith_ne_none_iff hother).1 hleads
              rcases positions_cons_le_cons_iff.1 (hleast _ _ hagrees hothers) with h | ⟨h, -⟩
              · exact Nat.lt_asymm h hlt
              · exact Nat.ne_of_gt hlt h
            · obtain ⟨hagrees, hothers⟩ := (answers_cons_iff_of_fit hoffers hfit).2 ⟨hextended, hothers⟩
              rcases positions_cons_le_cons_iff.1 (hleast assignment _ hagrees hothers) with h | ⟨-, h⟩
              · exact absurd h (Nat.lt_irrefl _)
              · exact h

/-- The choices are visited in the lexicographic order of their positions, each once. -/
theorem pairwise_visited (goals : List Goal) (committed : List Candidate) (bindings : Bindings) :
    (visited goals committed bindings).Pairwise fun a b => a.map (·.position) < b.map (·.position) := by
  induction goals generalizing committed bindings with
  | nil => exact List.pairwise_singleton _ _
  | cons goal goals ih =>
      have hstarts {pick : Pick} {picks : List Pick}
          (hmem : picks ∈ match fit goal.condition committed bindings pick.candidate with
            | none => []
            | some extended => (visited goals (committed ++ [pick.candidate]) extended).map (pick :: ·)) :
          ∃ rest, picks = pick :: rest := by
        split at hmem
        · exact absurd hmem List.not_mem_nil
        · obtain ⟨rest, -, rfl⟩ := List.mem_map.1 hmem
          exact ⟨rest, rfl⟩
      rw [visited, List.pairwise_cons, List.pairwise_flatMap]
      refine ⟨fun picks hpicks => ?_, fun pick _ => ?_, ?_⟩
      · obtain ⟨pick, -, hmem⟩ := List.mem_flatMap.1 hpicks
        obtain ⟨rest, rfl⟩ := hstarts hmem
        exact List.Lex.nil
      · split
        · exact .nil
        · rw [List.pairwise_map]
          exact (ih _ _).imp fun hlt => List.Lex.cons hlt
      · refine ((pairwise_picks goal).sublist (upTo_sublist _ _)).imp fun hlt picks hpicks others hothers => ?_
        obtain ⟨_, rfl⟩ := hstarts hpicks
        obtain ⟨_, rfl⟩ := hstarts hothers
        exact List.Lex.rel hlt

end Goal

end ProductionSystem
