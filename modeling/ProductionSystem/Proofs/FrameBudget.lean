import ProductionSystem.Proofs.ParallelMatch
import ProductionSystem.Proofs.PartialChoices

/-!
How many frames the search pops. A frame is popped once when it is new, once more after each of its children that
led nowhere, and not again after one that led to a match. So a search that finds nothing pops two frames for each
partial choice that it visits, but one for the empty choice, and a search that finds a match saves the returns to the
frames on the way to it. A budget cuts the search off exactly if it is smaller than that number.
-/

namespace ProductionSystem

namespace Goal

theorem map_candidate_picks (goal : Goal) : goal.picks.map (·.candidate) = goal.candidates := by
  refine List.ext_getElem (by rw [List.length_map, picks, List.length_mapIdx]) fun i hi hj => ?_
  rw [List.getElem_map]
  simp only [picks, List.getElem_mapIdx]

/-- The facts taken by the partial choices that the recursion visits when it takes a candidate for the first goal. -/
def visitedWith (goal : Goal) (goals : List Goal) (committed : List Candidate) (bindings : Bindings)
    (candidate : Candidate) : List (List Candidate) :=
  match fit goal.condition committed bindings candidate with
  | none => []
  | some extended =>
    let committed := committed ++ [candidate]
    (visited goals committed extended).map fun picks => committed ++ picks.map (·.candidate)

end Goal

namespace Frame

/-- The facts taken by the partial choices that the recursion visits from the untried candidates of a frame on. -/
def below (frame : Frame) : List (List Candidate) :=
  match frame.goals with
  | [] => []
  | goal :: goals =>
    (upTo (fun candidate => (goal.solveWith goals frame.committed frame.bindings candidate).isSome)
      frame.untried).flatMap (goal.visitedWith goals frame.committed frame.bindings)

/-- What the recursion visits is the choice it starts from and what lies below it. -/
theorem map_visited (goals : List Goal) (committed : List Candidate) (bindings : Bindings) :
    (Goal.visited goals committed bindings).map (fun picks => committed ++ picks.map (·.candidate)) =
      committed :: (enter goals committed bindings).below := by
  cases goals with
  | nil => simp [Goal.visited, enter, below]
  | cons goal goals =>
      rw [Goal.visited, List.map_cons, List.map_flatMap, List.map_nil, List.append_nil]
      simp only [enter, below]
      rw [← goal.map_candidate_picks, upTo_map, List.flatMap_map]
      refine congrArg _ (List.flatMap_congr fun pick _ => ?_)
      cases hfit : Goal.fit goal.condition committed bindings pick.candidate with
      | none => simp [Goal.visitedWith, hfit]
      | some extended => simp [Goal.visitedWith, hfit]

theorem below_of_complete {frame : Frame} {finding : Finding} (h : frame.expand = .complete finding) :
    frame.goals = [] ∧ frame.below = [] := by
  unfold expand at h
  split at h
  · rename_i hgoals
    exact ⟨hgoals, by simp only [below, hgoals]⟩
  · split at h <;> cases h

theorem below_of_exhausted {frame : Frame} (h : frame.expand = .exhausted) : frame.below = [] := by
  unfold expand at h
  split at h
  · cases h
  · rename_i goal goals hgoals
    split at h
    · rename_i hnone
      have hunfit := Goal.firstFit_eq_none_iff.1 hnone
      simp only [below, hgoals, List.flatMap_eq_nil_iff]
      intro candidate hmem
      rw [Goal.visitedWith, hunfit candidate ((upTo_sublist _ _).subset hmem)]
    · cases h

/-- The choices below an expanded frame: the one that its child stands for, those below the child, and if the child
leads nowhere, those below what is left of the frame. -/
theorem below_of_extended {frame parent child : Frame} (h : frame.expand = .extended parent child) :
    parent.goals = frame.goals ∧ frame.goals.length = child.goals.length + 1 ∧
      frame.below = child.committed :: child.below ++ if child.solve.isSome then [] else parent.below := by
  unfold expand at h
  split at h
  · cases h
  · rename_i goal goals hgoals
    split at h
    · cases h
    · rename_i candidate extended rest hfirst
      obtain ⟨rfl, rfl⟩ := Expansion.extended.inj h
      obtain ⟨passed, hsplit, hfit, hpassed⟩ := Goal.exists_of_firstFit_eq_some hfirst
      refine ⟨rfl, by rw [hgoals]; rfl, ?_⟩
      have hpassed' (other : Candidate) (hother : other ∈ passed) :
          (goal.solveWith goals frame.committed frame.bindings other).isSome = false ∧
            goal.visitedWith goals frame.committed frame.bindings other = [] := by
        rw [Goal.solveWith, Goal.visitedWith, hpassed other hother]
        exact ⟨rfl, rfl⟩
      have hwith : goal.visitedWith goals frame.committed frame.bindings candidate =
          (frame.committed ++ [candidate]) :: (enter goals (frame.committed ++ [candidate]) extended).below := by
        rw [Goal.visitedWith, hfit]
        exact map_visited goals _ extended
      have hsolve : goal.solveWith goals frame.committed frame.bindings candidate =
          (enter goals (frame.committed ++ [candidate]) extended).solve := by
        rw [Goal.solveWith, hfit, Option.bind_some, solve_enter]
      simp only [below, hgoals]
      rw [hsplit, upTo_append fun other hother => (hpassed' other hother).1, List.flatMap_append,
        List.flatMap_eq_nil_iff.2 fun other hother => (hpassed' other hother).2, List.nil_append, upTo, hsolve]
      split
      · rw [List.flatMap_singleton, hwith, List.append_nil]
        rfl
      · rw [List.flatMap_cons, hwith]
        rfl

end Frame

namespace Search

/-- The facts taken by the partial choices that the search without a budget enters, one for each frame that it puts
on a frame that it has popped. -/
def entered : List Frame → List (List Candidate)
  | [] => []
  | frame :: stack =>
    match _h : frame.expand with
    | .complete _ => []
    | .exhausted => entered stack
    | .extended parent child => child.committed :: entered (child :: parent :: stack)
termination_by stack => work stack
decreasing_by
  · have := frame.work_pos
    simp only [work]
    omega
  · have := Frame.work_expand_lt _h
    simp only [work]
    omega

/-- The search enters what lies below its frames, up to the first from which something is found. -/
theorem entered_eq (stack : List Frame) :
    entered stack = (upTo (fun frame => frame.solve.isSome) stack).flatMap Frame.below := by
  fun_induction entered stack with
  | case1 => rfl
  | case2 frame stack finding hexpand =>
      rw [upTo, Frame.solve_of_complete hexpand, Option.isSome_some, if_pos rfl, List.flatMap_singleton,
        (Frame.below_of_complete hexpand).2]
  | case3 frame stack hexpand ih =>
      rw [ih, upTo, Frame.solve_of_exhausted hexpand, Option.isSome_none, if_neg Bool.false_ne_true,
        List.flatMap_cons, Frame.below_of_exhausted hexpand, List.nil_append]
  | case4 frame stack parent child hexpand ih =>
      obtain ⟨-, -, hbelow⟩ := Frame.below_of_extended hexpand
      rw [ih, upTo, upTo, upTo, Frame.solve_of_extended hexpand]
      cases hchild : child.solve with
      | some finding =>
          simp only [Option.some_or, Option.isSome_some, if_true, List.flatMap_singleton, hbelow, hchild,
            List.append_nil]
      | none =>
          cases hparent : parent.solve with
          | some finding =>
              simp only [Option.none_or, Option.isSome_some, Option.isSome_none, Bool.false_eq_true, if_true, if_false,
                List.flatMap_cons, List.flatMap_nil, hbelow, hchild, List.append_nil, List.cons_append]
          | none =>
              simp only [Option.none_or, Option.isSome_none, Bool.false_eq_true, if_false, List.flatMap_cons, hbelow,
                hchild, List.cons_append, List.append_assoc]

/-- How many frames are popped for a stack if a finding saves nothing. -/
def cost : List Frame → Nat
  | [] => 0
  | frame :: stack => 1 + 2 * frame.below.length + if frame.solve.isSome then 0 else cost stack

/-- How many returns a finding saves: one to each frame on the way to it. -/
def saving : List Frame → Nat
  | [] => 0
  | frame :: stack => if frame.solve.isSome then frame.goals.length else saving stack

/-- How many frames the search pops without a budget. -/
theorem frames_run_none (frames : Nat) (stack : List Frame) :
    (run none frames stack).frames + saving stack = frames + cost stack := by
  fun_induction run none frames stack with
  | case1 => rfl
  | case2 frames frame stack hexceeds => simp [exceeds] at hexceeds
  | case3 frames frame stack _ finding hexpand =>
      obtain ⟨hgoals, hbelow⟩ := Frame.below_of_complete hexpand
      rw [saving, cost, Frame.solve_of_complete hexpand, hgoals, hbelow]
      rfl
  | case4 frames frame stack _ hexpand ih =>
      rw [saving, cost, Frame.solve_of_exhausted hexpand, Frame.below_of_exhausted hexpand]
      simp only [Option.isSome_none, Bool.false_eq_true, if_false, List.length_nil]
      omega
  | case5 frames frame stack _ parent child hexpand ih =>
      obtain ⟨hgoals, hlength, hbelow⟩ := Frame.below_of_extended hexpand
      have hcount := congrArg List.length hbelow
      rw [List.length_append, List.length_cons] at hcount
      simp only [saving, cost, hgoals] at ih
      rw [saving, cost, Frame.solve_of_extended hexpand]
      cases hchild : child.solve with
      | some finding =>
          simp only [hchild, Option.some_or, Option.isSome_some, if_true, List.length_nil] at ih hcount ⊢
          omega
      | none =>
          simp only [hchild, Option.none_or, Option.isSome_none, Bool.false_eq_true, if_false] at ih hcount ⊢
          cases hparent : parent.solve with
          | some finding =>
              simp only [hparent, Option.isSome_some, if_true] at ih ⊢
              omega
          | none =>
              simp only [hparent, Option.isSome_none, Bool.false_eq_true, if_false] at ih ⊢
              omega

theorem le_frames_run (budget : Option Nat) (frames : Nat) (stack : List Frame) :
    frames ≤ (run budget frames stack).frames := by
  fun_induction run budget frames stack with
  | case1 => exact Nat.le_refl _
  | case2 | case3 => exact Nat.le_succ _
  | case4 frames frame stack _ hexpand ih => exact (Nat.le_succ _).trans ih
  | case5 frames frame stack _ parent child hexpand ih => exact (Nat.le_succ _).trans ih

/-- A budget cuts the search off, one frame beyond it, if the search pops more frames without it. Otherwise it changes
nothing. -/
theorem run_some_eq (budget frames : Nat) (stack : List Frame) (hframes : frames ≤ budget) :
    run (some budget) frames stack =
      if (run none frames stack).frames ≤ budget then run none frames stack else ⟨none, budget + 1⟩ := by
  have hwithin (frames : Nat) : ¬exceeds none frames = true := Bool.false_ne_true
  fun_induction run (some budget) frames stack with
  | case1 => rw [run, if_pos hframes]
  | case2 frames frame stack hexceeds =>
      have hlt : budget < frames + 1 := by simpa [exceeds] using hexceeds
      have hmore : frames + 1 ≤ (run none frames (frame :: stack)).frames := by
        rw [run_cons, if_neg (hwithin _)]
        split
        · exact Nat.le_refl _
        · exact le_frames_run _ _ _
        · exact le_frames_run _ _ _
      rw [if_neg (by omega), show frames = budget by omega]
  | case3 frames frame stack hexceeds finding hexpand =>
      have hle : frames + 1 ≤ budget := by simpa [exceeds] using hexceeds
      rw [run_cons, if_neg (hwithin _), hexpand, if_pos hle]
  | case4 frames frame stack hexceeds hexpand ih =>
      rw [ih (by simpa [exceeds] using hexceeds), run_cons, if_neg (hwithin _), hexpand]
  | case5 frames frame stack hexceeds parent child hexpand ih =>
      rw [ih (by simpa [exceeds] using hexceeds), run_cons none frames, if_neg (hwithin _), hexpand]

theorem start_some_eq (budget : Nat) (goals : List Goal) :
    start (some budget) goals =
      if (start none goals).frames ≤ budget then start none goals else ⟨none, budget + 1⟩ :=
  run_some_eq budget 0 _ (Nat.zero_le _)

/-- How many frames a search from the beginning pops: two for each choice that is visited but one for the empty
choice, and one less for each goal if something is found. -/
theorem frames_start_none (goals : List Goal) :
    (start none goals).frames + (if (start none goals).finding?.isSome then goals.length else 0) + 1 =
      2 * (Goal.visited goals [] Dictionary.empty).length := by
  have hcount := congrArg List.length (Frame.map_visited goals [] Dictionary.empty)
  rw [List.length_map, List.length_cons] at hcount
  have hframes := frames_run_none 0 [Frame.enter goals [] Dictionary.empty]
  rw [finding?_start_none]
  simp only [saving, cost, ite_self, Frame.solve_enter] at hframes
  rw [start, hcount]
  split
  · rename_i hsome
    rw [if_pos hsome] at hframes
    have hgoals : (Frame.enter goals [] Dictionary.empty).goals = goals := rfl
    rw [hgoals] at hframes
    omega
  · rename_i hnone
    rw [if_neg hnone] at hframes
    omega

end Search

variable {source : RuleInstance} {view : View} {found : Match} {budget : Nat}

theorem RuleInstance.isSome_finding? (source : RuleInstance) (budget : Option Nat) (view : View) :
    (source.rule.search budget view).finding?.isSome = (source.match? budget view).isSome :=
  Option.isSome_map.symm

/-- A budget that allows all frames that the search pops changes nothing, and a smaller one prevents a match. -/
theorem RuleInstance.match?_some_eq (source : RuleInstance) (view : View) (budget : Nat) :
    source.match? (some budget) view =
      if (source.rule.search none view).frames ≤ budget then source.match? none view else none := by
  rw [match?, match?, Rule.search, Rule.search, Search.start_some_eq]
  split
  · rfl
  · rfl

theorem RuleInstance.match?_none_of_some (h : source.match? (some budget) view = some found) :
    source.match? none view = some found := by
  rw [match?_some_eq] at h
  split at h
  · exact h
  · cases h

theorem RuleInstance.match?_mono {more : Nat} (hle : budget ≤ more)
    (h : source.match? (some budget) view = some found) : source.match? (some more) view = some found := by
  rw [match?_some_eq] at h ⊢
  split at h
  · rename_i hwithin
    rw [if_pos (hwithin.trans hle)]
    exact h
  · cases h

theorem Match.all_some_sublist (budget : Nat) (view : View) (rules : List RuleInstance) :
    (all (some budget) view rules).Sublist (all none view rules) := by
  induction rules with
  | nil => exact .slnil
  | cons source rules ih =>
      rw [all, all, List.filterMap_cons, List.filterMap_cons]
      cases hfound : source.match? (some budget) view with
      | some found =>
          rw [RuleInstance.match?_none_of_some hfound]
          exact ih.cons_cons found
      | none =>
          cases source.match? none view with
          | none => exact ih
          | some found => exact ih.cons found

/-- **The frame budget law.** The search for a rule visits partial choices of facts, each once and in the
lexicographic order of their positions: those that answer the first conditions and do not come behind the first
choice that answers all. Let `N` be their number, the empty choice included, and `k` the number of conditions. A
search that finds nothing pops `2 * N - 1` frames, and no budget makes it find something. A search that finds a match
pops `k` frames less; it finds this match under any budget of at least so many frames, and none under a smaller one.
So a larger budget only finds more, a budget never changes which match is found, and the matches of all rules under a
budget are some of those without one. -/
theorem frame_budget_law (source : RuleInstance) (view : View) :
    let goals := source.rule.goals view
    let visited := Goal.visited goals [] Dictionary.empty
    let N := visited.length
    let k := source.rule.conditions.length
    visited.map (·.map (·.candidate)) = [] :: Search.entered [Frame.enter goals [] Dictionary.empty] ∧
      visited.Pairwise (fun a b => a.map (·.position) < b.map (·.position)) ∧
      (∀ picks, picks ∈ visited ↔
        (∃ assignment, Goal.Answers [] assignment (goals.take picks.length) picks) ∧
          ∀ assignment others, Goal.Answers [] assignment goals others →
            picks.map (·.position) ≤ others.map (·.position)) ∧
      (source.match? none view = none →
        (source.rule.search none view).frames = 2 * N - 1 ∧ ∀ budget, source.match? (some budget) view = none) ∧
      (∀ found, source.match? none view = some found →
        (source.rule.search none view).frames = 2 * N - 1 - k ∧
          ∀ budget, source.match? (some budget) view = if 2 * N - 1 - k ≤ budget then some found else none) ∧
      (∀ budget more found, budget ≤ more → source.match? (some budget) view = some found →
        source.match? (some more) view = some found ∧ source.match? none view = some found) ∧
      ∀ budget rules workers, (∀ pool ∈ workers, pool.queue = []) →
        (Match.allBy workers (some budget) view rules).Sublist (Match.allBy workers none view rules) := by
  intro goals visited N k
  have hframes := Search.frames_start_none goals
  have hlength : goals.length = k := List.length_map _
  have hfound : (Search.start none goals).finding?.isSome = (source.match? none view).isSome :=
    source.isSome_finding? none view
  rw [hfound, hlength] at hframes
  refine ⟨?_, Goal.pairwise_visited goals [] _, fun picks => ?_, fun hnone => ?_, fun found hsome => ?_,
    fun budget more found hle h => ⟨RuleInstance.match?_mono hle h, RuleInstance.match?_none_of_some h⟩,
    fun budget rules workers hidle => ?_⟩
  · have hmap := Frame.map_visited goals [] Dictionary.empty
    rw [Search.entered_eq, upTo, upTo, ite_self, List.flatMap_singleton]
    exact hmap
  · simp only [visited, Goal.mem_visited_iff, Bindings.agreesWith_empty, true_and, true_implies]
  · have hcount : (source.rule.search none view).frames + 1 = 2 * N := by
      rw [hnone] at hframes
      exact hframes
    refine ⟨by omega, fun budget => ?_⟩
    rw [RuleInstance.match?_some_eq, hnone, ite_self]
  · have hcount : (source.rule.search none view).frames + k + 1 = 2 * N := by
      rw [hsome] at hframes
      exact hframes
    have hpopped : (source.rule.search none view).frames = 2 * N - 1 - k := by omega
    refine ⟨hpopped, fun budget => ?_⟩
    rw [← hpopped, ← hsome]
    exact source.match?_some_eq view budget
  · rw [Match.allBy_eq_all hidle, Match.allBy_eq_all hidle]
    exact Match.all_some_sublist budget view rules

/-- A rule for two items of one name. -/
def namesakes : RuleInstance where
  serial := 0
  rule := { name := "namesakes", conditions := List.replicate 2 ⟨"item", [("name", .variable "$n")]⟩ }

/-- An item with a name. -/
def namedItem (index : Nat) (name : String) : Candidate where
  ref := ⟨index⟩
  fact := { id := ⟨index.toUInt64⟩, type := "item", fields := [("name", .str name)] }

/-- Three items, of which the last two are namesakes. The search visits the empty choice, the first item, the second
and both namesakes; it pops five frames, and four are not enough. -/
theorem frame_budget_law_namesakes :
    let view : View := fun _ => [namedItem 0 "a", namedItem 1 "b", namedItem 2 "b"]
    (Goal.visited (namesakes.rule.goals view) [] Dictionary.empty).map (·.map (·.position)) = [[], [0], [1], [1, 2]] ∧
      (namesakes.match? none view).map (·.facts) = some [⟨1⟩, ⟨2⟩] ∧
      (namesakes.match? (some 5) view).map (·.facts) = some [⟨1⟩, ⟨2⟩] ∧ namesakes.match? (some 4) view = none := by
  intro view
  have hvisited : (Goal.visited (namesakes.rule.goals view) [] Dictionary.empty).map (·.map (·.position)) =
      [[], [0], [1], [1, 2]] := by decide
  have hlength := congrArg List.length hvisited
  rw [List.length_map] at hlength
  have hsolve : (Goal.solve (namesakes.rule.goals view) [] Dictionary.empty).map (·.facts) = some [⟨1⟩, ⟨2⟩] := by
    decide
  obtain ⟨finding, hfinding, hfacts⟩ := Option.map_eq_some_iff.1 hsolve
  have hfound := namesakes.match?_none view
  rw [hfinding, Option.map_some] at hfound
  obtain ⟨-, -, -, -, hbudget, -, -⟩ := frame_budget_law namesakes view
  obtain ⟨-, hbudget⟩ := hbudget _ hfound
  rw [hlength] at hbudget
  refine ⟨hvisited, ?_, ?_, ?_⟩
  · rw [hfound, ← hfacts]
    rfl
  · rw [hbudget, ← hfacts]
    rfl
  · rw [hbudget]
    rfl

end ProductionSystem
