import ProductionSystem.Proofs.Backtracking

/-!
The stack of the search, frame by frame. The frames that lie on it are one path into the tree of choices: each frame
was entered from the one below it with the fact that stands just before the cursor of that frame. What a frame has
tried besides either does not fit or was searched in vain. A step that pops a frame for good turns the fact on the path
into one that was searched in vain; a step that takes a fact turns the ones passed over into such that do not fit.
-/

namespace ProductionSystem

/-- What conditions and their facts bind, unified one after the other from no bindings. -/
def Condition.unifyAll (conditions : List Condition) (facts : List Fact) : Option Bindings :=
  (conditions.zip facts).foldlM (fun bindings entry => entry.1.unify entry.2 bindings) Dictionary.empty

theorem Condition.unifyAll_concat {conditions : List Condition} {facts : List Fact}
    (hlength : conditions.length = facts.length) (condition : Condition) (fact : Fact) :
    unifyAll (conditions ++ [condition]) (facts ++ [fact]) = (unifyAll conditions facts).bind (condition.unify fact) := by
  rw [unifyAll, List.zip_append hlength, List.foldlM_append, unifyAll]
  exact congrArg _ (funext fun bindings => Option.bind_fun_some _)

namespace Frame

/-- The candidates for the first condition without a fact. -/
def candidates (frame : Frame) : List Candidate :=
  match frame.goals with
  | [] => []
  | goal :: _ => goal.candidates

/-- How many of the candidates were tried. -/
def cursor (frame : Frame) : Nat := frame.candidates.length - frame.untried.length

/-- The frame that has taken a candidate, if the candidate extends the frame. -/
def child? (frame : Frame) (candidate : Candidate) : Option Frame :=
  match frame.goals with
  | [] => none
  | goal :: goals =>
    (Goal.fit goal.condition frame.committed frame.bindings candidate).map
      (enter goals (frame.committed ++ [candidate]))

/-- Is nothing found in the subtree of a frame? -/
def LeadsNowhere (frame : Frame) : Prop := (Search.run none 0 [frame]).finding? = none

/-- Does a candidate not extend the frame, or was its subtree searched in vain? -/
def Refutes (frame : Frame) (candidate : Candidate) : Prop :=
  frame.child? candidate = none ∨ ∃ child, frame.child? candidate = some child ∧ child.LeadsNowhere

variable {frame parent child : Frame}

theorem leadsNowhere_iff : frame.LeadsNowhere ↔ frame.solve = none := by
  rw [LeadsNowhere, Search.finding?_run_none, List.findSome?_eq_none_iff, List.forall_mem_singleton]

theorem refutes_iff {candidate : Candidate} :
    frame.Refutes candidate ↔ (frame.child? candidate).bind solve = none := by
  cases hchild : frame.child? candidate with
  | none => simp [Refutes, hchild]
  | some child => simp [Refutes, hchild, leadsNowhere_iff]

/-- A frame that has refuted all candidates that it has not tried leads nowhere. -/
theorem leadsNowhere_of_refutes (hgoals : frame.goals ≠ []) (h : ∀ candidate ∈ frame.untried, frame.Refutes candidate) :
    frame.LeadsNowhere := by
  obtain ⟨goal, goals, hcons⟩ := List.exists_cons_of_ne_nil hgoals
  rw [leadsNowhere_iff]
  simp only [solve, hcons, List.findSome?_eq_none_iff]
  intro candidate hmem
  have hrefutes := refutes_iff.1 (h candidate hmem)
  simp only [child?, hcons, Option.bind_map] at hrefutes
  rw [← hrefutes]
  exact congrArg _ (funext fun extended => (solve_enter _ _ _).symm)

theorem child?_eq_some_iff {candidate : Candidate} :
    frame.child? candidate = some child ↔
      ∃ goal goals extended, frame.goals = goal :: goals ∧
        Goal.fit goal.condition frame.committed frame.bindings candidate = some extended ∧
        child = enter goals (frame.committed ++ [candidate]) extended := by
  cases hgoals : frame.goals with
  | nil => simp [child?, hgoals]
  | cons goal goals =>
      simp only [child?, hgoals, Option.map_eq_some_iff, List.cons.injEq, exists_and_left, exists_eq_left', and_assoc]
      simp [eq_comm]

@[simp] theorem committed_enter (goals : List Goal) (committed : List Candidate) (bindings : Bindings) :
    (enter goals committed bindings).committed = committed := rfl

@[simp] theorem bindings_enter (goals : List Goal) (committed : List Candidate) (bindings : Bindings) :
    (enter goals committed bindings).bindings = bindings := rfl

theorem untried_enter (goals : List Goal) (committed : List Candidate) (bindings : Bindings) :
    (enter goals committed bindings).untried = (enter goals committed bindings).candidates := by
  cases goals <;> rfl

theorem child?_of_exhausted (h : frame.expand = .exhausted) :
    frame.goals ≠ [] ∧ ∀ candidate ∈ frame.untried, frame.child? candidate = none := by
  unfold expand at h
  split at h
  · cases h
  · rename_i goal goals hgoals
    split at h
    · rename_i hnone
      refine ⟨hgoals ▸ List.cons_ne_nil _ _, fun candidate hmem => ?_⟩
      simp only [child?, hgoals, Goal.firstFit_eq_none_iff.1 hnone candidate hmem, Option.map_none]
    · cases h

/-- An expanded frame has passed over what does not extend it, and goes back with what lies behind the candidate that
does. -/
theorem child?_of_extended (h : frame.expand = .extended parent child) :
    ∃ passed taken rest, frame.untried = passed ++ taken :: rest ∧ parent = { frame with untried := rest } ∧
      frame.child? taken = some child ∧ ∀ candidate ∈ passed, frame.child? candidate = none := by
  unfold expand at h
  split at h
  · cases h
  · rename_i goal goals hgoals
    split at h
    · cases h
    · rename_i taken extended rest hfirst
      obtain ⟨rfl, rfl⟩ := Expansion.extended.inj h
      obtain ⟨passed, hsplit, hfit, hpassed⟩ := Goal.exists_of_firstFit_eq_some hfirst
      refine ⟨passed, taken, rest, hsplit, rfl, ?_, fun candidate hmem => ?_⟩
      · simp only [child?, hgoals, hfit, Option.map_some]
      · simp only [child?, hgoals, hpassed candidate hmem, Option.map_none]

end Frame

namespace Search

/-- The stack after one more frame is popped, if the search is not over. -/
def next? : List Frame → Option (List Frame)
  | [] => none
  | frame :: stack =>
    match frame.expand with
    | .complete _ => none
    | .exhausted => some stack
    | .extended parent child => some (child :: parent :: stack)

/-- The stack after so many frames were popped, if the search is not over by then. -/
def stackAt (goals : List Goal) : Nat → Option (List Frame)
  | 0 => some [Frame.enter goals [] Dictionary.empty]
  | frames + 1 => (stackAt goals frames).bind next?

variable {goals : List Goal} {stack later : List Frame}

theorem run_eq_of_next? {budget : Option Nat} {frames : Nat} (hwithin : ¬exceeds budget (frames + 1) = true)
    (h : next? stack = some later) : run budget frames stack = run budget (frames + 1) later := by
  cases stack with
  | nil => cases h
  | cons frame stack =>
      rw [run_cons, if_neg hwithin]
      rw [next?] at h
      cases hexpand : frame.expand with
      | complete finding =>
          rw [hexpand] at h
          cases h
      | exhausted =>
          rw [hexpand] at h
          rw [Option.some.inj h]
      | extended parent child =>
          rw [hexpand] at h
          rw [← Option.some.inj h]

/-- As long as the budget lasts, the search goes on from the stack that it has come to. -/
theorem start_eq_of_stackAt {budget : Option Nat} {frames : Nat} (hwithin : ¬exceeds budget frames = true)
    (h : stackAt goals frames = some stack) : start budget goals = run budget frames stack := by
  induction frames generalizing stack with
  | zero =>
      obtain rfl := Option.some.inj h
      rfl
  | succ frames ih =>
      obtain ⟨before, hbefore, hnext⟩ := Option.bind_eq_some_iff.1 h
      have hearlier : ¬exceeds budget frames = true := by
        cases budget with
        | none => exact hwithin
        | some limit =>
            simp only [exceeds, Option.any_some, decide_eq_true_eq] at hwithin ⊢
            omega
      rw [ih hearlier hbefore, run_eq_of_next? hwithin hnext]

/-- Is a frame entered upon a stack that is a path to it? The stack has on top the frame that it was entered from,
which has tried the candidate on the path last and has refuted the ones before. -/
inductive Upon (goals : List Goal) : Frame → List Frame → Prop
  | root : Upon goals (Frame.enter goals [] Dictionary.empty) []
  | child {parent child : Frame} {below : List Frame} {tried rest : List Candidate} {taken : Candidate}
      (hparent : Upon goals parent below) (huntried : parent.untried = tried ++ taken :: rest)
      (htried : ∀ candidate ∈ tried, parent.Refutes candidate) (hchild : parent.child? taken = some child) :
      Upon goals child ({ parent with untried := rest } :: below)

/-- Is a stack a path, on whose last frame all candidates tried are refuted? -/
inductive IsPath (goals : List Goal) : List Frame → Prop
  | nil : IsPath goals []
  | cons {frame : Frame} {below : List Frame} {tried rest : List Candidate} (hframe : Upon goals frame below)
      (huntried : frame.untried = tried ++ rest) (htried : ∀ candidate ∈ tried, frame.Refutes candidate) :
      IsPath goals ({ frame with untried := rest } :: below)

theorem isPath_of_upon {frame : Frame} {below : List Frame} (h : Upon goals frame below) :
    IsPath goals (frame :: below) :=
  have hnone : frame.untried = [] ++ frame.untried := rfl
  .cons h hnone (List.forall_mem_nil _)

/-- **A step keeps the path.** -/
theorem IsPath.next (h : IsPath goals stack) (hnext : next? stack = some later) : IsPath goals later := by
  cases h with
  | nil => cases hnext
  | @cons frame below tried rest hframe huntried htried =>
      rw [next?] at hnext
      cases hexpand : Frame.expand { frame with untried := rest } with
      | complete finding =>
          rw [hexpand] at hnext
          cases hnext
      | exhausted =>
          rw [hexpand] at hnext
          obtain rfl := Option.some.inj hnext
          obtain ⟨hgoals, hrest⟩ := Frame.child?_of_exhausted hexpand
          have hnowhere : frame.LeadsNowhere := by
            refine Frame.leadsNowhere_of_refutes hgoals fun candidate hmem => ?_
            rw [huntried, List.mem_append] at hmem
            exact hmem.elim (htried candidate) fun hmem => .inl (hrest candidate hmem)
          cases hframe with
          | root => exact .nil
          | @child parent _ below earlier others taken hparent hbefore hearlier hchild =>
              -- the candidate on the path was searched in vain
              refine .cons hparent (by rw [hbefore, List.append_assoc, List.singleton_append])
                (List.forall_mem_append.2 ⟨hearlier, List.forall_mem_singleton.2 (.inr ⟨frame, hchild, hnowhere⟩)⟩)
      | extended parent child =>
          rw [hexpand] at hnext
          obtain rfl := Option.some.inj hnext
          obtain ⟨passed, taken, others, hsplit, rfl, hchild, hpassed⟩ := Frame.child?_of_extended hexpand
          have hbefore : frame.untried = (tried ++ passed) ++ taken :: others := by
            rw [huntried, List.append_assoc]
            exact congrArg (tried ++ ·) hsplit
          have hpath : Upon goals child ({ frame with untried := others } :: below) :=
            .child hframe hbefore (List.forall_mem_append.2 ⟨htried, fun other hmem => .inl (hpassed other hmem)⟩) hchild
          exact isPath_of_upon hpath

/-- The stack is a path at all times. -/
theorem isPath_stackAt {frames : Nat} (h : stackAt goals frames = some stack) : IsPath goals stack := by
  induction frames generalizing stack with
  | zero =>
      obtain rfl := Option.some.inj h
      exact isPath_of_upon .root
  | succ frames ih =>
      obtain ⟨before, hbefore, hnext⟩ := Option.bind_eq_some_iff.1 h
      exact (ih hbefore).next hnext

end Search

/-- What holds of a frame with so many frames below it, and maybe one above it, on the stack of a search for the
goals. -/
structure Frame.Stands (goals : List Goal) (depth : Nat) (above : Option Frame) (frame : Frame) : Prop where
  /-- The first goal without a fact is the one at the depth. -/
  goals_eq : frame.goals = goals.drop depth
  length_committed : frame.committed.length = depth
  bindings_eq :
    Condition.unifyAll ((goals.take depth).map (·.condition)) (frame.committed.map (·.fact)) = some frame.bindings
  untried_eq : frame.untried = frame.candidates.drop frame.cursor
  /-- The frame above has taken the candidate just before the cursor. -/
  committed_above : ∀ child ∈ above, ∃ taken, 0 < frame.cursor ∧
    frame.candidates[frame.cursor - 1]? = some taken ∧ child.committed = frame.committed ++ [taken]
  /-- All other candidates before the cursor are refuted. -/
  refutes : ∀ position candidate, position < frame.cursor → frame.candidates[position]? = some candidate →
    above.isSome = true ∧ position = frame.cursor - 1 ∨ frame.Refutes candidate

namespace Search.Upon

variable {goals : List Goal} {entered : Frame} {below : List Frame}

/-- A frame is entered for the goals that its stack leaves, with a candidate for each of the others. -/
theorem goals_eq (h : Upon goals entered below) :
    entered.goals = goals.drop below.length ∧ below.length ≤ goals.length := by
  induction h with
  | root => exact ⟨rfl, Nat.zero_le _⟩
  | @child parent child below tried rest taken _ _ _ hchild ih =>
      obtain ⟨goal, later, extended, hgoals, -, rfl⟩ := Frame.child?_eq_some_iff.1 hchild
      obtain ⟨hdrop, hle⟩ := ih
      rw [hgoals] at hdrop
      have hlater : later = goals.drop (below.length + 1) := by
        rw [← List.tail_drop, ← hdrop, List.tail_cons]
      have hlength := congrArg List.length hdrop
      rw [List.length_cons, List.length_drop] at hlength
      exact ⟨hlater, by rw [List.length_cons]; omega⟩

theorem length_committed (h : Upon goals entered below) : entered.committed.length = below.length := by
  induction h with
  | root => rfl
  | child _ _ _ hchild ih =>
      obtain ⟨_, _, _, -, -, rfl⟩ := Frame.child?_eq_some_iff.1 hchild
      rw [Frame.committed_enter, List.length_append, ih, List.length_singleton, List.length_cons]

theorem bindings_eq (h : Upon goals entered below) :
    Condition.unifyAll ((goals.take below.length).map (·.condition)) (entered.committed.map (·.fact)) =
      some entered.bindings := by
  induction h with
  | root => rfl
  | @child parent child below tried rest taken hparent _ _ hchild ih =>
      obtain ⟨goal, later, extended, hgoals, hfit, rfl⟩ := Frame.child?_eq_some_iff.1 hchild
      obtain ⟨-, hunify⟩ := Option.ite_none_right_eq_some.1 hfit
      have hgoal : goals[below.length]? = some goal := by
        rw [← List.head?_drop, ← hparent.goals_eq.1, hgoals, List.head?_cons]
      have hlength : ((goals.take below.length).map (·.condition)).length = (parent.committed.map (·.fact)).length := by
        rw [List.length_map, List.length_map, hparent.length_committed, List.length_take]
        exact Nat.min_eq_left hparent.goals_eq.2
      rw [List.length_cons, List.take_add_one, hgoal, Option.toList_some, List.map_append, List.map_singleton,
        Frame.committed_enter, List.map_append, List.map_singleton, Condition.unifyAll_concat hlength, ih,
        Option.bind_some, hunify, Frame.bindings_enter]

theorem untried_eq (h : Upon goals entered below) : entered.untried = entered.candidates := by
  cases h with
  | root => exact Frame.untried_enter _ _ _
  | child _ _ _ hchild =>
      obtain ⟨_, _, _, -, -, rfl⟩ := Frame.child?_eq_some_iff.1 hchild
      exact Frame.untried_enter _ _ _

variable {tried rest : List Candidate}

/-- What holds of a frame that has gone on from where it was entered. -/
theorem stands (h : Upon goals entered below) (huntried : entered.untried = tried ++ rest) {above : Option Frame}
    (habove : ∀ child ∈ above, ∃ earlier taken, tried = earlier ++ [taken] ∧
      child.committed = entered.committed ++ [taken])
    (htried : ∀ position candidate, tried[position]? = some candidate →
      above.isSome = true ∧ position = tried.length - 1 ∨ entered.Refutes candidate) :
    Frame.Stands goals below.length above { entered with untried := rest } := by
  have hcandidates : Frame.candidates { entered with untried := rest } = tried ++ rest :=
    h.untried_eq.symm.trans huntried
  have hcursor : Frame.cursor { entered with untried := rest } = tried.length := by
    rw [Frame.cursor, hcandidates, List.length_append, Nat.add_sub_cancel]
  refine ⟨h.goals_eq.1, h.length_committed, h.bindings_eq, ?_, fun child hchild => ?_, fun position candidate hlt hat => ?_⟩
  · rw [hcandidates, hcursor, List.drop_left]
  · obtain ⟨earlier, taken, rfl, hcommitted⟩ := habove child hchild
    refine ⟨taken, ?_, ?_, hcommitted⟩
    · rw [hcursor, List.length_append]
      exact Nat.succ_pos _
    · rw [hcursor, hcandidates, List.length_append, List.length_singleton, Nat.add_sub_cancel, List.append_assoc,
        List.getElem?_append_right (Nat.le_refl _), Nat.sub_self]
      rfl
  · rw [hcursor] at hlt ⊢
    rw [hcandidates, List.getElem?_append_left hlt] at hat
    exact htried position candidate hat

/-- What holds of the frames below the one on top. -/
theorem stands_below (h : Upon goals entered below) {top : Frame} (htop : top.committed = entered.committed)
    {above later : List Frame} {frame : Frame} (hsplit : top :: below = above ++ frame :: later) (habove : above ≠ []) :
    frame.Stands goals later.length above.getLast? := by
  induction h generalizing top above with
  | root =>
      obtain ⟨first, above, rfl⟩ := List.exists_cons_of_ne_nil habove
      have hlength := congrArg List.length hsplit
      simp at hlength
  | @child parent child below tried rest taken hparent huntried htried hchild ih =>
      obtain ⟨first, above, rfl⟩ := List.exists_cons_of_ne_nil habove
      obtain ⟨rfl, hbelow⟩ := List.cons.inj hsplit
      cases above with
      | nil =>
          obtain ⟨rfl, rfl⟩ := List.cons.inj hbelow
          obtain ⟨_, _, _, -, -, rfl⟩ := Frame.child?_eq_some_iff.1 hchild
          have hbefore : parent.untried = (tried ++ [taken]) ++ rest := by
            rw [huntried, List.append_assoc, List.singleton_append]
          refine hparent.stands hbefore ?_ ?_
          · rintro _ ⟨⟩
            exact ⟨tried, taken, rfl, htop⟩
          · intro position candidate hat
            rw [List.length_append, List.length_singleton, Nat.add_sub_cancel]
            rcases Nat.lt_or_ge position tried.length with hlt | hge
            · rw [List.getElem?_append_left hlt] at hat
              exact .inr (htried candidate (List.mem_of_getElem? hat))
            · have hlt := (List.getElem?_eq_some_iff.1 hat).choose
              rw [List.length_append, List.length_singleton] at hlt
              exact .inl ⟨rfl, by omega⟩
      | cons second above =>
          rw [List.getLast?_cons_cons]
          have hresumed : ({ parent with untried := rest } : Frame).committed = parent.committed := rfl
          exact ih hresumed hbelow (List.cons_ne_nil _ _)

end Search.Upon

/-- What holds of all frames of a path. -/
theorem Search.IsPath.stands {goals : List Goal} {stack : List Frame} (h : IsPath goals stack)
    {above below : List Frame} {frame : Frame} (hsplit : stack = above ++ frame :: below) :
    frame.Stands goals below.length above.getLast? := by
  cases h with
  | nil => simp at hsplit
  | @cons entered later tried rest hframe huntried htried =>
      cases above with
      | nil =>
          obtain ⟨rfl, rfl⟩ := List.cons.inj hsplit
          refine hframe.stands huntried (by rintro _ ⟨⟩) fun position candidate hat => ?_
          exact .inr (htried candidate (List.mem_of_getElem? hat))
      | cons first above =>
          have hresumed : ({ entered with untried := rest } : Frame).committed = entered.committed := rfl
          exact hframe.stands_below hresumed hsplit (List.cons_ne_nil _ _)

theorem Search.IsPath.length_le {goals : List Goal} {stack : List Frame} (h : IsPath goals stack) :
    stack.length ≤ goals.length + 1 := by
  cases h with
  | nil => exact Nat.zero_le _
  | cons hframe _ _ => exact Nat.succ_le_succ hframe.goals_eq.2

/-- **The stack of the search is a path.** Whenever the search for the conditions of a rule has popped so many frames and
is not over, it goes on, under every budget that lasts so far, from a stack with at most one frame more than there are
conditions. A frame with so many frames below it is at the condition of that number, and has taken that many facts. Its
bindings are what its conditions bind when they are unified with its facts one after the other. It has tried the
candidates before its cursor and no others. The frame above it has taken the same facts and the one just before the
cursor; each other candidate before the cursor does not extend the frame, or its subtree was searched in vain. -/
theorem search_stack_is_path (rule : Rule) (view : View) {frames : Nat} {stack : List Frame}
    (h : Search.stackAt (rule.goals view) frames = some stack) :
    (∀ budget, ¬Search.exceeds budget frames = true → rule.search budget view = Search.run budget frames stack) ∧
      stack.length ≤ rule.conditions.length + 1 ∧
      ∀ above frame below, stack = above ++ frame :: below →
        frame.Stands (rule.goals view) below.length above.getLast? := by
  have hpath := Search.isPath_stackAt h
  refine ⟨fun budget hwithin => Search.start_eq_of_stackAt hwithin h, ?_, fun above frame below hsplit => hpath.stands hsplit⟩
  have hlength : (rule.goals view).length = rule.conditions.length := List.length_map _
  rw [← hlength]
  exact hpath.length_le

/-- A rule for two facts of different types with the same number. -/
def numberRule : Rule where
  name := "number"
  conditions := [⟨"left", [("n", .variable "$n")]⟩, ⟨"right", [("n", .variable "$n")]⟩]

def numbered (index : Nat) (type : String) (n : Int64) : Candidate where
  ref := ⟨index⟩
  fact := { id := ⟨index.toUInt64⟩, type, fields := [("n", .int n)] }

/-- Of two facts on the left only the second has a partner. When four frames are popped, three lie on the stack, and the
first fact is refuted. -/
theorem search_stack_is_path_number :
    let view : View := fun type =>
      if type = "left" then [numbered 0 "left" 1, numbered 1 "left" 2] else [numbered 2 "right" 2]
    let goals := numberRule.goals view
    ∃ top middle root, Search.stackAt goals 4 = some [top, middle, root] ∧
      root.Stands goals 0 (some middle) ∧ middle.Stands goals 1 (some top) ∧ top.Stands goals 2 none ∧
      middle.committed = [numbered 1 "left" 2] ∧ root.cursor = 2 ∧ root.Refutes (numbered 0 "left" 1) := by
  intro view goals
  let bound : Bindings := Dictionary.empty.insert "$n" (.int 2)
  let root : Frame := ⟨goals, [], [], Dictionary.empty⟩
  let middle : Frame := ⟨goals.tail, [], [numbered 1 "left" 2], bound⟩
  let top : Frame := ⟨[], [], [numbered 1 "left" 2, numbered 2 "right" 2], bound⟩
  have hstack : Search.stackAt goals 4 = some [top, middle, root] := rfl
  obtain ⟨-, -, hstands⟩ := search_stack_is_path numberRule view hstack
  have hroot : root.Stands goals 0 (some middle) := hstands [top, middle] root [] rfl
  refine ⟨top, middle, root, hstack, hroot, hstands [top] middle [root] rfl, hstands [] top [middle, root] rfl, rfl, rfl, ?_⟩
  rcases hroot.refutes 0 (numbered 0 "left" 1) (by decide) rfl with ⟨-, hpath⟩ | hrefutes
  · cases hpath
  · exact hrefutes

end ProductionSystem
