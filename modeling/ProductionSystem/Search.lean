import ProductionSystem.Condition
import ProductionSystem.Store

/-!
The search for facts that fulfil the conditions of a rule. Each condition takes one fact, all facts
have different ids, and a variable stands for the same value throughout. The search keeps a stack of
frames: a frame holds the facts taken so far and the candidates for the next condition that it has
not tried. A popped frame takes its first fitting candidate, goes back on the stack without it, and
puts a frame for the rest of the conditions on top. So the first match found is the first in the
order of the candidates, condition by condition. A budget bounds the number of popped frames.
-/

namespace ProductionSystem

/-- A fact that a condition may take. -/
structure Candidate where
  ref : FactRef
  fact : Fact

/-- A condition, and the facts that it may take, in order. -/
structure Goal where
  condition : Condition
  candidates : List Candidate

/-- The facts taken for the conditions of a rule, in their order, and the bindings they give. -/
structure Finding where
  facts : List FactRef
  bindings : Bindings
  deriving DecidableEq

namespace Goal

/-- May a frame that has taken the given facts take this one? -/
def admits (committed : List Candidate) (candidate : Candidate) : Bool :=
  !candidate.fact.retracted && committed.all fun taken => taken.fact.id ≠ candidate.fact.id

/-- The first candidate that fits, the bindings it gives, and the candidates after it. -/
def firstFit (condition : Condition) (committed : List Candidate) (bindings : Bindings) :
    List Candidate → Option (Candidate × Bindings × List Candidate)
  | [] => none
  | candidate :: rest =>
    if admits committed candidate then
      match condition.unify candidate.fact bindings with
      | some extended => some (candidate, extended, rest)
      | none => firstFit condition committed bindings rest
    else firstFit condition committed bindings rest

theorem length_firstFit_lt {condition : Condition} {committed : List Candidate} {bindings : Bindings}
    {untried rest : List Candidate} {candidate : Candidate} {extended : Bindings}
    (h : firstFit condition committed bindings untried = some (candidate, extended, rest)) :
    rest.length < untried.length := by
  induction untried with
  | nil => simp [firstFit] at h
  | cons first others ih =>
    simp only [firstFit] at h
    split at h
    · split at h
      · obtain ⟨-, -, rfl⟩ := Option.some.inj h |> Prod.mk.inj |>.imp id Prod.mk.inj
        exact Nat.lt_succ_self _
      · exact Nat.lt_succ_of_lt (ih h)
    · exact Nat.lt_succ_of_lt (ih h)

/-- A bound on the frames that a search for the goals pops. -/
def work : List Goal → Nat
  | [] => 1
  | goal :: goals => 1 + goal.candidates.length * (1 + work goals)

end Goal

/-- A state of the search that can be resumed. -/
structure Frame where
  /-- The conditions without a fact. -/
  goals : List Goal
  /-- The candidates for the first of them that were not tried. -/
  untried : List Candidate
  /-- The facts taken so far, in the order of the conditions. -/
  committed : List Candidate
  bindings : Bindings

namespace Frame

/-- The frame in which no candidate was tried. -/
def enter (goals : List Goal) (committed : List Candidate) (bindings : Bindings) : Frame where
  goals
  untried := match goals with
    | [] => []
    | goal :: _ => goal.candidates
  committed
  bindings

/-- What becomes of a popped frame. -/
inductive Expansion where
  /-- Every condition has a fact. -/
  | complete (finding : Finding)
  /-- No candidate is left. -/
  | exhausted
  /-- A candidate fits: the frame without it, and the frame that has taken it. -/
  | extended (parent child : Frame)

/-- Expands a popped frame. -/
def expand (frame : Frame) : Expansion :=
  match frame.goals with
  | [] => .complete ⟨frame.committed.map (·.ref), frame.bindings⟩
  | goal :: goals =>
    match Goal.firstFit goal.condition frame.committed frame.bindings frame.untried with
    | none => .exhausted
    | some (candidate, extended, rest) =>
      .extended { frame with untried := rest } (enter goals (frame.committed ++ [candidate]) extended)

/-- A bound on the frames that are popped before the frame is gone. -/
def work (frame : Frame) : Nat :=
  match frame.goals with
  | [] => 1
  | _ :: goals => 1 + frame.untried.length * (1 + Goal.work goals)

theorem work_pos (frame : Frame) : 0 < frame.work := by
  unfold work
  split <;> omega

theorem work_enter (goals : List Goal) (committed : List Candidate) (bindings : Bindings) :
    (enter goals committed bindings).work = Goal.work goals := by
  cases goals <;> rfl

/-- A frame has more work than the two frames it is expanded to. -/
theorem work_expand_lt {frame parent child : Frame} (h : frame.expand = .extended parent child) :
    child.work + parent.work < frame.work := by
  unfold expand at h
  split at h
  · cases h
  · rename_i goal goals hgoals
    split at h
    · cases h
    · rename_i candidate extended rest hfit
      obtain ⟨rfl, rfl⟩ := Expansion.extended.inj h
      have hlt := Nat.mul_le_mul_right (1 + Goal.work goals) (Goal.length_firstFit_lt hfit)
      rw [Nat.succ_mul] at hlt
      rw [work_enter]
      simp only [work, hgoals]
      omega

end Frame

namespace Search

/-- A bound on the frames that are popped before the stack is empty. -/
def work : List Frame → Nat
  | [] => 0
  | frame :: stack => frame.work + work stack

/-- How a search ended, and how many frames it popped. -/
structure Result where
  finding? : Option Finding
  frames : Nat
  deriving DecidableEq

/-- Is a number of frames beyond the budget? -/
def exceeds (budget : Option Nat) (frames : Nat) : Bool := budget.any (· < frames)

/-- Pops frames until one is complete, none is left, or the budget is exceeded. -/
def run (budget : Option Nat) (frames : Nat) : List Frame → Result
  | [] => ⟨none, frames⟩
  | frame :: stack =>
    if exceeds budget (frames + 1) then ⟨none, frames + 1⟩
    else
      match _h : frame.expand with
      | .complete finding => ⟨some finding, frames + 1⟩
      | .exhausted => run budget (frames + 1) stack
      | .extended parent child => run budget (frames + 1) (child :: parent :: stack)
termination_by stack => work stack
decreasing_by
  · have := frame.work_pos
    simp only [work]
    omega
  · have := Frame.work_expand_lt _h
    simp only [work]
    omega

theorem run_cons (budget : Option Nat) (frames : Nat) (frame : Frame) (stack : List Frame) :
    run budget frames (frame :: stack) =
      if exceeds budget (frames + 1) then ⟨none, frames + 1⟩
      else
        match frame.expand with
        | .complete finding => ⟨some finding, frames + 1⟩
        | .exhausted => run budget (frames + 1) stack
        | .extended parent child => run budget (frames + 1) (child :: parent :: stack) := by
  rw [run]
  split
  · rfl
  · split <;> rename_i hexpand <;> rw [hexpand]

/-- Searches for facts for all goals. -/
def start (budget : Option Nat) (goals : List Goal) : Result :=
  run budget 0 [Frame.enter goals [] Dictionary.empty]

end Search

end ProductionSystem
