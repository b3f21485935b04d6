import Mathlib.Data.List.Perm.Basic
import Mathlib.Data.List.ReduceOption
import ProductionSystem.Proofs.ParallelMatch

/-!
Matching by workers, step by step. The loop hands the rules over one after the other, each with its position. A
worker takes a job when it likes, searches, and sends its answer when it likes. The loop goes on when every job of
this matching has answered. If one job is refused, however many were accepted before, the loop matches all rules
itself, and the accepted jobs are left behind: they are still done, but no one receives their answers. However
these steps are timed, the matches are those found rule by rule.
-/

namespace ProductionSystem

/-- A matching under way. A job that an earlier matching has left behind is `none`. -/
structure MatchSession where
  /-- The rules that are not handed over yet, each with its position. -/
  unsent : List (Nat × RuleInstance)
  pool : WorkerPool (Option (Nat × RuleInstance))
  /-- The jobs that workers are at. -/
  taken : List (Option (Nat × RuleInstance)) := []
  /-- The answers, in the order in which they have come in. -/
  answers : List (Nat × Option Match) := []
  /-- Was a job refused? -/
  refused : Bool := false

/-- A step of a matching. One that is not possible changes nothing. -/
inductive MatchStep where
  /-- The loop hands the next rule over. -/
  | submit
  /-- The pool refuses the next rule, for whatever reason. -/
  | refuse
  /-- An idle worker takes the next job. -/
  | take
  /-- A worker is done with its job, and sends the answer. -/
  | answer (index : Nat)

namespace MatchSession

/-- A matching begins, with jobs of earlier ones still in the pool. -/
def start (pool : WorkerPool (Nat × RuleInstance)) (leftover : Nat) (rules : List RuleInstance) : MatchSession where
  unsent := Match.numbered rules
  pool := { workers := pool.workers, accepting := pool.accepting, queue := List.replicate leftover none }

variable (budget : Option Nat) (view : View)

def step (session : MatchSession) : MatchStep → MatchSession
  | .submit =>
    match session.unsent with
    | [] => session
    | job :: unsent =>
      if session.refused then session
      else
        match session.pool.submit (some job) with
        | .ok pool => { session with unsent, pool }
        | .error _ => { session with refused := true }
  | .refuse => if session.unsent.isEmpty then session else { session with refused := true }
  | .take =>
    if session.taken.length < session.pool.workers then
      match session.pool.queue with
      | [] => session
      | job :: queue => { session with pool := { session.pool with queue }, taken := session.taken ++ [job] }
    else session
  | .answer index =>
    match session.taken[index]? with
    | none => session
    | some job =>
      { session with
        taken := session.taken.eraseIdx index
        answers := session.answers ++ (job.map (Match.answer budget view)).toList }

def run (session : MatchSession) (steps : List MatchStep) : MatchSession := steps.foldl (step budget view) session

/-- The jobs of this matching that have not answered. -/
def unanswered (session : MatchSession) : List (Nat × RuleInstance) :=
  (session.taken ++ session.pool.queue).reduceOption ++ session.unsent

/-- What the matching came to, once it has come to something. -/
def result? (rules : List RuleInstance) (session : MatchSession) : Option (List Match) :=
  if session.refused then some (Match.all budget view rules)
  else if session.unanswered.isEmpty then some (Match.gather session.answers)
  else none

variable {budget view}
variable {session : MatchSession} {rules : List RuleInstance}

/-- The answers that have come in, and those that are still to come, in some order. -/
def expected (budget : Option Nat) (view : View) (session : MatchSession) : List (Nat × Option Match) :=
  session.answers ++ session.unanswered.map (Match.answer budget view)

theorem expected_start (pool : WorkerPool (Nat × RuleInstance)) (leftover : Nat) (rules : List RuleInstance) :
    (start pool leftover rules).expected budget view = (Match.numbered rules).map (Match.answer budget view) := by
  rw [expected, unanswered, start, List.nil_append, List.nil_append, List.reduceOption_replicate_none,
    List.nil_append]

/-- No step loses an answer or doubles one. -/
theorem expected_step (session : MatchSession) (next : MatchStep) :
    ((session.step budget view next).expected budget view).Perm (session.expected budget view) := by
  obtain ⟨unsent, ⟨workers, accepting, queue⟩, taken, answers, refused⟩ := session
  cases next with
  | submit =>
      cases unsent with
      | nil => exact .refl _
      | cons job unsent =>
          cases refused with
          | true => exact .refl _
          | false =>
              cases accepting with
              | true =>
                  -- the first rule that is not handed over becomes the last job in the queue
                  simp only [step, WorkerPool.submit, if_true, Bool.false_eq_true, if_false, expected, unanswered,
                    List.reduceOption_append, List.reduceOption_singleton, Option.toList_some, List.append_assoc,
                    List.singleton_append]
                  exact .refl _
              | false => exact .refl _
  | refuse =>
      cases unsent with
      | nil => exact .refl _
      | cons job unsent => exact .refl _
  | take =>
      simp only [step]
      split
      · cases queue with
        | nil => exact .refl _
        | cons job queue =>
            simp only [expected, unanswered, List.append_assoc, List.singleton_append]
            exact .refl _
      · exact .refl _
  | answer index =>
      simp only [step]
      split
      · exact .refl _
      · rename_i job hjob
        obtain ⟨hindex, rfl⟩ := List.getElem?_eq_some_iff.1 hjob
        have htaken : taken.reduceOption.Perm (taken[index].toList ++ (taken.eraseIdx index).reduceOption) := by
          have hperm := (List.getElem_cons_eraseIdx_perm hindex).symm.filterMap id
          cases hat : taken[index] <;> simpa [hat, List.reduceOption] using hperm
        simp only [expected, unanswered, List.reduceOption_append, List.append_assoc]
        refine List.Perm.append_left _ ?_
        have hmap : (taken[index].map (Match.answer budget view)).toList =
            taken[index].toList.map (Match.answer budget view) := by cases taken[index] <;> rfl
        rw [hmap, ← List.map_append, ← List.append_assoc, ← List.append_assoc]
        exact ((htaken.symm.append_right _).append_right _).map _ |>.trans (by rw [List.append_assoc])

theorem expected_run (session : MatchSession) (steps : List MatchStep) :
    ((session.run budget view steps).expected budget view).Perm (session.expected budget view) := by
  induction steps generalizing session with
  | nil => exact .refl _
  | cons next steps ih => exact (ih (session.step budget view next)).trans (expected_step session next)

/-- What a matching comes to are the matches found rule by rule. -/
theorem eq_all_of_result? {pool : WorkerPool (Nat × RuleInstance)} {leftover : Nat} {steps : List MatchStep}
    {matched : List Match}
    (h : ((start pool leftover rules).run budget view steps).result? budget view rules = some matched) :
    matched = Match.all budget view rules := by
  have hexpected := @expected_run budget view (start pool leftover rules) steps
  rw [expected_start] at hexpected
  unfold result? at h
  split at h
  · exact (Option.some.inj h).symm
  · split at h
    · rename_i hempty
      rw [expected, List.isEmpty_iff.1 hempty, List.map_nil, List.append_nil] at hexpected
      rw [← Option.some.inj h, Match.gather_eq_all_of_perm hexpected]
    · cases h

section Progress

/-- A bound on the steps that can still be made before the matching comes to something. -/
def stepsLeft (session : MatchSession) : Nat :=
  3 * session.unsent.length + 2 * session.pool.queue.length + session.taken.length

/-- Are there workers for all that is accepted? A closed pool needs none. -/
structure Staffed (session : MatchSession) : Prop where
  workers : session.pool.accepting = true → 0 < session.pool.workers
  closed : session.pool.accepting = false → (session.taken ++ session.pool.queue).reduceOption = []

theorem staffed_start {pool : WorkerPool (Nat × RuleInstance)} (h : pool.accepting = true → 0 < pool.workers)
    (leftover : Nat) (rules : List RuleInstance) : (start pool leftover rules).Staffed where
  workers := h
  closed := fun _ => List.reduceOption_replicate_none

theorem staffed_step (h : session.Staffed) (next : MatchStep) : (session.step budget view next).Staffed := by
  obtain ⟨unsent, ⟨workers, accepting, queue⟩, taken, answers, refused⟩ := session
  obtain ⟨hworkers, hclosed⟩ := h
  cases next with
  | submit =>
      cases unsent with
      | nil => exact ⟨hworkers, hclosed⟩
      | cons job unsent =>
          cases refused with
          | true => exact ⟨hworkers, hclosed⟩
          | false =>
              cases accepting with
              | true => exact ⟨hworkers, fun haccepts => by cases haccepts⟩
              | false => exact ⟨hworkers, hclosed⟩
  | refuse => cases unsent <;> exact ⟨hworkers, hclosed⟩
  | take =>
      simp only [step]
      split
      · cases queue with
        | nil => exact ⟨hworkers, hclosed⟩
        | cons job queue =>
            refine ⟨hworkers, fun haccepts => ?_⟩
            have hnone := hclosed haccepts
            simpa only [List.append_assoc, List.singleton_append] using hnone
      · exact ⟨hworkers, hclosed⟩
  | answer index =>
      simp only [step]
      split
      · exact ⟨hworkers, hclosed⟩
      · refine ⟨hworkers, fun haccepts => ?_⟩
        have hnone := hclosed haccepts
        rw [List.reduceOption_append, List.append_eq_nil_iff] at hnone ⊢
        refine ⟨List.eq_nil_of_subset_nil ?_, hnone.2⟩
        exact hnone.1 ▸ ((List.eraseIdx_sublist taken index).filterMap id).subset

theorem staffed_run (h : session.Staffed) (steps : List MatchStep) : (session.run budget view steps).Staffed := by
  induction steps generalizing session with
  | nil => exact h
  | cons next steps ih => exact ih (staffed_step h next)

/-- As long as a matching has come to nothing, a step can be made that is not in vain. -/
theorem exists_step (h : session.Staffed) (hopen : session.result? budget view rules = none) :
    ∃ next, (session.step budget view next).refused = true ∨
      (session.step budget view next).stepsLeft < session.stepsLeft := by
  obtain ⟨unsent, ⟨workers, accepting, queue⟩, taken, answers, refused⟩ := session
  obtain ⟨hworkers, hclosed⟩ := h
  unfold result? at hopen
  cases refused with
  | true => cases hopen
  | false =>
      cases unsent with
      | cons job unsent =>
          refine ⟨.submit, ?_⟩
          cases accepting with
          | true =>
              right
              simp [step, WorkerPool.submit, stepsLeft]
              omega
          | false => exact .inl rfl
      | nil =>
          cases taken with
          | cons job taken =>
              refine ⟨.answer 0, .inr ?_⟩
              simp [step, stepsLeft]
          | nil =>
              cases queue with
              | nil => cases hopen
              | cons job queue =>
                  cases accepting with
                  | true =>
                      refine ⟨.take, .inr ?_⟩
                      simp [step, stepsLeft, hworkers rfl]
                      omega
                  | false =>
                      have hnone : (job :: queue).reduceOption = [] := hclosed rfl
                      simp [unanswered, hnone] at hopen

/-- However a matching stands, it can come to something. -/
theorem exists_result? (h : session.Staffed) :
    ∃ steps, ((session.run budget view steps).result? budget view rules).isSome = true := by
  induction hleft : session.stepsLeft using Nat.strongRecOn generalizing session with
  | ind left ih =>
      cases hopen : session.result? budget view rules with
      | some matched => exact ⟨[], by simp [run, hopen]⟩
      | none =>
          obtain ⟨next, hrefused | hless⟩ := @exists_step budget view session rules h hopen
          · refine ⟨[next], ?_⟩
            simp [run, result?, hrefused]
          · obtain ⟨steps, hsome⟩ := ih _ (hleft ▸ hless) (staffed_step h next) rfl
            exact ⟨next :: steps, hsome⟩

end Progress

end MatchSession

end ProductionSystem
