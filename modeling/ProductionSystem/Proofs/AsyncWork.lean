import ProductionSystem.Proofs.EnsembleFailures
import ProductionSystem.Proofs.JobRecords
import ProductionSystem.Proofs.Wakeups

/-!
The work of the workers is complete when a run ends. A run that halts or becomes quiescent returns when no ticket is
out, and every job keeps its ticket until it is over and reported. So whatever was left to the workers is done or was
turned away by then, whether in this run or in one before that stopped at its limit; and with no job left, the
turns of the workers do nothing until the next run.
-/

namespace ProductionSystem

namespace Ensemble

variable {ensemble after : Ensemble} {reading : Reading}

theorem point_of_returned {outcome : Outcome} (h : ensemble.returned = some outcome) :
    ensemble.point = .between (some outcome) := by
  unfold returned at h
  split at h
  · rename_i last hbetween
    rw [hbetween, h]
  · cases h

/-- A run has returned, unless it stopped at its limit, only when no ticket was out. -/
def Rested (ensemble : Ensemble) : Prop :=
  ∀ outcome, ensemble.returned = some outcome → outcome ≠ .stepLimit → ensemble.engine.executor.tickets = []

namespace Rested

theorem of_running (hreturned : ensemble.returned = none) : ensemble.Rested := by
  intro outcome hsome
  rw [hreturned] at hsome
  cases hsome

/-- A turn that leaves the loop where it stands, and brings no ticket. -/
theorem aside (h : ensemble.Rested) (hpoint : after.point = ensemble.point)
    (htickets : after.engine.executor.tickets.Sublist ensemble.engine.executor.tickets) : after.Rested := by
  intro outcome hreturned hover
  rw [returned, hpoint] at hreturned
  have hnone := h outcome hreturned hover
  rw [hnone] at htickets
  exact List.sublist_nil.1 htickets

/-- The loop returns at the end of a run when it has counted no ticket. -/
theorem loop (h : ensemble.Rested) (found : Option Match) : (ensemble.loop reading found).Rested := by
  obtain ⟨engine, point, limit, fired, deed, floor, outsiders, log⟩ := ensemble
  cases point with
  | between last => exact h
  | act firing actions =>
      refine of_running ?_
      rcases point_act ⟨engine, .act firing actions, limit, fired, deed, floor, outsiders, log⟩ reading rfl with
        ⟨next, rest, hnext⟩ | hnext
      · simp only [returned, Ensemble.loop, hnext]
      · simp only [returned, Ensemble.loop, hnext]
  | matching => cases found <;> exact of_running rfl
  | drain | readEpoch => exact of_running rfl
  | start | countTickets _ =>
      simp only [Ensemble.loop, look, Machine.loop]
      split
      · exact of_running rfl
      · split <;> exact of_running rfl
  | lookForFacts _ | lookForHalt _ | wait _ | listen _ | lookForHaltAgain | countTicketsAgain =>
      simp only [Ensemble.loop, look, Machine.loop]
      split <;> exact of_running rfl
  | close outcome =>
      cases outcome with
      | stepLimit => exact fun outcome hreturned hover => absurd (Option.some.inj hreturned).symm hover
      | halted | quiescent =>
          simp only [Ensemble.loop, look, Machine.loop]
          split
          · exact of_running rfl
          · rename_i hnone
            exact fun _ _ _ => List.eq_nil_of_length_eq_zero (Decidable.not_not.1 hnone)

theorem take (h : ensemble.Rested) : (ensemble.take reading).Rested :=
  take_cases h fun _ _ _ _ _ => h.aside rfl (List.Sublist.refl _)

theorem proceed (h : ensemble.Rested) (index : Nat) : (ensemble.proceed index).Rested := by
  refine proceed_cases ?nobody ?goes ?succeeds ?fails
  case nobody => exact h
  case goes => exact fun _ _ _ => h.aside rfl (List.Sublist.refl _)
  case succeeds => exact fun _ _ _ _ _ => h.aside rfl (List.Sublist.refl _)
  case fails => exact fun _ _ _ _ _ _ => h.aside rfl (List.Sublist.refl _)

theorem release (h : ensemble.Rested) (index : Nat) : (ensemble.release index).Rested := by
  refine release_cases h fun running hrunning _ => h.aside rfl ?_
  simp only [Crew.finish, crew, hrunning]
  exact List.erase_sublist

theorem outside (h : ensemble.Rested) (index : Nat) : (ensemble.outside index).Rested :=
  outside_cases h fun _ _ => h.aside rfl (List.Sublist.refl _)

theorem step (h : ensemble.Rested) (turn : Turn) : (ensemble.step reading turn).Rested := by
  cases turn with
  | errand errand =>
      simp only [Ensemble.step, attend]
      split
      · split
        · exact of_running rfl
        · exact h
      · exact h
  | begin limit =>
      simp only [Ensemble.step]
      split
      · exact of_running rfl
      · exact h
  | loop found => exact h.loop found
  | take => exact h.take
  | proceed index => exact h.proceed index
  | release index => exact h.release index
  | join script => exact h.aside rfl (List.Sublist.refl _)
  | outside index => exact h.outside index

theorem run (h : ensemble.Rested) (turns : List Turn) : (ensemble.run reading turns).Rested :=
  run_induction (fun _ turn h => h.step turn) h turns

end Rested

/-- Between two runs, with no job left. -/
structure Still (ensemble : Ensemble) : Prop where
  point : ∃ last, ensemble.point = .between last
  queue : ensemble.engine.executor.pool.queue = []
  running : ensemble.floor.running = []

namespace Still

/-- With no job left, there is nothing that a worker could do. -/
theorem step_eq (h : ensemble.Still) {turn : Turn} (hturn : turn.byWorkers = true) :
    ensemble.step reading turn = ensemble := by
  have hqueue := h.queue
  have hrunning := h.running
  cases turn with
  | errand _ | begin _ | loop _ | join _ | outside _ => cases hturn
  | take =>
      simp only [Ensemble.step, take, Crew.take, crew, hqueue]
      split <;> rfl
  | proceed index => simp only [Ensemble.step, proceed, hrunning, List.getElem?_nil]
  | release index => simp only [Ensemble.step, release, hrunning, List.getElem?_nil]

theorem step (h : ensemble.Still) {turn : Turn} (hturn : turn.begins = false) :
    (ensemble.step reading turn).Still := by
  obtain ⟨last, hpoint⟩ := h.point
  cases turn with
  | begin _ => cases hturn
  | take | proceed _ | release _ =>
      rw [h.step_eq rfl]
      exact h
  | errand errand =>
      simp only [Ensemble.step, hpoint, attend]
      split
      · cases errand with
        | program _ _ | drain | remove _ | forgetTemplates | forgetPending | forgetLive | forgetHistory | lower
        | dismiss => exact ⟨⟨none, rfl⟩, h.queue, h.running⟩
      · exact h
  | loop found =>
      simp only [Ensemble.step, Ensemble.loop, hpoint, look, Machine.loop]
      exact ⟨⟨last, rfl⟩, h.queue, h.running⟩
  | join script => exact ⟨⟨last, hpoint⟩, h.queue, h.running⟩
  | outside index =>
      simp only [Ensemble.step, outside]
      split
      · exact h
      · exact ⟨⟨last, hpoint⟩, h.queue, h.running⟩

/-- Until the next run, all goes as if there were no workers. -/
theorem run_eq (h : ensemble.Still) {turns : List Turn} (hturns : ∀ turn ∈ turns, turn.begins = false) :
    ensemble.run reading turns = ensemble.run reading (turns.filter fun turn => !turn.byWorkers) := by
  induction turns generalizing ensemble with
  | nil => rfl
  | cons turn turns ih =>
      obtain ⟨hturn, hrest⟩ := List.forall_mem_cons.1 hturns
      have hnext : (ensemble.step reading turn).run reading turns = _ := ih (h.step hturn) hrest
      cases hworkers : turn.byWorkers with
      | true =>
          rw [List.filter_cons_of_neg (by rw [hworkers]; exact Bool.false_ne_true)]
          rw [h.step_eq hworkers] at hnext
          exact (congrArg (run reading · turns) (h.step_eq hworkers)).trans hnext
      | false =>
          rw [List.filter_cons_of_pos (by rw [hworkers]; rfl)]
          exact hnext

end Still

/-- **When a run has ended, so has all that it left to the workers.** However the threads come between one
another: when a run has halted or is quiescent, no ticket is out. Every job that this run or an earlier one handed
over has been done, once, from its beginning to its end, or was turned away by a closed pool. Every fact that a
job made was enqueued exactly once, not counting calls that enqueue without making, and the failures of
jobs that failed or were turned away, since failures were last forgotten, are all reported. No such job
is ever under way again; and until the next run begins, all goes as if there were no workers. -/
theorem work_is_complete {config : Config} {turns : List Turn} {outcome : Outcome}
    (hreturned : ((new config).run reading turns).returned = some outcome) (hover : outcome ≠ .stepLimit) :
    let ensemble := (new config).run reading turns
    let floor := ensemble.floor
    let executor := ensemble.engine.executor
    executor.tickets = [] ∧
      (floor.submitted.Perm (floor.turnedAway ++ floor.done) ∧ (floor.submitted.map (·.1)).Nodup ∧
        floor.begun.Perm floor.done ∧
        ∀ refusal ∈ floor.rejected, refusal.cause = .shutdown ∧ executor.pool.accepting = false) ∧
      (∀ entry ∈ floor.finished,
        let ⟨_, job, progress⟩ := entry.1
        Thread.Follows (reading job.command job.args job.firing) progress.made progress.thread ∧
          progress.thread.result?.isSome ∧
          ∀ ref ∈ progress.made,
            (ensemble.log.left ++ ensemble.engine.store.pending).count ref = 1 + ensemble.log.offered.count ref) ∧
      ((floor.finished.drop ensemble.log.overBefore).filterMap (·.1.failure?) ++
        (floor.rejected.drop ensemble.log.awayBefore).map Refusal.failure).Subperm
          ensemble.engine.failures.toList ∧
      ∀ later, (∀ entry ∈ floor.submitted, entry ∉ (ensemble.run reading later).crew.underWay) ∧
        ((∀ turn ∈ later, turn.begins = false) →
          ensemble.run reading later = ensemble.run reading (later.filter fun turn => !turn.byWorkers)) := by
  intro ensemble floor executor
  have horder : ensemble.InOrder := (InOrder.new config).run turns
  have hrested : ensemble.Rested := Rested.run (fun _ hnone => by cases hnone) turns
  have hcounted : ensemble.Counted := (Counted.new config).run turns
  have hfollowed : ensemble.Followed reading := Followed.run config turns
  have htold : ensemble.Told := (Told.new config).run (InOrder.new config) turns
  have htickets : executor.tickets = [] := hrested outcome hreturned hover
  have hpoint := point_of_returned hreturned
  -- a job that is under way has a ticket out
  have hunderWay := horder.accounts.eq_nil_of_outstanding_eq_zero (congrArg List.length htickets)
  have hunfinished : ensemble.crew.unfinished = [] := (List.append_eq_nil_iff.1 hunderWay).2
  have hinHand : floor.inHand = [] := (List.append_eq_nil_iff.1 hunfinished).2
  have hrunning : floor.running = [] := List.map_eq_nil_iff.1 hinHand
  have hstill : ensemble.Still := ⟨⟨_, hpoint⟩, (List.append_eq_nil_iff.1 hunfinished).1, hrunning⟩
  have hsubmitted := horder.accounts.submitted.symm
  rw [hunderWay, List.nil_append] at hsubmitted
  have hbegun := horder.accounts.begun.symm
  have hdeed : ensemble.deed = .nothing := horder.deed (by rw [hpoint]; rfl)
  refine ⟨htickets, ⟨hsubmitted, horder.accounts.nodup_submitted, ?_, ?_⟩, ?_, ?_, fun later => ⟨?_, hstill.run_eq⟩⟩
  · rwa [show ensemble.crew.floor.inHand = [] from hinHand, List.nil_append] at hbegun
  · exact fun refusal hrefusal => horder.accounts.refusals refusal (List.mem_append_right _ hrefusal)
  · intro entry hentry
    have hmem : entry.1 ∈ ensemble.begun := List.mem_append_right _ (List.mem_map_of_mem hentry)
    exact ⟨hfollowed entry.1 hmem, htold.finished entry hentry, fun ref href => hcounted.count_of_made hmem href⟩
  · have hreported := htold.told
    simpa only [Ensemble.told, known, hdeed, Deed.due, List.nil_append,
      show ensemble.floor.running = [] from hrunning, List.filterMap_nil] using hreported
  · intro entry hentry
    have hsettled := (Remembers.run ensemble reading later).subset (hsubmitted.mem_iff.1 hentry)
    exact (horder.run later).not_underWay hsettled

/-- The worker does its job, and the run becomes quiescent. -/
def awoken : List Turn :=
  dozing ++ [.take, .proceed 0, .proceed 0, .release 0] ++ List.replicate 9 (.loop none)

theorem work_is_complete_awoken :
    let ensemble := (new .sequential).run Builtin.reading awoken
    ensemble.returned = some .quiescent ∧ Outcome.quiescent ≠ .stepLimit ∧
      ensemble.floor.finished.length = 1 ∧ ensemble.engine.executor.tickets = [] := by
  have hreturned : ((new .sequential).run Builtin.reading awoken).returned = some .quiescent := rfl
  have hover : Outcome.quiescent ≠ .stepLimit := by decide
  exact ⟨hreturned, hover, rfl, (work_is_complete hreturned hover).1⟩

end Ensemble

end ProductionSystem
