import Mathlib.Data.List.Perm.Basic
import ProductionSystem.Proofs.Agenda
import ProductionSystem.Proofs.Interleaving

/-!
The tickets that are out. In every schedule they belong, one for one, to the jobs that are queued, taken, or
done without their ticket being back. So if no ticket is out, no job is under way, and nothing that a job does
is still to come.
-/

namespace ProductionSystem

namespace Executor

variable {J : Type} {executor : Executor J} {busy : List Ticket}

/-- Does every ticket that is out belong to a queued job or to one of the busy ones, and each of them have
one? -/
def Balanced (executor : Executor J) (busy : List Ticket) : Prop :=
  (executor.pool.queue.map (·.1) ++ busy).Perm executor.tickets

theorem balanced_submit (h : executor.Balanced busy) (store : Store) (rule : String) (job : J) :
    (executor.submit store rule job).2.1.Balanced busy := by
  let ticket : Ticket := ⟨executor.issued, rule⟩
  have hissued : (ticket :: (executor.pool.queue.map (·.1) ++ busy)).Perm (executor.tickets ++ [ticket]) :=
    (List.Perm.cons ticket h).trans (List.perm_append_singleton _ _).symm
  by_cases haccepts : executor.pool.accepting = true
  · simp only [submit, WorkerPool.submit, if_pos haccepts, Balanced, List.map_append, List.map_cons,
      List.map_nil, List.append_assoc, List.singleton_append]
    exact List.perm_middle.trans hissued
  · have hback := hissued.erase ticket
    rw [List.erase_cons_head] at hback
    simp only [submit, WorkerPool.submit, if_neg haccepts]
    exact hback

theorem balanced_release {ticket : Ticket} {index : Nat} (h : executor.Balanced busy)
    (hticket : busy[index]? = some ticket) (store : Store) :
    (executor.release store ticket).1.Balanced (busy.eraseIdx index) := by
  obtain ⟨hindex, hget⟩ := List.getElem?_eq_some_iff.1 hticket
  have hbusy : busy.Perm (ticket :: busy.eraseIdx index) := by
    rw [← hget]
    exact (List.getElem_cons_eraseIdx_perm hindex).symm
  have hout : (ticket :: (executor.pool.queue.map (·.1) ++ busy.eraseIdx index)).Perm executor.tickets :=
    ((hbusy.append_left _).trans List.perm_middle).symm.trans h
  have hback := hout.erase ticket
  rw [List.erase_cons_head] at hback
  exact hback

/-- If no ticket is out, no job is under way. -/
theorem eq_nil_of_outstanding_eq_zero (h : executor.Balanced busy) (hzero : executor.outstanding = 0) :
    executor.pool.queue = [] ∧ busy = [] := by
  have hlength := h.length_eq
  rw [List.length_append, List.length_map] at hlength
  have htickets : executor.tickets.length = 0 := hzero
  exact ⟨List.eq_nil_of_length_eq_zero (by omega), List.eq_nil_of_length_eq_zero (by omega)⟩

end Executor

namespace Engine

variable (engine : Engine)

/-- A dispatched action at most hands one job over. -/
theorem balanced_dispatch {busy : List Ticket} (h : engine.executor.Balanced busy) (firing : Firing)
    (action : Action) : (dispatch firing engine action).2.executor.Balanced busy := by
  unfold dispatch
  cases Param.resolveAll firing.bindings action.params with
  | error cause => exact h
  | ok args =>
      cases action.command.mode with
      | sync =>
          show (engine.exec action.command args firing).2.executor.Balanced busy
          rw [executor_exec]
          exact h
      | async =>
          have hsubmit := Executor.balanced_submit h engine.store firing.rule
            ⟨action.command, args, { firing with removals := [], onLoop := false }⟩
          show (engine.handOver action.command args firing).executor.Balanced busy
          unfold handOver
          dsimp only
          split <;> exact hsubmit

end Engine

namespace Machine

/-- What holds after every schedule. -/
structure Sound (config : Config) (machine : Machine) : Prop where
  config : machine.engine.config = config
  idle : ∀ pool ∈ machine.engine.matchers, pool.queue = []
  balanced : machine.engine.executor.Balanced (machine.taken.map (·.1) ++ machine.spent)

namespace Sound

variable {config : Config} {machine : Machine}

theorem new (config : Config) : (Machine.new config).Sound config where
  config := rfl
  idle := by
    intro pool hpool
    simp only [Machine.new, Engine.new] at hpool
    split at hpool
    · obtain rfl := Option.some.inj hpool
      rfl
    · cases hpool
  balanced := .refl _

/-- A move that leaves configuration and matchers alone and keeps the balance. -/
theorem of_eq (h : machine.Sound config) {next : Machine}
    (hconfig : next.engine.config = machine.engine.config)
    (hmatchers : next.engine.matchers = machine.engine.matchers)
    (hbalanced : next.engine.executor.Balanced (next.taken.map (·.1) ++ next.spent)) : next.Sound config where
  config := hconfig.trans h.config
  idle := by
    rw [hmatchers]
    exact h.idle
  balanced := hbalanced

/-- Only dispatching an action hands a job over. -/
theorem loop (h : machine.Sound config) : machine.loop.Sound config := by
  refine loop_moves (P := fun next => next.Sound config) machine (fun _ _ _ => h.of_eq rfl rfl h.balanced)
    (fun _ _ => h.of_eq rfl rfl h.balanced) (fun _ _ _ => h.of_eq rfl rfl h.balanced) fun firing action _ _ => ?_
  have hagenda := (Engine.Worked.dispatch machine.engine firing action).agenda_eq
  exact h.of_eq (congrArg Agenda.config hagenda) (congrArg Agenda.matchers hagenda)
    (machine.engine.balanced_dispatch h.balanced firing action)

theorem take (h : machine.Sound config) : machine.take.Sound config := by
  unfold Machine.take
  dsimp only
  split
  · exact h
  · rename_i job queue hqueue
    refine ⟨h.config, h.idle, ?_⟩
    have hbalanced := h.balanced
    unfold Executor.Balanced at hbalanced ⊢
    rw [hqueue, List.map_cons, List.cons_append] at hbalanced
    refine List.Perm.trans ?_ hbalanced
    rw [List.map_append, List.map_singleton, List.append_assoc, List.singleton_append, ← List.append_assoc,
      ← List.append_assoc]
    exact List.perm_middle

theorem perform (h : machine.Sound config) (index : Nat) : (machine.perform index).Sound config := by
  unfold Machine.perform
  split
  · exact h
  · rename_i job hjob
    have hagenda := (Engine.Worked.exec machine.engine job.2.command job.2.args job.2.firing).agenda_eq
    refine h.of_eq (congrArg Agenda.config hagenda) (congrArg Agenda.matchers hagenda) ?_
    obtain ⟨hindex, hget⟩ := List.getElem?_eq_some_iff.1 hjob
    have htaken : (job :: machine.taken.eraseIdx index).Perm machine.taken := by
      rw [← hget]
      exact List.getElem_cons_eraseIdx_perm hindex
    rw [Engine.executor_exec]
    have hbalanced := h.balanced
    unfold Executor.Balanced at hbalanced ⊢
    refine List.Perm.trans (List.Perm.append_left _ ?_) hbalanced
    refine List.Perm.trans ?_ ((htaken.map (·.1)).append_right machine.spent)
    rw [← List.append_assoc, List.map_cons, List.cons_append]
    exact List.perm_append_singleton _ _

theorem release (h : machine.Sound config) (index : Nat) : (machine.release index).Sound config := by
  unfold Machine.release
  split
  · exact h
  · rename_i ticket hticket
    refine ⟨h.config, h.idle, ?_⟩
    have hat : (machine.taken.map (·.1) ++ machine.spent)[(machine.taken.map (·.1)).length + index]? =
        some ticket := by
      rw [List.getElem?_append_right (Nat.le_add_right _ _), Nat.add_sub_cancel_left]
      exact hticket
    have hback := Executor.balanced_release h.balanced hat machine.engine.store
    rw [List.eraseIdx_append_of_length_le (Nat.le_add_right _ _), Nat.add_sub_cancel_left] at hback
    exact hback

theorem step (h : machine.Sound config) (move : Move) : (machine.step move).Sound config := by
  cases move with
  | loop => exact h.loop
  | take => exact h.take
  | perform index => exact h.perform index
  | release index => exact h.release index
  | receive signal => exact h.of_eq rfl rfl h.balanced
  | prepare engine =>
      unfold Machine.step
      dsimp only
      split
      · exact h.of_eq rfl rfl h.balanced
      · exact h
  | dismiss =>
      unfold Machine.step
      dsimp only
      split
      · exact ⟨h.config, fun _ hpool => (Option.not_mem_none _ hpool).elim, h.balanced⟩
      · exact h
  | begin limit =>
      unfold Machine.step
      dsimp only
      split
      · exact h.of_eq rfl rfl h.balanced
      · exact h

theorem run (h : machine.Sound config) (moves : List Move) : (machine.run moves).Sound config := by
  induction moves generalizing machine with
  | nil => exact h
  | cons move moves ih => exact ih (h.step move)

theorem nothing_under_way (h : machine.Sound config) (hzero : machine.engine.outstanding = 0) :
    machine.engine.backlog = 0 ∧ machine.taken = [] ∧ machine.spent = [] := by
  obtain ⟨hqueue, hbusy⟩ := Executor.eq_nil_of_outstanding_eq_zero h.balanced hzero
  obtain ⟨htaken, hspent⟩ := List.append_eq_nil_iff.1 hbusy
  exact ⟨congrArg List.length hqueue, List.map_eq_nil_iff.1 htaken, hspent⟩

end Sound

end Machine

end ProductionSystem
