import Mathlib.Data.List.Nodup
import Mathlib.Data.List.Perm.Basic
import ProductionSystem.Proofs.Crew

/-!
The accounts of a crew. However calls and jobs interleave, the tickets that are out are those of the jobs under
way: in a submit call, queued, or with a worker. Every other job that was submitted is over or was turned away, and
every accepted job is in one place: queued, with a worker, or over.
-/

namespace ProductionSystem

/-- An element picked out of a list by its index. -/
theorem perm_cons_eraseIdx {α : Type} {l : List α} {index : Nat} {a : α} (h : l[index]? = some a) :
    l.Perm (a :: l.eraseIdx index) := by
  obtain ⟨hindex, rfl⟩ := List.getElem?_eq_some_iff.1 h
  exact (List.getElem_cons_eraseIdx_perm hindex).symm

namespace Crew

variable {J W : Type} {crew : Crew J W}

/-- The accounts are in order. -/
structure Accounts (crew : Crew J W) : Prop where
  tickets : (crew.underWay.map (·.1)).Perm crew.executor.tickets
  serials : crew.floor.submitted.map (·.1.serial) = List.range crew.executor.issued
  submitted : (crew.underWay ++ (crew.floor.turnedAway ++ crew.floor.done)).Perm crew.floor.submitted
  accepted : (crew.unfinished ++ crew.floor.done).Perm crew.floor.accepted
  begun : (crew.floor.inHand ++ crew.floor.done).Perm crew.floor.begun
  /-- Only a closed pool refuses a job. -/
  refusals : ∀ refusal ∈ crew.floor.refused ++ crew.floor.rejected,
    refusal.cause = .shutdown ∧ crew.executor.pool.accepting = false

/-- Sending a job concerns the queue and the submit calls. -/
theorem exists_send_eq (crew : Crew J W) (index : Nat) :
    ∃ queue calling refused accepted,
      crew.send index =
        { crew with
          executor := { crew.executor with pool := { crew.executor.pool with queue } }
          floor := { crew.floor with calling, refused, accepted } } ∧
      calling.length + refused.length ≤ crew.floor.calling.length + crew.floor.refused.length := by
  cases hcall : crew.floor.calling[index]? with
  | none =>
      simp only [send, hcall]
      exact ⟨_, _, _, _, rfl, Nat.le_refl _⟩
  | some entry =>
      have hindex := (List.getElem?_eq_some_iff.1 hcall).1
      have hlength := List.length_eraseIdx_of_lt hindex
      cases haccepts : crew.executor.pool.accepting with
      | true =>
          rw [send_of_open hcall haccepts]
          exact ⟨_, _, _, _, rfl, by omega⟩
      | false =>
          rw [send_of_closed hcall haccepts]
          refine ⟨_, _, _, _, rfl, ?_⟩
          rw [List.length_append, List.length_singleton]
          omega

theorem unfinished_send {index : Nat} {entry : Ticket × J} (hcall : crew.floor.calling[index]? = some entry)
    (haccepts : crew.executor.pool.accepting = true) :
    (crew.send index).unfinished.Perm (entry :: crew.unfinished) := by
  rw [send_of_open hcall haccepts]
  simp only [unfinished, List.append_assoc, List.singleton_append]
  exact List.perm_middle

/-- Sending a job moves it, into the queue or to the refused ones. -/
theorem underWay_send (crew : Crew J W) (index : Nat) : (crew.send index).underWay.Perm crew.underWay := by
  cases hcall : crew.floor.calling[index]? with
  | none => simp only [send, hcall, List.Perm.refl]
  | some entry =>
      obtain ⟨ticket, job⟩ := entry
      have hpick := perm_cons_eraseIdx hcall
      classical
      refine List.perm_iff_count.2 fun other => ?_
      have hcount := hpick.count_eq other
      cases haccepts : crew.executor.pool.accepting with
      | true =>
          rw [send_of_open hcall haccepts]
          simp only [underWay, unfinished, Floor.inCalls, Floor.inHand, List.count_append, List.count_cons,
            List.count_nil] at hcount ⊢
          omega
      | false =>
          rw [send_of_closed hcall haccepts]
          simp only [underWay, unfinished, Floor.inCalls, Floor.inHand, List.map_append, List.map_cons, List.map_nil,
            Refusal.entry, List.count_append, List.count_cons, List.count_nil] at hcount ⊢
          omega

theorem underWay_giveBack {index : Nat} {refusal : Refusal J} (hrefused : crew.floor.refused[index]? = some refusal) :
    crew.underWay.Perm (refusal.entry :: (crew.giveBack index).underWay) := by
  have hpick := (perm_cons_eraseIdx hrefused).map Refusal.entry
  rw [giveBack_of_some hrefused]
  exact ((hpick.append_left _).trans List.perm_middle).append_right _

theorem unfinished_take (crew : Crew J W) (begin : J → W) : (crew.take begin).unfinished.Perm crew.unfinished := by
  unfold take
  dsimp only
  split
  · split
    · exact .refl _
    rename_i ticket job queue hqueue
    simp only [unfinished, Floor.inHand, hqueue, List.map_append, List.map_cons, List.map_nil, Running.entry,
      List.cons_append, ← List.append_assoc]
    exact List.perm_append_singleton _ _
  · exact .refl _

theorem unfinished_finish {index : Nat} {running : Running J W} (hrunning : crew.floor.running[index]? = some running)
    (ending : Ending) : crew.unfinished.Perm (running.entry :: (crew.finish index ending).unfinished) := by
  have hpick := (perm_cons_eraseIdx hrunning).map Running.entry
  simp only [finish, hrunning]
  exact (hpick.append_left _).trans List.perm_middle

/-- Going on with a job changes neither its ticket nor what the job is. -/
theorem inHand_set {index : Nat} {running : Running J W} (hrunning : crew.floor.running[index]? = some running)
    (progress : W) :
    (crew.floor.running.set index { running with progress }).map Running.entry = crew.floor.inHand := by
  obtain ⟨hindex, rfl⟩ := List.getElem?_eq_some_iff.1 hrunning
  refine List.ext_getElem? fun other => ?_
  rw [Floor.inHand, List.getElem?_map, List.getElem?_map, List.getElem?_set]
  split
  · rename_i hsame
    subst hsame
    rw [hrunning]
    rfl
  · rfl

namespace Accounts

theorem start (workers : Nat) (store : Store) : (Crew.start workers store : Crew J W).Accounts where
  tickets := .refl _
  serials := rfl
  submitted := .refl _
  accepted := .refl _
  begun := .refl _
  refusals := fun _ hrefusal => (List.not_mem_nil hrefusal).elim

/-- The accounts do not depend on working memory, on who waits, or on how many workers there are. -/
theorem aside (h : crew.Accounts) (store : Store) (workers : Nat) (waiters : Waiters) (joining : Bool)
    (shutdowns signals : Nat) :
    Accounts
      { executor := { crew.executor with pool := { crew.executor.pool with workers } }
        store
        floor := { crew.floor with waiters, joining, shutdowns, signals } } :=
  ⟨h.tickets, h.serials, h.submitted, h.accepted, h.begun, h.refusals⟩

theorem close (h : crew.Accounts) :
    Accounts { crew with executor := { crew.executor with pool := { crew.executor.pool with accepting := false } } } :=
  ⟨h.tickets, h.serials, h.submitted, h.accepted, h.begun,
    fun refusal hrefusal => ⟨(h.refusals refusal hrefusal).1, rfl⟩⟩

theorem call (h : crew.Accounts) (rule : String) (job : J) : (crew.call rule job).Accounts := by
  let entry : Ticket × J := ((crew.executor.issue rule).1, job)
  have hunderWay : (crew.call rule job).underWay.Perm (entry :: crew.underWay) := by
    simp only [Crew.call, underWay, Floor.inCalls, List.append_assoc, List.singleton_append]
    exact List.perm_middle
  refine ⟨?_, ?_, ?_, h.accepted, h.begun, h.refusals⟩
  · exact (hunderWay.map _).trans ((h.tickets.cons entry.1).trans (List.perm_append_singleton _ _).symm)
  · simp only [Crew.call, Executor.issue, List.map_append, List.map_cons, List.map_nil, List.range_succ, h.serials]
  · exact (hunderWay.append_right _).trans ((h.submitted.cons entry).trans (List.perm_append_singleton _ _).symm)

theorem send (h : crew.Accounts) (index : Nat) : (crew.send index).Accounts := by
  have hunderWay := crew.underWay_send index
  have htickets := (hunderWay.map (·.1)).trans h.tickets
  have hsubmitted := (hunderWay.append_right (crew.floor.turnedAway ++ crew.floor.done)).trans h.submitted
  cases hcall : crew.floor.calling[index]? with
  | none =>
      simp only [Crew.send, hcall]
      exact h
  | some entry =>
      cases haccepts : crew.executor.pool.accepting with
      | true =>
          have haccepted := (unfinished_send hcall haccepts).append_right crew.floor.done
          rw [send_of_open hcall haccepts] at htickets hsubmitted haccepted ⊢
          refine ⟨htickets, h.serials, hsubmitted, ?_, h.begun, ?_⟩
          · exact haccepted.trans ((h.accepted.cons entry).trans (List.perm_append_singleton _ _).symm)
          · intro refusal hrefusal
            have hclosed := (h.refusals refusal hrefusal).2
            rw [haccepts] at hclosed
            cases hclosed
      | false =>
          rw [send_of_closed hcall haccepts] at htickets hsubmitted ⊢
          refine ⟨htickets, h.serials, hsubmitted, h.accepted, h.begun, ?_⟩
          intro refusal hrefusal
          simp only [List.append_assoc, List.mem_append, List.mem_singleton] at hrefusal
          rcases hrefusal with hrefused | rfl | hrejected
          · exact h.refusals refusal (List.mem_append_left _ hrefused)
          · exact ⟨rfl, haccepts⟩
          · exact h.refusals refusal (List.mem_append_right _ hrejected)

theorem giveBack (h : crew.Accounts) (index : Nat) : (crew.giveBack index).Accounts := by
  cases hrefused : crew.floor.refused[index]? with
  | none =>
      rw [giveBack_of_none hrefused]
      exact h
  | some refusal =>
      have hunderWay := underWay_giveBack hrefused
      have htickets := ((hunderWay.map (·.1)).symm.trans h.tickets).erase refusal.ticket
      have hsubmitted := (hunderWay.append_right (crew.floor.turnedAway ++ crew.floor.done)).symm.trans h.submitted
      rw [List.map_cons, show refusal.entry.1 = refusal.ticket from rfl, List.erase_cons_head] at htickets
      rw [giveBack_of_some hrefused] at htickets hsubmitted ⊢
      refine ⟨htickets, h.serials, ?_, h.accepted, h.begun, ?_⟩
      · simp only [Floor.turnedAway, List.map_append, List.map_cons, List.map_nil, List.append_assoc,
          List.singleton_append] at hsubmitted ⊢
        exact ((List.perm_middle.append_left _).trans List.perm_middle).trans hsubmitted
      · intro other hother
        refine h.refusals other ?_
        simp only [List.mem_append, List.mem_singleton] at hother ⊢
        rcases hother with hrest | hold | rfl
        · exact .inl (List.mem_of_mem_eraseIdx hrest)
        · exact .inr hold
        · exact .inl (List.mem_of_getElem? hrefused)

theorem take (h : crew.Accounts) (begin : J → W) : (crew.take begin).Accounts := by
  have hunfinished := crew.unfinished_take begin
  have hunderWay := hunfinished.append_left crew.floor.inCalls
  have htickets := (hunderWay.map (·.1)).trans h.tickets
  have hsubmitted := (hunderWay.append_right (crew.floor.turnedAway ++ crew.floor.done)).trans h.submitted
  have haccepted := (hunfinished.append_right crew.floor.done).trans h.accepted
  unfold Crew.take at htickets hsubmitted haccepted ⊢
  dsimp only at htickets hsubmitted haccepted ⊢
  split
  · rename_i hidle
    rw [if_pos hidle] at htickets hsubmitted haccepted
    split
    · exact h
    · rename_i ticket job queue hqueue
      simp only [hqueue] at htickets hsubmitted haccepted
      refine ⟨htickets, h.serials, hsubmitted, haccepted, ?_, h.refusals⟩
      simp only [Floor.inHand, List.map_append, List.map_cons, List.map_nil, List.append_assoc, List.singleton_append]
      exact List.perm_middle.trans ((h.begun.cons _).trans (List.perm_append_singleton _ _).symm)
  · exact h

theorem finish (h : crew.Accounts) (index : Nat) (ending : Ending) : (crew.finish index ending).Accounts := by
  cases hrunning : crew.floor.running[index]? with
  | none =>
      simp only [Crew.finish, hrunning]
      exact h
  | some running =>
      -- the job is picked out of those under way, and its ticket out of those that are out
      have hunfinished := unfinished_finish hrunning ending
      have hunderWay := (hunfinished.append_left crew.floor.inCalls).trans List.perm_middle
      have hinHand := (perm_cons_eraseIdx hrunning).map Running.entry
      have htickets := ((hunderWay.map (·.1)).symm.trans h.tickets).erase running.ticket
      have hsubmitted := (hunderWay.append_right (crew.floor.turnedAway ++ crew.floor.done)).symm.trans h.submitted
      have haccepted := (hunfinished.append_right crew.floor.done).symm.trans h.accepted
      have hbegun := (hinHand.append_right crew.floor.done).symm.trans h.begun
      rw [List.map_cons, show running.entry.1 = running.ticket from rfl, List.erase_cons_head] at htickets
      simp only [Crew.finish, hrunning] at htickets hsubmitted haccepted hbegun ⊢
      refine ⟨htickets, h.serials, ?_, ?_, ?_, h.refusals⟩
      · refine List.Perm.trans ?_ hsubmitted
        simp only [Floor.done, List.map_append, List.map_cons, List.map_nil, ← List.append_assoc]
        exact List.perm_append_singleton _ _
      · refine List.Perm.trans ?_ haccepted
        simp only [Floor.done, List.map_append, List.map_cons, List.map_nil, ← List.append_assoc]
        exact List.perm_append_singleton _ _
      · refine List.Perm.trans ?_ hbegun
        simp only [Floor.done, List.map_append, List.map_cons, List.map_nil, ← List.append_assoc]
        exact List.perm_append_singleton _ _

/-- A worker goes on with its job, and whatever it does to working memory. -/
theorem progress (h : crew.Accounts) {index : Nat} {running : Running J W}
    (hrunning : crew.floor.running[index]? = some running) (progress : W) (store : Store) (signals : Nat) :
    Accounts
      { crew with
        store
        floor := { crew.floor with running := crew.floor.running.set index { running with progress }, signals } } := by
  have hinHand := inHand_set hrunning progress
  refine ⟨?_, h.serials, ?_, ?_, ?_, h.refusals⟩
  · simp only [underWay, unfinished, Floor.inHand, hinHand]
    exact h.tickets
  · simp only [underWay, unfinished, Floor.inHand, hinHand]
    exact h.submitted
  · simp only [unfinished, Floor.inHand, hinHand]
    exact h.accepted
  · simp only [Floor.inHand, hinHand]
    exact h.begun

theorem work (h : crew.Accounts) (index : Nat) (progress : W) (change : Change) :
    (crew.work index progress change).Accounts := by
  cases hrunning : crew.floor.running[index]? with
  | none =>
      simp only [Crew.work, hrunning]
      exact h
  | some running =>
      simp only [Crew.work, hrunning]
      exact h.progress hrunning progress _ _

theorem step (h : crew.Accounts) (move : CrewMove J W) : (crew.step move).Accounts := by
  cases move with
  | call rule job => exact h.call rule job
  | send index => exact h.send index
  | giveBack index => exact h.giveBack index
  | take begin => exact h.take begin
  | work index progress change => exact h.work index progress change
  | finish index ending => exact h.finish index ending
  | act change => exact h.aside _ _ _ _ _ _
  | await | look => exact h.aside _ _ _ _ _ _
  | shutdown =>
      simp only [Crew.step, Crew.shutdown]
      split
      · exact h
      · split
        · exact h.close.aside _ _ _ _ _ _
        · exact h.aside _ _ _ _ _ _
  | leave =>
      simp only [Crew.step, Crew.leave]
      split
      · exact h.aside _ _ _ _ _ _
      · exact h
  | join =>
      simp only [Crew.step, Crew.join]
      split
      · exact h.aside _ _ _ _ _ _
      · exact h

theorem run (h : crew.Accounts) (moves : List (CrewMove J W)) : (crew.run moves).Accounts :=
  run_induction (fun _ move hcrew => hcrew.step move) h moves

/-- No two tickets are the same. -/
theorem nodup_submitted (h : crew.Accounts) : (crew.floor.submitted.map (·.1)).Nodup := by
  have hserials : (crew.floor.submitted.map (·.1.serial)).Nodup := by
    rw [h.serials]
    exact List.nodup_range
  refine List.Nodup.of_map (·.serial) ?_
  rw [List.map_map]
  exact hserials

/-- If no ticket is out, no call and no job is under way. -/
theorem eq_nil_of_outstanding_eq_zero (h : crew.Accounts) (hzero : crew.executor.outstanding = 0) :
    crew.underWay = [] := by
  have htickets : crew.executor.tickets = [] := List.eq_nil_of_length_eq_zero hzero
  have hperm := h.tickets
  rw [htickets] at hperm
  exact List.map_eq_nil_iff.1 hperm.eq_nil

end Accounts

end Crew

end ProductionSystem
