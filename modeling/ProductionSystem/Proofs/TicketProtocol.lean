import ProductionSystem.Proofs.CrewProgress

/-!
What the tickets of an executor tell. Whatever the callers and workers do, and however their moves interleave, the
tickets tell which jobs are under way; a closed pool turns every job away, and without a ticket; a call that shuts
the executor down returns after the last job, and a call that waits for the last ticket is not left asleep
when it is back; and the epoch of working memory counts the tickets that went back.
-/

namespace ProductionSystem

namespace Waiters

theorem total_notify (tickets : List Ticket) (waiters : Waiters) : (waiters.notify tickets).total = waiters.total := by
  simp only [notify, total]
  split
  · dsimp only
    omega
  · rfl

theorem total_look (tickets : List Ticket) (waiters : Waiters) : (waiters.look tickets).total = waiters.total := by
  simp only [look, total]
  split
  · rfl
  · split <;> dsimp only <;> omega

end Waiters

namespace Crew

variable {J W : Type} {crew : Crew J W}

/-- No call sleeps when no ticket is out. -/
def Wakeful (crew : Crew J W) : Prop := crew.executor.tickets = [] → crew.floor.waiters.asleep = 0

theorem wakeful_release (crew : Crew J W) (ticket : Ticket) : (crew.release ticket).Wakeful := by
  intro hnone
  simp only [release, Waiters.notify] at hnone ⊢
  rw [hnone]
  rfl

/-- When nobody sleeps, the last ticket wakes nobody. -/
theorem Wakeful.notify_eq (h : crew.Wakeful) :
    crew.floor.waiters.notify crew.executor.tickets = crew.floor.waiters := by
  unfold Waiters.notify
  split
  · rename_i hnone
    have hasleep := h (List.isEmpty_iff.1 hnone)
    rw [hasleep, Nat.add_zero, ← hasleep]
  · rfl

theorem Wakeful.step (h : crew.Wakeful) (move : CrewMove J W) : (crew.step move).Wakeful := by
  cases move with
  | call rule job => exact fun hnone => absurd hnone (List.append_ne_nil_of_right_ne_nil _ (List.cons_ne_nil _ _))
  | send index =>
      simp only [Crew.step, Crew.send]
      split
      · exact h
      · split <;> exact h
  | giveBack index =>
      simp only [Crew.step, Crew.giveBack]
      split
      · exact h
      · exact wakeful_release crew _
  | take begin =>
      simp only [Crew.step, Crew.take]
      split
      · split <;> exact h
      · exact h
  | work index progress change =>
      simp only [Crew.step, Crew.work]
      split <;> exact h
  | finish index ending =>
      simp only [Crew.step, Crew.finish]
      split
      · exact h
      · exact wakeful_release crew _
  | act change | await => exact h
  | shutdown =>
      simp only [Crew.step, Crew.shutdown]
      split
      · exact h
      · split <;> exact h
  | leave =>
      simp only [Crew.step, Crew.leave]
      split <;> exact h
  | join =>
      simp only [Crew.step, Crew.join]
      split <;> exact h
  | look =>
      intro hnone
      have hnone : crew.executor.tickets = [] := hnone
      have hasleep := h hnone
      simp only [Crew.step, Crew.look, Waiters.look, hnone]
      split <;> exact hasleep

/-- How often working memory was signalled: by each ticket that went back, and by jobs and others. -/
def raised (crew : Crew J W) : Nat := crew.floor.finished.length + crew.floor.rejected.length + crew.floor.signals

/-- The epoch goes up with the signals, and with nothing else. -/
theorem epoch_step (crew : Crew J W) (move : CrewMove J W) :
    ∃ signals, (crew.step move).raised = crew.raised + signals ∧
      (crew.step move).store.epoch = crew.store.epoch + UInt64.ofNat signals := by
  have hquiet : crew.store.epoch = crew.store.epoch + UInt64.ofNat 0 := (UInt64.add_zero _).symm
  cases move with
  | call _ _ | await | look => exact ⟨0, rfl, hquiet⟩
  | act change => exact ⟨change.signals, (Nat.add_assoc _ _ _).symm, change.epoch_apply _⟩
  | send index =>
      simp only [step, send]
      split
      · exact ⟨0, rfl, hquiet⟩
      · split <;> exact ⟨0, rfl, hquiet⟩
  | giveBack index =>
      simp only [step, giveBack]
      split
      · exact ⟨0, rfl, hquiet⟩
      · refine ⟨1, ?_, rfl⟩
        simp only [raised, release, List.length_append, List.length_singleton]
        omega
  | take begin =>
      simp only [step, take]
      split
      · split <;> exact ⟨0, rfl, hquiet⟩
      · exact ⟨0, rfl, hquiet⟩
  | work index progress change =>
      simp only [step, work]
      split
      · exact ⟨0, rfl, hquiet⟩
      · exact ⟨change.signals, (Nat.add_assoc _ _ _).symm, change.epoch_apply _⟩
  | finish index ending =>
      simp only [step, finish]
      split
      · exact ⟨0, rfl, hquiet⟩
      · refine ⟨1, ?_, rfl⟩
        simp only [raised, release, List.length_append, List.length_singleton]
        omega
  | shutdown =>
      simp only [step, shutdown]
      split
      · exact ⟨0, rfl, hquiet⟩
      · split <;> exact ⟨0, rfl, hquiet⟩
  | leave =>
      simp only [step, leave]
      split <;> exact ⟨0, rfl, hquiet⟩
  | join =>
      simp only [step, join]
      split <;> exact ⟨0, rfl, hquiet⟩

theorem epoch_run (workers : Nat) (store : Store) (moves : List (CrewMove J W)) :
    ((start workers store : Crew J W).run moves).store.epoch =
      store.epoch + UInt64.ofNat ((start workers store : Crew J W).run moves).raised := by
  refine run_induction (P := fun crew => crew.store.epoch = store.epoch + UInt64.ofNat crew.raised) ?_ ?_ moves
  · intro crew move h
    obtain ⟨signals, hraised, hepoch⟩ := crew.epoch_step move
    rw [hepoch, hraised, h, UInt64.ofNat_add, UInt64.add_assoc]
  · exact (UInt64.add_zero _).symm

/-- Only a call submits a job, only a shutdown call closes the pool, and a call that waits is counted once. -/
theorem step_frame (crew : Crew J W) (move : CrewMove J W) :
    (crew.step move).floor.submitted =
        crew.floor.submitted ++ (move.submission?.map fun (rule, job) => ((crew.executor.issue rule).1, job)).toList ∧
      (move ≠ .shutdown → (crew.step move).executor.pool.accepting = crew.executor.pool.accepting) ∧
      (crew.step move).floor.waiters.total = crew.floor.waiters.total + if move.awaits then 1 else 0 := by
  have hsubmitted : crew.floor.submitted = crew.floor.submitted ++ [] := (List.append_nil _).symm
  cases move with
  | call rule job => exact ⟨rfl, fun _ => rfl, rfl⟩
  | await =>
      refine ⟨hsubmitted, fun _ => rfl, ?_⟩
      simp only [step, await, Waiters.total, CrewMove.awaits, if_true]
      omega
  | look => exact ⟨hsubmitted, fun _ => rfl, Waiters.total_look _ _⟩
  | act _ => exact ⟨hsubmitted, fun _ => rfl, rfl⟩
  | send index =>
      obtain ⟨queue, calling, refused, accepted, hsend, _⟩ := crew.exists_send_eq index
      rw [step, hsend]
      exact ⟨hsubmitted, fun _ => rfl, rfl⟩
  | giveBack index =>
      simp only [step, giveBack]
      split
      · exact ⟨hsubmitted, fun _ => rfl, rfl⟩
      · exact ⟨hsubmitted, fun _ => rfl, Waiters.total_notify _ _⟩
  | take begin =>
      simp only [step, take]
      split
      · split <;> exact ⟨hsubmitted, fun _ => rfl, rfl⟩
      · exact ⟨hsubmitted, fun _ => rfl, rfl⟩
  | work index progress change =>
      simp only [step, work]
      split <;> exact ⟨hsubmitted, fun _ => rfl, rfl⟩
  | finish index ending =>
      simp only [step, finish]
      split
      · exact ⟨hsubmitted, fun _ => rfl, rfl⟩
      · exact ⟨hsubmitted, fun _ => rfl, Waiters.total_notify _ _⟩
  | shutdown =>
      simp only [step, shutdown]
      split
      · exact ⟨hsubmitted, fun _ => rfl, rfl⟩
      · split
        · exact ⟨hsubmitted, fun hother => absurd rfl hother, rfl⟩
        · exact ⟨hsubmitted, fun _ => rfl, rfl⟩
  | leave =>
      simp only [step, leave]
      split <;> exact ⟨hsubmitted, fun _ => rfl, rfl⟩
  | join =>
      simp only [step, join]
      split <;> exact ⟨hsubmitted, fun _ => rfl, rfl⟩

theorem submitted_run (crew : Crew J W) (moves : List (CrewMove J W)) :
    (crew.run moves).floor.submitted.map (fun entry => (entry.1.rule, entry.2)) =
      crew.floor.submitted.map (fun entry => (entry.1.rule, entry.2)) ++ moves.filterMap CrewMove.submission? := by
  induction moves generalizing crew with
  | nil => exact (List.append_nil _).symm
  | cons move moves ih =>
      rw [run, List.foldl_cons, ← run, ih, (crew.step_frame move).1, List.map_append, List.append_assoc,
        List.filterMap_cons]
      cases move.submission? with
      | none => rfl
      | some call => rfl

theorem total_run (crew : Crew J W) (moves : List (CrewMove J W)) :
    (crew.run moves).floor.waiters.total = crew.floor.waiters.total + moves.countP CrewMove.awaits := by
  induction moves generalizing crew with
  | nil => rfl
  | cons move moves ih =>
      rw [run, List.foldl_cons, ← run, ih, (crew.step_frame move).2.2, List.countP_cons, Nat.add_assoc,
        Nat.add_comm (List.countP _ _)]

namespace Staffed

theorem accepting_step (h : crew.Staffed) (move : CrewMove J W) :
    (crew.step move).executor.pool.accepting = true ↔ crew.executor.pool.accepting = true ∧ .shutdown ≠ move := by
  by_cases hmove : .shutdown = move
  · subst hmove
    refine iff_of_false (fun hopen => ?_) fun hboth => hboth.2 rfl
    simp only [Crew.step, Crew.shutdown] at hopen
    split at hopen
    · rename_i hjoining
      rw [h.joining hjoining] at hopen
      cases hopen
    · split at hopen
      · cases hopen
      · contradiction
  · rw [(crew.step_frame move).2.1 fun hshutdown => hmove hshutdown.symm]
    exact (and_iff_left hmove).symm

/-- A pool is open as long as no shutdown call begins. -/
theorem accepting_run (h : crew.Staffed) (moves : List (CrewMove J W)) :
    (crew.run moves).executor.pool.accepting = true ↔ crew.executor.pool.accepting = true ∧ .shutdown ∉ moves := by
  induction moves generalizing crew with
  | nil => exact (and_iff_left List.not_mem_nil).symm
  | cons move moves ih =>
      rw [Crew.run, List.foldl_cons, ← Crew.run, ih (h.step move), h.accepting_step move, List.mem_cons, not_or,
        and_assoc]

end Staffed

/-- What is submitted later comes after all that was. -/
theorem submitted_prefix_run (crew : Crew J W) (moves : List (CrewMove J W)) :
    crew.floor.submitted <+: (crew.run moves).floor.submitted := by
  refine run_induction (P := fun after => crew.floor.submitted <+: after.floor.submitted) ?_ (List.prefix_refl _) moves
  intro after move h
  rw [(after.step_frame move).1]
  exact h.trans (List.prefix_append _ _)

namespace Accounts

/-- Every accepted job waits in the queue or was begun, once. -/
theorem queued_or_begun (h : crew.Accounts) :
    crew.floor.accepted.Perm (crew.executor.pool.queue ++ crew.floor.begun) := by
  refine h.accepted.symm.trans ?_
  rw [unfinished, List.append_assoc]
  exact h.begun.append_left _

/-- Every submitted job is in a call, was turned away, or was accepted. -/
theorem in_call_or_settled (h : crew.Accounts) :
    crew.floor.submitted.Perm (crew.floor.inCalls ++ crew.floor.turnedAway ++ crew.floor.accepted) := by
  refine h.submitted.symm.trans ?_
  rw [underWay, List.append_assoc, List.append_assoc]
  refine List.Perm.append_left _ (List.Perm.trans ?_ (h.accepted.append_left _))
  rw [← List.append_assoc, ← List.append_assoc]
  exact List.perm_append_comm.append_right _

theorem subset_begun (h : crew.Accounts) : crew.floor.begun ⊆ crew.floor.accepted :=
  fun _ hbegun => h.queued_or_begun.mem_iff.2 (List.mem_append_right _ hbegun)

theorem subset_accepted (h : crew.Accounts) : crew.floor.accepted ⊆ crew.floor.submitted :=
  fun _ haccepted => h.in_call_or_settled.mem_iff.2 (List.mem_append_right _ haccepted)

/-- The jobs under way and the others have each a ticket of their own. -/
theorem nodup_underWay (h : crew.Accounts) :
    (crew.underWay.map (·.1) ++ (crew.floor.turnedAway ++ crew.floor.done).map (·.1)).Nodup := by
  rw [← List.map_append]
  exact ((h.submitted.map (·.1)).nodup_iff).2 h.nodup_submitted

theorem nodup_tickets (h : crew.Accounts) : crew.executor.tickets.Nodup :=
  h.tickets.nodup_iff.1 (List.Nodup.of_append_left h.nodup_underWay)

/-- A ticket that is out is no ticket of a job that was turned away. -/
theorem not_out_of_turnedAway (h : crew.Accounts) {entry : Ticket × J} (hentry : entry ∈ crew.floor.turnedAway) :
    entry.1 ∉ crew.executor.tickets := by
  intro hout
  refine (List.disjoint_of_nodup_append h.nodup_underWay) (h.tickets.mem_iff.2 hout) ?_
  exact List.mem_map.2 ⟨entry, List.mem_append_left _ hentry, rfl⟩

/-- An open pool has refused no job. -/
theorem refuses_none (h : crew.Accounts) (hopen : crew.executor.pool.accepting = true) :
    crew.floor.refused = [] ∧ crew.floor.rejected = [] := by
  refine List.append_eq_nil_iff.1 (List.eq_nil_iff_forall_not_mem.2 fun refusal hrefusal => ?_)
  exact Bool.noConfusion (hopen.symm.trans (h.refusals refusal hrefusal).2)

/-- If no accepted job is unfinished, all of them are over. -/
theorem accepted_perm_done (h : crew.Accounts) (hunfinished : crew.unfinished = []) :
    crew.floor.accepted.Perm crew.floor.done := by
  have haccepted := h.accepted.symm
  rwa [hunfinished, List.nil_append] at haccepted

/-- The next ticket is not out yet. -/
theorem issue_not_out (h : crew.Accounts) (rule : String) : (crew.executor.issue rule).1 ∉ crew.executor.tickets := by
  intro hout
  obtain ⟨entry, hentry, hticket⟩ := List.mem_map.1 (h.tickets.mem_iff.2 hout)
  have hsubmitted : entry ∈ crew.floor.submitted := h.submitted.mem_iff.1 (List.mem_append_left _ hentry)
  have hserial : entry.1.serial ∈ crew.floor.submitted.map (·.1.serial) := List.mem_map_of_mem hsubmitted
  rw [h.serials, hticket] at hserial
  exact Nat.lt_irrefl _ (List.mem_range.1 hserial)

/-- What is submitted to a closed pool is never begun: it is turned away, and leaves no ticket behind. -/
theorem turned_away (h : crew.Accounts) {after : Crew J W}
    (hafter : after.Accounts) (haccepted : after.floor.accepted = crew.floor.accepted)
    (hsubmitted : crew.floor.submitted <+: after.floor.submitted) :
    ∀ entry ∈ after.floor.submitted.drop crew.floor.submitted.length,
      entry ∉ after.floor.begun ∧
        (entry ∈ after.floor.inCalls ∨
          ⟨entry.1, entry.2, .shutdown⟩ ∈ after.floor.rejected ∧ entry.1 ∉ after.executor.tickets) := by
  obtain ⟨later, hlater⟩ := hsubmitted
  intro entry hentry
  rw [← hlater, List.drop_left] at hentry
  have hnew : entry ∉ after.floor.accepted := by
    intro hold
    have hnodup := hafter.nodup_submitted
    rw [← hlater, List.map_append] at hnodup
    rw [haccepted] at hold
    exact List.disjoint_of_nodup_append hnodup (List.mem_map_of_mem (h.subset_accepted hold))
      (List.mem_map_of_mem hentry)
  refine ⟨fun hbegun => hnew (hafter.subset_begun hbegun), ?_⟩
  have hmem : entry ∈ after.floor.submitted := by
    rw [← hlater]
    exact List.mem_append_right _ hentry
  rcases List.mem_append.1 (hafter.in_call_or_settled.mem_iff.1 hmem) with hopen | hold
  · refine (List.mem_append.1 hopen).imp_right fun haway => ⟨?_, hafter.not_out_of_turnedAway haway⟩
    obtain ⟨refusal, hrefusal, rfl⟩ := List.mem_map.1 haway
    have hcause := (hafter.refusals refusal (List.mem_append_right _ hrefusal)).1
    rw [← hcause]
    exact hrefusal
  · exact (hnew hold).elim

end Accounts

/-- What the tickets tell about a crew, after the moves that were made since it started with a working memory. -/
structure TicketProtocol (store : Store) (moves : List (CrewMove J W)) (crew : Crew J W) : Prop where
  /-- The jobs submitted are those of the calls, in their order. -/
  submitted : crew.floor.submitted.map (fun entry => (entry.1.rule, entry.2)) = moves.filterMap CrewMove.submission?
  /-- Each has a ticket of its own. -/
  distinct : (crew.floor.submitted.map (·.1)).Nodup
  /-- The tickets that are out are those of the calls in progress and of the accepted jobs that are not over. -/
  tickets : crew.executor.tickets.Perm ((crew.floor.inCalls ++ crew.unfinished).map (·.1))
  nodup : crew.executor.tickets.Nodup
  /-- Every other job that was submitted was turned away or accepted. -/
  settled : crew.floor.submitted.Perm (crew.floor.inCalls ++ crew.floor.turnedAway ++ crew.floor.accepted)
  /-- Every accepted job waits or was begun, once, and is over or not. -/
  waits_or_begun : crew.floor.accepted.Perm (crew.executor.pool.queue ++ crew.floor.begun)
  begun : crew.floor.begun.Perm (crew.floor.inHand ++ crew.floor.done)
  accepted : crew.floor.accepted.Perm (crew.unfinished ++ crew.floor.done)
  /-- The pool is open until a shutdown call begins, and refuses nothing before. -/
  open_iff : crew.executor.pool.accepting = true ↔ .shutdown ∉ moves
  refuses_none : crew.executor.pool.accepting = true → crew.floor.refused = [] ∧ crew.floor.rejected = []
  /-- What is submitted to an open pool is accepted, and its ticket is out. -/
  submit_open : crew.executor.pool.accepting = true → ∀ rule job,
    let ticket := (crew.executor.issue rule).1
    let called := crew.run (crew.submission rule job)
    crew.executor.submit crew.store rule job = (.ok ticket, called.executor, called.store) ∧
      called.executor.tickets = crew.executor.tickets ++ [ticket] ∧
      called.floor =
        { crew.floor with
          submitted := crew.floor.submitted ++ [(ticket, job)]
          accepted := crew.floor.accepted ++ [(ticket, job)] }
  /-- What is submitted to a closed pool gets a shutdown error, and leaves no ticket. -/
  submit_closed : crew.executor.pool.accepting = false → ∀ rule job,
    let ticket := (crew.executor.issue rule).1
    let called := crew.run (crew.submission rule job)
    crew.executor.submit crew.store rule job = (.error .shutdown, called.executor, called.store) ∧
      called.executor.tickets = crew.executor.tickets ∧
      called.floor =
        { crew.floor with
          submitted := crew.floor.submitted ++ [(ticket, job)]
          rejected := crew.floor.rejected ++ [⟨ticket, job, .shutdown⟩] }
  /-- No job is accepted after that. One that is submitted is never begun, and is turned away without a ticket. -/
  closed : crew.executor.pool.accepting = false → ∀ later,
    let after := crew.run later
    after.floor.accepted = crew.floor.accepted ∧
      ∀ entry ∈ after.floor.submitted.drop crew.floor.submitted.length,
        entry ∉ after.floor.begun ∧
          (entry ∈ after.floor.inCalls ∨
            ⟨entry.1, entry.2, .shutdown⟩ ∈ after.floor.rejected ∧ entry.1 ∉ after.executor.tickets)
  /-- The submit calls in progress can come to their ends. -/
  calls_end : ∃ later : List (CrewMove J W), (∀ move ∈ later, move.byCallers = true) ∧
    (crew.run later).floor.inCalls = []
  /-- The workers can bring every accepted job to its end. -/
  jobs_end : (J → W) → ∃ later : List (CrewMove J W), (∀ move ∈ later, move.byWorkers = true) ∧
    (crew.run later).unfinished = [] ∧ (crew.run later).floor.accepted = crew.floor.accepted
  /-- When a shutdown call has returned, all accepted jobs are over. -/
  shutdown_returned : 0 < crew.floor.shutdowns →
    crew.executor.pool.accepting = false ∧ crew.unfinished = [] ∧ crew.floor.accepted.Perm crew.floor.done
  /-- When one has begun, the workers can let it return. -/
  shutdown_returns : crew.executor.pool.accepting = false → (J → W) →
    ∃ later : List (CrewMove J W), (∀ move ∈ later, move.byWorkers = true) ∧
      0 < ((crew.run later).step .join).floor.shutdowns
  /-- Each call that waits for the last ticket is counted once. -/
  waiting : crew.floor.waiters.total = moves.countP CrewMove.awaits
  /-- One that looks returns exactly when no ticket is out. -/
  returns_iff : crew.floor.waiters.awake ≠ 0 →
    ((crew.step .look).floor.waiters.returned ≠ crew.floor.waiters.returned ↔ crew.executor.tickets = [])
  /-- When one returns, no call is in progress and all accepted jobs are over. -/
  returned : (crew.step .look).floor.waiters.returned ≠ crew.floor.waiters.returned →
    crew.executor.tickets = [] ∧ crew.underWay = [] ∧ crew.floor.accepted.Perm crew.floor.done
  /-- None sleeps when no ticket is out. -/
  wakeful : crew.executor.tickets = [] → crew.floor.waiters.asleep = 0
  /-- The epoch counts the jobs that are over or were turned away, and the signals that jobs and others raised. -/
  epoch : crew.store.epoch =
    store.epoch + UInt64.ofNat (crew.floor.finished.length + crew.floor.rejected.length + crew.floor.signals)

/-- A call that looks returns exactly when no ticket is out. -/
theorem returned_look_iff (hawake : crew.floor.waiters.awake ≠ 0) :
    (crew.step .look).floor.waiters.returned ≠ crew.floor.waiters.returned ↔ crew.executor.tickets = [] := by
  obtain ⟨awake, hsucc⟩ := Nat.exists_eq_succ_of_ne_zero hawake
  simp only [step, look, Waiters.look, hsucc, List.isEmpty_iff]
  split
  · rename_i hnone
    exact iff_of_true (Nat.succ_ne_self _) hnone
  · rename_i hout
    exact iff_of_false (fun hreturned => hreturned rfl) hout

/-- If a look lets a call return, no ticket is out. -/
theorem tickets_eq_nil_of_look (hlook : (crew.step .look).floor.waiters.returned ≠ crew.floor.waiters.returned) :
    crew.executor.tickets = [] := by
  refine (returned_look_iff fun hnone => hlook ?_).1 hlook
  simp only [step, look, Waiters.look, hnone]

/-- **What the tickets tell.** Whatever an executor's callers and workers do, in any order, jobs ending normally or
by a panic: the tickets that are out are those of the submit calls in progress and of the accepted jobs that are
not over, one for each. What is submitted before the first shutdown call begins is accepted. Every accepted job waits
in the queue or was begun, once, and is with a worker or over; and the workers can bring all of them to their end.
Once the pool is closed no job is accepted any more: one that is submitted gets a shutdown error, is never begun, and
leaves no ticket. A shutdown call returns when all accepted jobs are over, and a waiting call when no ticket is out;
no waiting call sleeps then. The epoch has gone up by one for each job that is over or was turned away, and by the
signals that the jobs and others raised. -/
theorem tickets_follow_jobs (workers : Nat) (store : Store) (moves : List (CrewMove J W)) :
    TicketProtocol store moves ((start workers store).run moves) := by
  have haccounts := (Accounts.start workers store).run moves
  have hstaffed := (Staffed.start workers store).run moves
  have hwakeful : ((start workers store).run moves).Wakeful :=
    run_induction (fun _ move hcrew => hcrew.step move) (fun _ => rfl) moves
  refine
    { submitted := submitted_run _ moves
      distinct := haccounts.nodup_submitted
      tickets := haccounts.tickets.symm
      nodup := haccounts.nodup_tickets
      settled := haccounts.in_call_or_settled
      waits_or_begun := haccounts.queued_or_begun
      begun := haccounts.begun.symm
      accepted := haccounts.accepted.symm
      open_iff := ((Staffed.start workers store).accepting_run moves).trans (and_iff_right rfl)
      refuses_none := haccounts.refuses_none
      submit_open := run_submission_of_open
      submit_closed := ?submit_closed
      closed := ?closed
      calls_end := exists_inCalls_eq_nil _
      jobs_end := exists_unfinished_eq_nil hstaffed
      shutdown_returned := ?shutdown_returned
      shutdown_returns := exists_join hstaffed
      waiting := (total_run _ moves).trans (Nat.zero_add _)
      returns_iff := returned_look_iff
      returned := ?returned
      wakeful := hwakeful
      epoch := epoch_run workers store moves }
  case submit_closed =>
    intro hclosed rule job ticket called
    obtain ⟨hresult, htickets, hfloor⟩ := run_submission_of_closed hclosed rule job
    have hsame : called.executor.tickets = ((start workers store).run moves).executor.tickets := by
      rw [htickets, List.erase_append_right _ (haccounts.issue_not_out rule), List.erase_cons_head, List.append_nil]
    refine ⟨hresult, hsame, hfloor.trans ?_⟩
    rw [hsame, hwakeful.notify_eq]
  case closed =>
    intro hclosed later
    have haccepted := (closed_run hclosed later).2
    exact ⟨haccepted, haccounts.turned_away (haccounts.run later) haccepted (submitted_prefix_run _ later)⟩
  case shutdown_returned =>
    intro hreturned
    have hnone := hstaffed.returned hreturned
    have hunfinished := hstaffed.unfinished_eq_nil hnone
    refine ⟨Bool.eq_false_iff.2 fun hopen => absurd hnone (Nat.ne_of_gt (hstaffed.open_ hopen).1), hunfinished, ?_⟩
    exact haccounts.accepted_perm_done hunfinished
  case returned =>
    intro hlook
    have hnone := tickets_eq_nil_of_look hlook
    have hunderWay := haccounts.eq_nil_of_outstanding_eq_zero (congrArg List.length hnone)
    exact ⟨hnone, hunderWay, haccounts.accepted_perm_done (List.append_eq_nil_iff.1 hunderWay).2⟩

/-- Working memory is signalled once. -/
def signal : Change := ⟨Store.wake, 1, fun _ => rfl⟩

/-- Two jobs are done, one of which panics, and a third is turned away, while a call waits for the last ticket. -/
def shift : List (CrewMove String Unit) :=
  [.call "sort" "bolts", .call "pack" "crate", .send 1, .send 0, .await, .look, .take fun _ => (), .act signal,
    .work 0 () signal, .finish 0 .panicked, .shutdown, .call "ship" "late", .send 0, .giveBack 0, .take fun _ => (),
    .finish 0 .returned, .leave, .leave, .join, .look]

theorem tickets_follow_jobs_shift :
    let crew := (start 2 {}).run shift
    let bolts : Ticket × String := (⟨0, "sort"⟩, "bolts")
    let crate : Ticket × String := (⟨1, "pack"⟩, "crate")
    crew.floor.accepted = [crate, bolts] ∧ crew.floor.done = [crate, bolts] ∧
      crew.floor.rejected = [⟨⟨2, "ship"⟩, "late", .shutdown⟩] ∧ crew.executor.pool.accepting = false ∧
      crew.executor.tickets = [] ∧ crew.floor.shutdowns = 1 ∧ crew.floor.waiters.returned = 1 ∧ crew.store.epoch = 5 ∧
      (crew.executor.submit crew.store "ship" "later").1 = .error .shutdown := by
  intro crew bolts crate
  have h := tickets_follow_jobs 2 {} shift
  have hclosed : crew.executor.pool.accepting = false := (h.shutdown_returned Nat.one_pos).1
  have hnone : crew.executor.tickets = [] := h.tickets.eq_nil
  have hrefused := (h.submit_closed hclosed "ship" "later").1
  exact ⟨rfl, rfl, rfl, hclosed, hnone, rfl, rfl, h.epoch, congrArg Prod.fst hrefused⟩

end Crew

end ProductionSystem
