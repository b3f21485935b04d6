import ProductionSystem.Proofs.CrewAccounts

/-!
What callers and workers can bring about. A pool that is open has workers; they leave when it is closed and no job is
left, and only then a call that shuts the executor down returns. Whatever is under way, the submit calls can come to
their ends, the workers can bring every accepted job to its end, and after that they can leave.
-/

namespace ProductionSystem

namespace Crew

variable {J W : Type} {crew : Crew J W}

/-- The workers and the shutdown calls. -/
structure Staffed (crew : Crew J W) : Prop where
  running : crew.floor.running.length ≤ crew.executor.pool.workers
  open_ : crew.executor.pool.accepting = true → 0 < crew.executor.pool.workers ∧ crew.floor.shutdowns = 0
  left : crew.executor.pool.workers = 0 → crew.executor.pool.queue = []
  closed : crew.executor.pool.accepting = false → crew.floor.joining = true ∨ 0 < crew.floor.shutdowns
  joining : crew.floor.joining = true → crew.executor.pool.accepting = false
  returned : 0 < crew.floor.shutdowns → crew.executor.pool.workers = 0

namespace Staffed

theorem start (workers : Nat) (store : Store) : (Crew.start workers store : Crew J W).Staffed where
  running := Nat.zero_le _
  open_ := fun _ => ⟨Nat.lt_of_lt_of_le Nat.zero_lt_one (Nat.le_max_right _ _), rfl⟩
  left := fun _ => rfl
  closed := fun hclosed => by cases hclosed
  joining := fun hjoining => by cases hjoining
  returned := fun hreturned => (Nat.lt_irrefl _ hreturned).elim

/-- A move that leaves pool and shutdown calls alone, and gives no worker a job. -/
theorem of_eq (h : crew.Staffed) {next : Crew J W} (hpool : next.executor.pool = crew.executor.pool)
    (hjoining : next.floor.joining = crew.floor.joining) (hshutdowns : next.floor.shutdowns = crew.floor.shutdowns)
    (hrunning : next.floor.running.length ≤ crew.floor.running.length) : next.Staffed := by
  obtain ⟨hfits, hopen, hleft, hclosed, hcloses, hreturned⟩ := h
  constructor
  · rw [hpool]
    exact Nat.le_trans hrunning hfits
  · rwa [hpool, hshutdowns]
  · rwa [hpool]
  · rwa [hpool, hjoining, hshutdowns]
  · rwa [hpool, hjoining]
  · rwa [hpool, hshutdowns]

theorem send (h : crew.Staffed) (index : Nat) : (crew.send index).Staffed := by
  unfold Crew.send
  dsimp only
  split
  · exact h
  cases haccepts : crew.executor.pool.accepting with
  | true =>
      simp only [WorkerPool.submit, haccepts, if_true]
      have hopen := h.open_ haccepts
      refine ⟨h.running, fun _ => hopen, fun hnone => absurd hnone (Nat.ne_of_gt hopen.1),
        fun hclosed => Bool.noConfusion hclosed, fun hjoining => ?_, h.returned⟩
      exact haccepts.symm.trans (h.joining hjoining)
  | false =>
      simp only [WorkerPool.submit, haccepts, Bool.false_eq_true, if_false]
      exact h.of_eq rfl rfl rfl (Nat.le_refl _)

theorem take (h : crew.Staffed) (begin : J → W) : (crew.take begin).Staffed := by
  simp only [Crew.take]
  split
  · rename_i hidle
    split
    · exact h
    · refine ⟨?_, h.open_, fun hnone => ?_, h.closed, h.joining, h.returned⟩
      · simp only [List.length_append, List.length_singleton]
        exact hidle
      · exact absurd hnone (Nat.ne_of_gt (Nat.zero_lt_of_lt hidle))
  · exact h

theorem shutdown (h : crew.Staffed) : crew.shutdown.Staffed := by
  simp only [Crew.shutdown]
  split
  · exact h
  rename_i hfree
  split
  · exact ⟨h.running, fun hopen => Bool.noConfusion hopen, h.left, fun _ => .inl rfl, fun _ => rfl, h.returned⟩
  · rename_i hrefuses
    have hclosed : crew.executor.pool.accepting = false := Bool.eq_false_iff.2 hrefuses
    have hnone : crew.executor.pool.workers = 0 := h.returned ((h.closed hclosed).resolve_left hfree)
    exact ⟨h.running, fun hopen => absurd hopen hrefuses, h.left, fun _ => .inr (Nat.succ_pos _), h.joining,
      fun _ => hnone⟩

theorem leave (h : crew.Staffed) : crew.leave.Staffed := by
  simp only [Crew.leave]
  split
  · rename_i hleaves
    simp only [Bool.and_eq_true, Bool.not_eq_true', List.isEmpty_iff, decide_eq_true_eq] at hleaves
    obtain ⟨⟨hclosed, hqueue⟩, hidle⟩ := hleaves
    refine ⟨Nat.le_sub_one_of_lt hidle, fun hopen => ?_, fun _ => hqueue, h.closed, h.joining, fun hreturned => ?_⟩
    · exact Bool.noConfusion (hclosed.symm.trans hopen)
    · simp only [h.returned hreturned]
  · exact h

theorem join (h : crew.Staffed) : crew.join.Staffed := by
  simp only [Crew.join]
  split
  · rename_i hjoins
    simp only [Bool.and_eq_true, decide_eq_true_eq] at hjoins
    refine ⟨h.running, fun hopen => ?_, h.left, fun _ => .inr (Nat.succ_pos _),
      fun hjoining => Bool.noConfusion hjoining, fun _ => hjoins.2⟩
    exact absurd hjoins.2 (Nat.ne_of_gt (h.open_ hopen).1)
  · exact h

theorem step (h : crew.Staffed) (move : CrewMove J W) : (crew.step move).Staffed := by
  cases move with
  | call rule job => exact h.of_eq rfl rfl rfl (Nat.le_refl _)
  | send index => exact h.send index
  | giveBack index =>
      simp only [Crew.step, Crew.giveBack]
      split
      · exact h
      · exact h.of_eq rfl rfl rfl (Nat.le_refl _)
  | take begin => exact h.take begin
  | work index progress change =>
      simp only [Crew.step, Crew.work]
      split
      · exact h
      · refine h.of_eq rfl rfl rfl ?_
        rw [List.length_set]
        exact Nat.le_refl _
  | finish index ending =>
      simp only [Crew.step, Crew.finish]
      split
      · exact h
      · exact h.of_eq rfl rfl rfl (List.eraseIdx_sublist _ _).length_le
  | act change | await | look => exact h.of_eq rfl rfl rfl (Nat.le_refl _)
  | shutdown => exact h.shutdown
  | leave => exact h.leave
  | join => exact h.join

theorem run (h : crew.Staffed) (moves : List (CrewMove J W)) : (crew.run moves).Staffed :=
  run_induction (fun _ move hcrew => hcrew.step move) h moves

/-- After the last worker no job is left. -/
theorem unfinished_eq_nil (h : crew.Staffed) (hnone : crew.executor.pool.workers = 0) : crew.unfinished = [] := by
  have hrunning := h.running
  rw [hnone] at hrunning
  have hidle : crew.floor.running = [] := List.eq_nil_of_length_eq_zero (Nat.le_zero.1 hrunning)
  rw [unfinished, h.left hnone, Floor.inHand, hidle]
  rfl

end Staffed

/-- A closed pool stays closed, and accepts no job. -/
theorem closed_step (hclosed : crew.executor.pool.accepting = false) (move : CrewMove J W) :
    (crew.step move).executor.pool.accepting = false ∧ (crew.step move).floor.accepted = crew.floor.accepted := by
  cases move with
  | call _ _ | await | look | act _ => exact ⟨hclosed, rfl⟩
  | send index =>
      simp only [step, send, WorkerPool.submit, hclosed, Bool.false_eq_true, if_false]
      split <;> exact ⟨hclosed, rfl⟩
  | giveBack index =>
      simp only [step, giveBack]
      split <;> exact ⟨hclosed, rfl⟩
  | take begin =>
      simp only [step, take]
      split
      · split <;> exact ⟨hclosed, rfl⟩
      · exact ⟨hclosed, rfl⟩
  | work index progress change =>
      simp only [step, work]
      split <;> exact ⟨hclosed, rfl⟩
  | finish index ending =>
      simp only [step, finish]
      split <;> exact ⟨hclosed, rfl⟩
  | shutdown =>
      simp only [step, shutdown, hclosed, Bool.false_eq_true, if_false]
      split <;> exact ⟨hclosed, rfl⟩
  | leave =>
      simp only [step, leave]
      split <;> exact ⟨hclosed, rfl⟩
  | join =>
      simp only [step, join]
      split <;> exact ⟨hclosed, rfl⟩

theorem closed_run (hclosed : crew.executor.pool.accepting = false) (moves : List (CrewMove J W)) :
    (crew.run moves).executor.pool.accepting = false ∧ (crew.run moves).floor.accepted = crew.floor.accepted := by
  refine run_induction (P := fun after => after.executor.pool.accepting = false ∧
    after.floor.accepted = crew.floor.accepted) ?_ ⟨hclosed, rfl⟩ moves
  intro after move h
  obtain ⟨hafter, haccepted⟩ := closed_step h.1 move
  exact ⟨hafter, haccepted.trans h.2⟩

theorem step_take (begin : J → W) {ticket : Ticket} {job : J} {queue : List (Ticket × J)}
    (hidle : crew.floor.running.length < crew.executor.pool.workers)
    (hqueue : crew.executor.pool.queue = (ticket, job) :: queue) :
    (crew.step (.take begin)).executor.pool.queue = queue ∧
      (crew.step (.take begin)).floor.running = crew.floor.running ++ [⟨ticket, job, begin job⟩] ∧
      (crew.step (.take begin)).floor.accepted = crew.floor.accepted := by
  simp only [step, take, if_pos hidle, hqueue, and_self]

theorem step_finish {running : Running J W} {rest : List (Running J W)}
    (hrunning : crew.floor.running = running :: rest) (ending : Ending) :
    (crew.step (.finish 0 ending)).executor.pool.queue = crew.executor.pool.queue ∧
      (crew.step (.finish 0 ending)).floor.running = rest ∧
      (crew.step (.finish 0 ending)).floor.accepted = crew.floor.accepted := by
  simp only [step, finish, hrunning, List.getElem?_cons_zero, List.eraseIdx_cons_zero]
  exact ⟨rfl, trivial, rfl⟩

/-- The workers can bring every accepted job to its end, whatever else is the case. -/
theorem exists_unfinished_eq_nil (h : crew.Staffed) (begin : J → W) :
    ∃ later : List (CrewMove J W), (∀ move ∈ later, move.byWorkers = true) ∧
      (crew.run later).unfinished = [] ∧ (crew.run later).floor.accepted = crew.floor.accepted := by
  -- a job in the queue takes two moves, one in hand takes one
  generalize hwork : 2 * crew.executor.pool.queue.length + crew.floor.running.length = work
  induction work using Nat.strongRecOn generalizing crew with
  | ind work ih =>
      cases hrunning : crew.floor.running with
      | cons running rest =>
          obtain ⟨hqueued, hleft, hsame⟩ := step_finish hrunning .returned
          have hless : 2 * (crew.step (.finish 0 .returned)).executor.pool.queue.length +
              (crew.step (.finish 0 .returned)).floor.running.length < work := by
            rw [hqueued, hleft, ← hwork, hrunning, List.length_cons]
            exact Nat.lt_succ_self _
          obtain ⟨later, hworkers, hnone, haccepted⟩ := ih _ hless (h.step _) rfl
          refine ⟨.finish 0 .returned :: later, ?_, hnone, haccepted.trans hsame⟩
          exact List.forall_mem_cons.2 ⟨rfl, hworkers⟩
      | nil =>
          cases hqueue : crew.executor.pool.queue with
          | nil =>
              refine ⟨[], fun _ hmove => (List.not_mem_nil hmove).elim, ?_, rfl⟩
              rw [run, List.foldl_nil, unfinished, Floor.inHand, hqueue, hrunning]
              rfl
          | cons entry queue =>
              obtain ⟨ticket, job⟩ := entry
              have hidle : crew.floor.running.length < crew.executor.pool.workers := by
                rw [hrunning]
                refine Nat.pos_of_ne_zero fun hleft => ?_
                rw [h.left hleft] at hqueue
                cases hqueue
              obtain ⟨hqueued, htaken, hsame⟩ := step_take begin hidle hqueue
              have hless : 2 * (crew.step (.take begin)).executor.pool.queue.length +
                  (crew.step (.take begin)).floor.running.length < work := by
                rw [hqueued, htaken, ← hwork, hqueue, hrunning]
                simp only [List.nil_append, List.length_cons, List.length_nil]
                omega
              obtain ⟨later, hworkers, hnone, haccepted⟩ := ih _ hless (h.step _) rfl
              refine ⟨.take begin :: later, ?_, hnone, haccepted.trans hsame⟩
              exact List.forall_mem_cons.2 ⟨rfl, hworkers⟩

theorem step_send {entry : Ticket × J} {rest : List (Ticket × J)} (hcalling : crew.floor.calling = entry :: rest) :
    (crew.step (.send 0)).floor.calling = rest ∧
      (crew.step (.send 0)).floor.refused.length ≤ crew.floor.refused.length + 1 := by
  have hfirst : crew.floor.calling[0]? = some (entry.1, entry.2) := by
    rw [hcalling]
    rfl
  have hrest : crew.floor.calling.eraseIdx 0 = rest := by
    rw [hcalling]
    rfl
  rw [step]
  cases hopen : crew.executor.pool.accepting with
  | true =>
      rw [send_of_open hfirst hopen]
      exact ⟨hrest, Nat.le_succ _⟩
  | false =>
      rw [send_of_closed hfirst hopen]
      exact ⟨hrest, Nat.le_of_eq List.length_append⟩

theorem step_giveBack {refusal : Refusal J} {rest : List (Refusal J)}
    (hrefused : crew.floor.refused = refusal :: rest) :
    (crew.step (.giveBack 0)).floor.calling = crew.floor.calling ∧
      (crew.step (.giveBack 0)).floor.refused = rest := by
  have hfirst : crew.floor.refused[0]? = some refusal := by
    rw [hrefused]
    rfl
  rw [step, giveBack_of_some hfirst, hrefused]
  exact ⟨rfl, rfl⟩

/-- The submit calls in progress can come to their ends, whatever else is the case. -/
theorem exists_inCalls_eq_nil (crew : Crew J W) :
    ∃ later : List (CrewMove J W), (∀ move ∈ later, move.byCallers = true) ∧ (crew.run later).floor.inCalls = [] := by
  -- a call whose job is not sent yet takes at most two moves, a refused one takes one
  generalize hwork : 2 * crew.floor.calling.length + crew.floor.refused.length = work
  induction work using Nat.strongRecOn generalizing crew with
  | ind work ih =>
      cases hcalling : crew.floor.calling with
      | cons entry rest =>
          obtain ⟨hleft, hrefused⟩ := step_send hcalling
          have hless : 2 * (crew.step (.send 0)).floor.calling.length + (crew.step (.send 0)).floor.refused.length <
              work := by
            rw [hleft, ← hwork, hcalling, List.length_cons]
            omega
          obtain ⟨later, hcallers, hnone⟩ := ih _ hless _ rfl
          exact ⟨.send 0 :: later, List.forall_mem_cons.2 ⟨rfl, hcallers⟩, hnone⟩
      | nil =>
          cases hrefused : crew.floor.refused with
          | cons refusal rest =>
              obtain ⟨hsame, hleft⟩ := step_giveBack hrefused
              have hless : 2 * (crew.step (.giveBack 0)).floor.calling.length +
                  (crew.step (.giveBack 0)).floor.refused.length < work := by
                rw [hsame, hleft, ← hwork, hrefused, List.length_cons]
                exact Nat.lt_succ_self _
              obtain ⟨later, hcallers, hnone⟩ := ih _ hless _ rfl
              exact ⟨.giveBack 0 :: later, List.forall_mem_cons.2 ⟨rfl, hcallers⟩, hnone⟩
          | nil =>
              refine ⟨[], fun _ hmove => (List.not_mem_nil hmove).elim, ?_⟩
              rw [run, List.foldl_nil, Floor.inCalls, hcalling, hrefused]
              rfl

/-- Once the pool is closed and no job is left, all workers can leave. -/
theorem exists_workers_eq_zero (hclosed : crew.executor.pool.accepting = false) (hunfinished : crew.unfinished = []) :
    ∃ later : List (CrewMove J W), (∀ move ∈ later, move.byWorkers = true) ∧
      (crew.run later).executor.pool.workers = 0 := by
  generalize hcount : crew.executor.pool.workers = count
  induction count generalizing crew with
  | zero => exact ⟨[], fun _ hmove => (List.not_mem_nil hmove).elim, hcount⟩
  | succ count ih =>
      obtain ⟨hqueue, hinHand⟩ := List.append_eq_nil_iff.1 hunfinished
      have hrunning : crew.floor.running = [] := List.map_eq_nil_iff.1 hinHand
      have hleave : crew.step .leave =
          { crew with executor := { crew.executor with pool := { crew.executor.pool with workers := count } } } := by
        simp only [step, leave, hclosed, hqueue, hrunning, hcount, List.isEmpty_nil, List.length_nil]
        rfl
      have hstays : (crew.step .leave).executor.pool.accepting = false ∧ (crew.step .leave).unfinished = [] ∧
          (crew.step .leave).executor.pool.workers = count := by
        rw [hleave]
        exact ⟨hclosed, hunfinished, rfl⟩
      obtain ⟨later, hworkers, hnone⟩ := ih hstays.1 hstays.2.1 hstays.2.2
      exact ⟨.leave :: later, List.forall_mem_cons.2 ⟨rfl, hworkers⟩, hnone⟩

/-- A shutdown call that has begun returns, once the workers have brought every accepted job to its end and left. -/
theorem exists_join (h : crew.Staffed) (hclosed : crew.executor.pool.accepting = false) (begin : J → W) :
    ∃ later : List (CrewMove J W), (∀ move ∈ later, move.byWorkers = true) ∧
      0 < ((crew.run later).step .join).floor.shutdowns := by
  obtain ⟨ending, hending, hunfinished, -⟩ := exists_unfinished_eq_nil h begin
  have hended := (closed_run hclosed ending).1
  obtain ⟨leaving, hleaving, hnone⟩ := exists_workers_eq_zero hended hunfinished
  refine ⟨ending ++ leaving, List.forall_mem_append.2 ⟨hending, hleaving⟩, ?_⟩
  have hafter : crew.run (ending ++ leaving) = (crew.run ending).run leaving := List.foldl_append
  rw [hafter, step, join]
  split
  · exact Nat.succ_pos _
  · rename_i hstays
    -- nobody waits for the workers any more, so the call that closed the pool has returned
    refine (((h.run ending).run leaving).closed (closed_run hended leaving).1).resolve_left fun hjoining => hstays ?_
    rw [hjoining, hnone]
    rfl

end Crew

end ProductionSystem
