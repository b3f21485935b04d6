import ProductionSystem.Matching

/-!
Matching by workers. Each answer carries the position of its rule, so the answers can be put back into
the order of the rules however they come in, and the matches are the ones found on the loop. A pool that
is closed refuses the first rule already, and then the loop does the matching itself.
-/

namespace ProductionSystem

namespace WorkerPool

variable {J : Type}

theorem submitAll_of_accepting {pool : WorkerPool J} (h : pool.accepting = true) (jobs : List J) :
    pool.submitAll jobs = .ok { pool with queue := pool.queue ++ jobs } := by
  induction jobs generalizing pool with
  | nil =>
      rw [List.append_nil]
      rfl
  | cons job jobs ih =>
      have hfirst : pool.submit job = .ok { pool with queue := pool.queue ++ [job] } := by
        rw [submit, if_pos h]
      have hrest : submitAll { pool with queue := pool.queue ++ [job] } jobs =
          .ok { pool with queue := pool.queue ++ [job] ++ jobs } := ih h
      rw [List.append_assoc] at hrest
      rw [submitAll, List.foldlM_cons, hfirst]
      exact hrest

theorem submitAll_of_closed {pool : WorkerPool J} (h : pool.accepting = false) {jobs : List J}
    (hjobs : jobs ≠ []) : pool.submitAll jobs = .error .shutdown := by
  cases jobs with
  | nil => exact (hjobs rfl).elim
  | cons job jobs =>
      have hfirst : pool.submit job = .error .shutdown := by
        rw [submit, h, if_neg Bool.false_ne_true]
      rw [submitAll, List.foldlM_cons, hfirst]
      rfl

end WorkerPool

theorem WorkerPool.queue_of_submitAll {J : Type} {pool after : WorkerPool J} {jobs : List J}
    (h : pool.submitAll jobs = .ok after) : after.queue = pool.queue ++ jobs := by
  cases haccepts : pool.accepting with
  | true =>
      rw [submitAll_of_accepting haccepts, Except.ok.injEq] at h
      rw [← h]
  | false =>
      cases jobs with
      | nil =>
          rw [← Except.ok.inj h, List.append_nil]
      | cons job jobs =>
          rw [submitAll_of_closed haccepts (List.cons_ne_nil job jobs)] at h
          cases h

/-- A match belongs to the rule that it was found for. -/
theorem Match.source_of_match? {source : RuleInstance} {budget : Option Nat} {view : View} {found : Match}
    (h : source.match? budget view = some found) : found.source = source := by
  obtain ⟨finding, -, rfl⟩ := Option.map_eq_some_iff.1 h
  rfl

namespace Match

def numbered (rules : List RuleInstance) : List (Nat × RuleInstance) := (List.range rules.length).zip rules

/-- What a worker answers about a rule. -/
def answer (budget : Option Nat) (view : View) (job : Nat × RuleInstance) : Nat × Option Match :=
  (job.1, job.2.match? budget view)

/-- The matches, each with the position of its rule, in the order of the rules. -/
def ranked (budget : Option Nat) (view : View) (rules : List RuleInstance) : List (Nat × Match) :=
  (numbered rules).filterMap fun job => (job.2.match? budget view).map (job.1, ·)

variable {budget : Option Nat} {view : View} {rules : List RuleInstance}

theorem map_snd_ranked : (ranked budget view rules).map (·.2) = all budget view rules := by
  have hrules : (numbered rules).map (·.2) = rules :=
    List.map_snd_zip (Nat.le_of_eq List.length_range.symm)
  calc (ranked budget view rules).map (·.2)
      = (numbered rules).filterMap (fun job => job.2.match? budget view) := by
        rw [ranked, List.map_filterMap]
        simp only [Option.map_map, Function.comp_def, Option.map_id_fun', id]
    _ = ((numbered rules).map (·.2)).filterMap (fun source => source.match? budget view) := by
        rw [List.filterMap_map]
        rfl
    _ = all budget view rules := by rw [hrules, all]

/-- No two of them have one position. -/
theorem pairwise_ranked : (ranked budget view rules).Pairwise fun a b => a.1 < b.1 := by
  have hnumbered : (numbered rules).Pairwise fun a b => a.1 < b.1 := by
    rw [← List.pairwise_map (f := Prod.fst) (R := (· < ·)), numbered,
      List.map_fst_zip (Nat.le_of_eq List.length_range)]
    exact List.pairwise_lt_range
  refine List.Pairwise.filterMap _ (fun a b hlt c hc d hd => ?_) hnumbered
  obtain ⟨_, -, rfl⟩ := Option.map_eq_some_iff.1 hc
  obtain ⟨_, -, rfl⟩ := Option.map_eq_some_iff.1 hd
  exact hlt

/-- Sorting brings them back into the order of the rules, however they are shuffled. -/
theorem mergeSort_of_perm_ranked {shuffled : List (Nat × Match)}
    (h : shuffled.Perm (ranked budget view rules)) :
    shuffled.mergeSort (fun a b => a.1 ≤ b.1) = ranked budget view rules := by
  have htrans (a b c : Nat × Match) :
      decide (a.1 ≤ b.1) = true → decide (b.1 ≤ c.1) = true → decide (a.1 ≤ c.1) = true := by
    rw [decide_eq_true_iff, decide_eq_true_iff, decide_eq_true_iff]
    exact Nat.le_trans
  have htotal (a b : Nat × Match) : (decide (a.1 ≤ b.1) || decide (b.1 ≤ a.1)) = true := by
    rw [Bool.or_eq_true, decide_eq_true_iff, decide_eq_true_iff]
    exact Nat.le_total a.1 b.1
  have hranked := @pairwise_ranked budget view rules
  -- no two entries share a position, so the order is antisymmetric on them
  have hsame : ∀ a ∈ ranked budget view rules, ∀ b ∈ ranked budget view rules, a.1 = b.1 → a = b := by
    refine List.Pairwise.forall_of_forall_of_flip (fun a _ _ => rfl) ?_ ?_
    · exact hranked.imp fun hlt heq => (Nat.ne_of_lt hlt heq).elim
    · exact hranked.imp fun hlt heq => (Nat.ne_of_lt hlt heq.symm).elim
  have hperm := List.mergeSort_perm shuffled fun a b => a.1 ≤ b.1
  refine List.Perm.eq_of_pairwise (fun a b ha hb hab hba => ?_)
    (List.pairwise_mergeSort htrans htotal shuffled)
    (hranked.imp fun hlt => decide_eq_true (Nat.le_of_lt hlt)) (hperm.trans h)
  exact hsame a ((hperm.trans h).mem_iff.1 ha) b hb
    (Nat.le_antisymm (of_decide_eq_true hab) (of_decide_eq_true hba))

/-- **The order in which the workers answer does not matter.** -/
theorem gather_eq_all_of_perm {answers : List (Nat × Option Match)}
    (h : answers.Perm ((numbered rules).map (answer budget view))) :
    gather answers = all budget view rules := by
  have hfound := h.filterMap fun answer => answer.2.map (answer.1, ·)
  rw [List.filterMap_map] at hfound
  rw [gather, mergeSort_of_perm_ranked hfound, map_snd_ranked]

/-- The matches of an idle pool of workers, or without one, are those found rule by rule. -/
theorem allBy_eq_all {workers : Option (WorkerPool (Nat × RuleInstance))}
    (hidle : ∀ pool ∈ workers, pool.queue = []) :
    allBy workers budget view rules = all budget view rules := by
  cases workers with
  | none => rfl
  | some pool =>
      have hqueue : pool.queue = [] := hidle pool rfl
      by_cases hfew : rules.length ≤ 1
      · simp only [allBy, if_pos hfew]
      · simp only [allBy, if_neg hfew]
        cases haccepts : pool.accepting with
        | true =>
            rw [WorkerPool.submitAll_of_accepting haccepts, hqueue, List.nil_append]
            exact gather_eq_all_of_perm (.refl _)
        | false =>
            have hsome : (List.range rules.length).zip rules ≠ [] := by
              intro hnone
              have hlength := congrArg List.length hnone
              simp only [List.length_zip, List.length_range, List.length_nil] at hlength
              omega
            rw [WorkerPool.submitAll_of_closed haccepts hsome]

theorem source_mem_of_mem_all {found : Match} (h : found ∈ all budget view rules) : found.source ∈ rules := by
  obtain ⟨source, hsource, hfound⟩ := List.mem_filterMap.1 h
  rw [source_of_match? hfound]
  exact hsource

theorem exists_mem_of_mem_gather {answers : List (Nat × Option Match)} {found : Match}
    (h : found ∈ gather answers) : ∃ index, (index, some found) ∈ answers := by
  obtain ⟨⟨index, other⟩, hmem, rfl⟩ := List.mem_map.1 h
  obtain ⟨⟨index', answer⟩, hanswer, hsome⟩ := List.mem_filterMap.1 (List.mem_mergeSort.1 hmem)
  obtain ⟨other', rfl, heq⟩ := Option.map_eq_some_iff.1 hsome
  cases heq
  exact ⟨index', hanswer⟩

/-- A match is one for a rule, or for a rule that the workers still had to look at. -/
theorem source_mem_of_mem_allBy {workers : Option (WorkerPool (Nat × RuleInstance))} {found : Match}
    (h : found ∈ allBy workers budget view rules) :
    found.source ∈ rules ∨ ∃ pool ∈ workers, found.source ∈ pool.queue.map (·.2) := by
  unfold allBy at h
  split at h
  · exact .inl (source_mem_of_mem_all h)
  · rename_i pool
    split at h
    · exact .inl (source_mem_of_mem_all h)
    · split at h
      · exact .inl (source_mem_of_mem_all h)
      · rename_i after hsubmit
        obtain ⟨index, hanswer⟩ := exists_mem_of_mem_gather h
        obtain ⟨job, hjob, heq⟩ := List.mem_map.1 hanswer
        rw [source_of_match? (Prod.ext_iff.1 heq).2]
        rw [WorkerPool.queue_of_submitAll hsubmit] at hjob
        rcases List.mem_append.1 hjob with hold | hnew
        · exact .inr ⟨pool, rfl, List.mem_map_of_mem hold⟩
        · exact .inl (List.of_mem_zip hnew).2

end Match

end ProductionSystem
