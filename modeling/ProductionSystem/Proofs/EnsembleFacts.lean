import Mathlib.Data.List.Nodup
import ProductionSystem.Proofs.EnsembleAccounts

/-!
The facts that threads make while they come between one another. Everything that was ever in the queue was made by
some thread and enqueued once for that, or was enqueued by a call of its own; so a fact that a job has made
was enqueued exactly once, not counting such calls.
-/

namespace ProductionSystem

namespace Ensemble

/-- The jobs with a worker, and those that are over. -/
def begun (ensemble : Ensemble) : List (Running Job Progress) :=
  ensemble.floor.running ++ ensemble.floor.finished.map (·.1)

section Begun

variable {ensemble after : Ensemble} {running other : Running Job Progress} {index : Nat} {progress : Progress}

/-- A worker that goes on with its job is with it still. -/
theorem of_mem_begun_setProgress (hrunning : ensemble.floor.running[index]? = some running)
    (h : other ∈ (ensemble.setProgress index running progress).begun) :
    other ∈ ensemble.begun ∨ running ∈ ensemble.begun ∧ other = { running with progress } := by
  rcases List.mem_append.1 h with hset | hover
  · rcases List.mem_or_eq_of_mem_set hset with hold | rfl
    · exact .inl (List.mem_append_left _ hold)
    · exact .inr ⟨List.mem_append_left _ (List.mem_of_getElem? hrunning), rfl⟩
  · exact .inl (List.mem_append_right _ hover)

/-- A worker that makes no fact leaves the facts of all jobs as they are. -/
theorem made_setProgress (hrunning : ensemble.floor.running[index]? = some running)
    (hmade : progress.made = running.progress.made) :
    ∀ after ∈ (ensemble.setProgress index running progress).begun, after.progress.made = [] ∨
      ∃ before ∈ ensemble.begun, after.progress.made = before.progress.made := by
  intro after hafter
  rcases of_mem_begun_setProgress hrunning hafter with hold | ⟨hbegun, rfl⟩
  · exact .inr ⟨after, hold, rfl⟩
  · exact .inr ⟨running, hbegun, hmade⟩

/-- A worker takes a job at its beginning. -/
theorem of_mem_begun_take {reading : Reading} (h : running ∈ (ensemble.take reading).begun) :
    running ∈ ensemble.begun ∨
      running.progress = { thread := .between (reading running.job.command running.job.args running.job.firing) } := by
  revert h
  refine take_cases .inl fun ticket job queue _ _ h => ?_
  simp only [begun, List.mem_append, List.mem_singleton] at h
  rcases h with (hold | rfl) | hover
  · exact .inl (List.mem_append_left _ hold)
  · exact .inr rfl
  · exact .inl (List.mem_append_right _ hover)

/-- A job whose ticket goes back is not at work any more, but over. -/
theorem of_mem_begun_release (h : running ∈ (ensemble.release index).begun) : running ∈ ensemble.begun := by
  revert h
  refine release_cases id fun ending hending _ h => ?_
  simp only [begun, Crew.finish, crew, hending, withCrew, signal, Crew.release, List.map_append, List.map_cons,
    List.map_nil, List.mem_append, List.mem_singleton] at h ⊢
  rcases h with hold | hover | rfl
  · exact .inl (List.mem_of_mem_eraseIdx hold)
  · exact .inr hover
  · exact .inl (List.mem_of_getElem? hending)

/-- The same jobs are with a worker or over. -/
theorem begun_same (hrunning : after.floor.running = ensemble.floor.running)
    (hfinished : after.floor.finished = ensemble.floor.finished) :
    ∀ running ∈ after.begun, running.progress.made = [] ∨
      ∃ other ∈ ensemble.begun, running.progress.made = other.progress.made := by
  intro running hmem
  rw [begun, hrunning, hfinished] at hmem
  exact .inr ⟨running, hmem, rfl⟩

end Begun

/-- The facts that were made are accounted for. -/
structure Counted (ensemble : Ensemble) : Prop where
  /-- What is in the queue or has left it was made, or enqueued by a call of its own. -/
  queue : (ensemble.log.left ++ ensemble.engine.store.pending).Perm (ensemble.log.made ++ ensemble.log.offered)
  fresh : ∀ ref ∈ ensemble.log.made, ref.index < ensemble.engine.store.facts.size
  nodup : ensemble.log.made.Nodup
  jobs : ∀ running ∈ ensemble.begun, ∀ ref ∈ running.progress.made, ref ∈ ensemble.log.made

namespace Counted

variable {ensemble after : Ensemble} {reading : Reading}

theorem new (config : Config) : (new config).Counted where
  queue := .refl _
  fresh := fun _ href => (List.not_mem_nil href).elim
  nodup := List.nodup_nil
  jobs := fun _ hrunning => (List.not_mem_nil hrunning).elim

/-- A turn that makes and enqueues nothing. -/
theorem aside (h : ensemble.Counted)
    (hqueue : after.log.left ++ after.engine.store.pending = ensemble.log.left ++ ensemble.engine.store.pending)
    (hsize : after.engine.store.facts.size = ensemble.engine.store.facts.size)
    (hmade : after.log.made = ensemble.log.made) (hoffered : after.log.offered = ensemble.log.offered)
    (hbegun : ∀ running ∈ after.begun, running.progress.made = [] ∨
      ∃ other ∈ ensemble.begun, running.progress.made = other.progress.made) : after.Counted where
  queue := by
    rw [hqueue, hmade, hoffered]
    exact h.queue
  fresh := by
    rw [hmade, hsize]
    exact h.fresh
  nodup := by
    rw [hmade]
    exact h.nodup
  jobs := by
    rw [hmade]
    intro running hrunning ref href
    rcases hbegun running hrunning with hnone | ⟨other, hother, hsame⟩
    · rw [hnone] at href
      exact (List.not_mem_nil href).elim
    · exact h.jobs other hother ref (hsame ▸ href)

/-- A thread does its next section. -/
theorem go {R : Type} (h : ensemble.Counted) (thread : Thread R)
    (hengine : after.engine = (ensemble.go thread).2.engine) (hlog : after.log = (ensemble.go thread).2.log)
    (hbegun : ∀ running ∈ after.begun, ∃ other ∈ ensemble.begun,
      running.progress.made = other.progress.made ∨
        running.progress.made = other.progress.made ++ thread.makes ensemble.engine.store) : after.Counted := by
  have heffect := thread.effect_step ensemble.log.lowered ensemble.engine.workspace
  have hmade : after.log.made = ensemble.log.made ++ thread.makes ensemble.engine.store := by
    rw [hlog]
    rfl
  have hsize : after.engine.store.facts.size =
      ensemble.engine.store.facts.size + (thread.makes ensemble.engine.store).length := by
    rw [hengine]
    exact heffect.size
  have hmakes : ∀ ref ∈ thread.makes ensemble.engine.store,
      ref.index = ensemble.engine.store.facts.size ∧ 0 < (thread.makes ensemble.engine.store).length := by
    intro ref href
    cases thread with
    | offering _ _ =>
        rw [List.mem_singleton.1 href]
        exact ⟨rfl, Nat.zero_lt_one⟩
    | between _ | making _ _ _ | waking _ _ => exact (List.not_mem_nil href).elim
  refine ⟨?_, ?_, ?_, ?_⟩
  · have hpending : after.engine.store.pending = ensemble.engine.store.pending ++
        (thread.makes ensemble.engine.store ++ thread.offers) := by
      rw [hengine]
      exact heffect.pending
    have hoffered : after.log.offered = ensemble.log.offered ++ thread.offers := by
      rw [hlog]
      rfl
    have hleft : after.log.left = ensemble.log.left := by
      rw [hlog]
      rfl
    refine List.perm_iff_count.2 fun ref => ?_
    have hbefore := h.queue.count_eq ref
    rw [hpending, hoffered, hleft, hmade]
    simp only [List.count_append] at hbefore ⊢
    omega
  · rw [hmade, hsize]
    intro ref href
    rcases List.mem_append.1 href with hold | hnew
    · exact Nat.lt_of_lt_of_le (h.fresh ref hold) (Nat.le_add_right _ _)
    · obtain ⟨hindex, hpos⟩ := hmakes ref hnew
      omega
  · rw [hmade]
    refine List.nodup_append'.2 ⟨h.nodup, ?_, ?_⟩
    · cases thread with
      | offering _ _ => exact List.nodup_singleton _
      | between _ | making _ _ _ | waking _ _ => exact List.nodup_nil
    · intro ref hold hnew
      -- a new fact comes after all that there are
      exact absurd (h.fresh ref hold) (by rw [(hmakes ref hnew).1]; exact Nat.lt_irrefl _)
  · rw [hmade]
    intro running hrunning ref href
    obtain ⟨other, hother, hsame | hmore⟩ := hbegun running hrunning
    · exact List.mem_append_left _ (h.jobs other hother ref (hsame ▸ href))
    · rw [hmore] at href
      exact (List.mem_append.1 href).elim (fun hold => List.mem_append_left _ (h.jobs other hother ref hold))
        (List.mem_append_right _)

theorem take (h : ensemble.Counted) : (ensemble.take reading).Counted := by
  have hbegun : ∀ running ∈ (ensemble.take reading).begun, running.progress.made = [] ∨
      ∃ other ∈ ensemble.begun, running.progress.made = other.progress.made := by
    intro running hrunning
    rcases of_mem_begun_take hrunning with hold | hnew
    · exact .inr ⟨running, hold, rfl⟩
    · exact .inl (by rw [hnew])
  revert hbegun
  exact take_cases (fun _ => h) fun _ _ _ _ _ hbegun => h.aside rfl rfl rfl rfl hbegun

theorem proceed (h : ensemble.Counted) (index : Nat) : (ensemble.proceed index).Counted := by
  refine proceed_cases ?nobody ?goes ?succeeds ?fails
  case nobody => exact h
  case goes =>
    intro running hrunning _
    refine h.go running.progress.thread rfl rfl fun other hother => ?_
    rcases of_mem_begun_setProgress hrunning hother with hold | ⟨hbegun, rfl⟩
    · exact ⟨other, hold, .inl rfl⟩
    · exact ⟨running, hbegun, .inr rfl⟩
  case succeeds => exact fun _ _ hrunning _ _ => h.aside rfl rfl rfl rfl (made_setProgress hrunning rfl)
  case fails => exact fun _ _ _ hrunning _ _ => h.aside rfl rfl rfl rfl (made_setProgress hrunning rfl)

theorem release (h : ensemble.Counted) (index : Nat) : (ensemble.release index).Counted := by
  have hbegun : ∀ running ∈ (ensemble.release index).begun, running.progress.made = [] ∨
      ∃ other ∈ ensemble.begun, running.progress.made = other.progress.made :=
    fun running hrunning => .inr ⟨running, of_mem_begun_release hrunning, rfl⟩
  revert hbegun
  refine release_cases (fun _ => h) fun running hrunning _ => ?_
  simp only [Crew.finish, crew, hrunning]
  exact h.aside rfl rfl rfl rfl

theorem outside (h : ensemble.Counted) (index : Nat) : (ensemble.outside index).Counted :=
  outside_cases h fun thread _ => h.go thread rfl rfl fun other hother => ⟨other, hother, .inl rfl⟩

theorem act (h : ensemble.Counted) (firing : Firing) (actions : List Action) :
    (ensemble.act reading firing actions).Counted := by
  have hsame (deed : Deed) (engine : Engine) (point : Point) (hpending : engine.store.pending = _)
      (hsize : engine.store.facts.size = _) : Counted { ensemble with engine, point, deed } :=
    h.aside (congrArg _ hpending) hsize rfl rfl (begun_same rfl rfl)
  refine act_cases ?ends ?unresolved ?runs ?calls ?goes ?fails ?succeeds ?sends ?givesBack ?leaves ?reports
  case ends => exact fun _ => hsame _ _ _ rfl rfl
  case unresolved => exact fun _ _ _ _ => hsame _ _ _ rfl rfl
  case runs => exact fun _ _ _ _ => hsame _ _ _ rfl rfl
  case calls => exact fun _ _ _ => h.aside rfl rfl rfl rfl (begun_same rfl rfl)
  case goes => exact fun _ thread _ _ => h.go thread rfl rfl fun other hother => ⟨other, hother, .inl rfl⟩
  case fails => exact fun _ _ _ _ _ => hsame _ _ _ rfl rfl
  case succeeds =>
    intro _ _ after _
    have hkeeps := Store.KeepsQueue.removeAll ensemble.engine.store after.removals
    exact hsame _ _ _ hkeeps.pending hkeeps.size
  case sends =>
    intro _
    obtain ⟨queue, calling, refused, accepted, hsend, _⟩ := ensemble.crew.exists_send_eq 0
    rw [hsend]
    exact h.aside rfl rfl rfl rfl (begun_same rfl rfl)
  case givesBack =>
    intro refusal rest _ hrefused
    simp only [Crew.giveBack, crew, hrefused, List.getElem?_cons_zero]
    exact h.aside rfl rfl rfl rfl (begun_same rfl rfl)
  case leaves => exact fun _ _ _ => hsame _ _ _ rfl rfl
  case reports => exact fun _ _ => hsame _ _ _ rfl rfl

/-- The facts that a drain takes out of the queue are written down. -/
theorem leave (h : ensemble.Counted) (state : EngineState) (point : Point) :
    Counted
      { ensemble with
        engine := { ensemble.engine.drain with state }
        point
        log := ensemble.log.leave ensemble.engine.store } :=
  h.aside (List.append_nil _) rfl rfl rfl (begun_same rfl rfl)

theorem loop (h : ensemble.Counted) (found : Option Match) : (ensemble.loop reading found).Counted := by
  obtain ⟨engine, point, limit, fired, deed, floor, outsiders, log⟩ := ensemble
  have hstay (state : EngineState) (next : Point) :
      Counted ⟨{ engine with state }, next, limit, fired, deed, floor, outsiders, log⟩ :=
    h.aside rfl rfl rfl rfl (begun_same rfl rfl)
  cases point with
  | act firing actions => exact h.act firing actions
  | matching =>
      cases found with
      | some found => exact h.aside rfl rfl rfl rfl (begun_same rfl rfl)
      | none => exact h.aside rfl rfl rfl rfl (begun_same rfl rfl)
  | between _ => exact h
  | drain => exact h.leave engine.state _
  | readEpoch => exact h.aside rfl rfl rfl rfl (begun_same rfl rfl)
  | lookForFacts _ | lookForHalt _ | lookForHaltAgain | countTicketsAgain => exact hstay engine.state _
  | listen _ => exact h.leave engine.state _
  | start =>
      simp only [Ensemble.loop, look, Machine.loop]
      split
      · exact hstay engine.state _
      · split <;> exact hstay engine.state _
  | countTickets seen =>
      simp only [Ensemble.loop, look, Machine.loop]
      split
      · exact hstay engine.state _
      · split <;> exact hstay engine.state _
  | wait seen =>
      simp only [Ensemble.loop, look, Machine.loop]
      split
      · rename_i hquiet
        have hempty : engine.store.pending = [] := List.isEmpty_iff.1 (Bool.and_eq_true_iff.1 hquiet).1
        refine h.aside ?_ rfl rfl rfl (begun_same rfl rfl)
        simp only [Log.leave, hempty, List.append_nil]
      · exact h.leave engine.state _
  | close outcome =>
      cases outcome with
      | stepLimit => exact hstay .idle _
      | halted | quiescent =>
          simp only [Ensemble.loop, look, Machine.loop]
          split
          · exact h
          · exact hstay .halted _

theorem attend (h : ensemble.Counted) (errand : Errand) : (ensemble.attend errand).Counted := by
  unfold Ensemble.attend
  split
  · cases errand with
    | drain | forgetPending => exact h.aside (List.append_nil _) rfl rfl rfl (begun_same rfl rfl)
    | remove ref =>
        have hkeeps := Store.KeepsQueue.remove ensemble.engine.store ref
        exact h.aside (congrArg _ hkeeps.pending) hkeeps.size rfl rfl (begun_same rfl rfl)
    | program _ _ | forgetTemplates | forgetLive | forgetHistory | lower | dismiss =>
        exact h.aside rfl rfl rfl rfl (begun_same rfl rfl)
  · exact h

theorem step (h : ensemble.Counted) (turn : Turn) : (ensemble.step reading turn).Counted := by
  cases turn with
  | errand errand =>
      simp only [Ensemble.step]
      split
      · exact h.attend errand
      · exact h
  | begin limit =>
      simp only [Ensemble.step]
      split
      · exact h.aside rfl rfl rfl rfl (begun_same rfl rfl)
      · exact h
  | loop found => exact h.loop found
  | take => exact h.take
  | proceed index => exact h.proceed index
  | release index => exact h.release index
  | join script => exact h.aside rfl rfl rfl rfl (begun_same rfl rfl)
  | outside index => exact h.outside index

theorem run (h : ensemble.Counted) (turns : List Turn) : (ensemble.run reading turns).Counted :=
  run_induction (fun _ turn h => h.step turn) h turns

/-- A fact that a job has made was enqueued exactly once, not counting calls that enqueue without making. -/
theorem count_of_made (h : ensemble.Counted) {running : Running Job Progress} (hrunning : running ∈ ensemble.begun)
    {ref : FactRef} (href : ref ∈ running.progress.made) :
    (ensemble.log.left ++ ensemble.engine.store.pending).count ref = 1 + ensemble.log.offered.count ref := by
  rw [h.queue.count_eq ref, List.count_append,
    List.count_eq_one_of_mem h.nodup (h.jobs running hrunning ref href)]

end Counted

end Ensemble

end ProductionSystem
