import ProductionSystem.Proofs.EnsembleFacts

/-!
What the floor of an ensemble keeps of its jobs. A worker goes through the script of its job from the beginning,
section by section; only workers begin and end jobs; and a job that is over or was turned away is so for good, so
that it can never be under way again.
-/

namespace ProductionSystem

/-- A thread that has come this far with a script, and the facts that it made on the way. Between its sections
others may have done anything to the workspace. -/
inductive Thread.Follows {R : Type} (script : Script R) : List FactRef → Thread R → Prop where
  | beginning : Follows script [] (.between script)
  | next {made : List FactRef} {thread : Thread R} (lowered : Nat) (workspace : Workspace)
      (h : Follows script made thread) (hgoing : thread.result? = none) :
      Follows script (made ++ thread.makes workspace.store) (thread.step lowered workspace).1

namespace Ensemble

/-- A worker has done the first part of its job, and a job that is over was done from its beginning. -/
def Followed (reading : Reading) (ensemble : Ensemble) : Prop :=
  ∀ running ∈ ensemble.begun,
    Thread.Follows (reading running.job.command running.job.args running.job.firing) running.progress.made
      running.progress.thread

/-- What is over or was turned away stays so. -/
structure Remembers (before after : Ensemble) : Prop where
  finished : before.floor.finished <+: after.floor.finished
  rejected : before.floor.rejected <+: after.floor.rejected

/-- What a turn of another thread than the workers does to the jobs: at most it turns one away. -/
structure LeavesJobs (before after : Ensemble) : Prop where
  running : after.floor.running = before.floor.running
  finished : after.floor.finished = before.floor.finished
  rejected : before.floor.rejected <+: after.floor.rejected

namespace LeavesJobs

variable {before after : Ensemble}

theorem of_floor (h : after.floor = before.floor) : LeavesJobs before after where
  running := congrArg Floor.running h
  finished := congrArg Floor.finished h
  rejected := h ▸ List.prefix_refl _

theorem begun (h : LeavesJobs before after) : after.begun = before.begun := by
  rw [Ensemble.begun, Ensemble.begun, h.running, h.finished]

theorem remembers (h : LeavesJobs before after) : Remembers before after where
  finished := h.finished ▸ List.prefix_refl _
  rejected := h.rejected

theorem act (ensemble : Ensemble) (reading : Reading) (firing : Firing) (actions : List Action) :
    LeavesJobs ensemble (ensemble.act reading firing actions) := by
  refine act_cases ?ends ?unresolved ?runs ?calls ?goes ?fails ?succeeds ?sends ?givesBack ?leaves ?reports
  case ends => exact fun _ => .of_floor rfl
  case unresolved | runs => exact fun _ _ _ _ => .of_floor rfl
  case calls => exact fun _ _ _ => ⟨rfl, rfl, List.prefix_refl _⟩
  case goes => exact fun _ _ _ _ => .of_floor rfl
  case fails => exact fun _ _ _ _ _ => .of_floor rfl
  case succeeds => exact fun _ _ _ _ => .of_floor rfl
  case sends =>
    intro _
    obtain ⟨queue, calling, refused, accepted, hsend, _⟩ := ensemble.crew.exists_send_eq 0
    rw [hsend]
    exact ⟨rfl, rfl, List.prefix_refl _⟩
  case givesBack =>
    intro refusal rest _ hrefused
    simp only [Crew.giveBack, crew, hrefused, List.getElem?_cons_zero]
    exact ⟨rfl, rfl, List.prefix_append _ _⟩
  case leaves => exact fun _ _ _ => .of_floor rfl
  case reports => exact fun _ _ => .of_floor rfl

theorem loop (ensemble : Ensemble) (reading : Reading) (found : Option Match) :
    LeavesJobs ensemble (ensemble.loop reading found) := by
  rcases loop_cases reading ensemble found with ⟨firing, actions, _, hloop⟩ | ⟨_, hloop⟩ | ⟨_, hloop, _⟩
  · rw [hloop]
    exact .act ensemble reading firing actions
  · rw [hloop]
    cases found <;> exact .of_floor rfl
  · rw [hloop]
    exact .of_floor rfl

theorem outside (ensemble : Ensemble) (index : Nat) : LeavesJobs ensemble (ensemble.outside index) :=
  outside_cases (.of_floor rfl) fun _ _ => .of_floor rfl

theorem step (ensemble : Ensemble) (reading : Reading) {turn : Turn} (hturn : turn.byWorkers = false) :
    LeavesJobs ensemble (ensemble.step reading turn) := by
  cases turn with
  | take | proceed _ | release _ => cases hturn
  | loop found => exact .loop ensemble reading found
  | join script => exact .of_floor rfl
  | begin limit =>
      simp only [Ensemble.step]
      split <;> exact .of_floor rfl
  | errand errand =>
      simp only [Ensemble.step, attend]
      split
      · split <;> exact .of_floor rfl
      · exact .of_floor rfl
  | outside index => exact .outside ensemble index

end LeavesJobs

namespace Followed

variable {reading : Reading} {ensemble : Ensemble}

theorem proceed (h : ensemble.Followed reading) (index : Nat) : (ensemble.proceed index).Followed reading := by
  have hset {running : Running Job Progress} {progress : Progress}
      (hrunning : ensemble.floor.running[index]? = some running)
      (hnext : running ∈ ensemble.begun → Thread.Follows
        (reading running.job.command running.job.args running.job.firing) progress.made progress.thread) :
      (ensemble.setProgress index running progress).Followed reading := by
    intro other hother
    rcases of_mem_begun_setProgress hrunning hother with hold | ⟨hbegun, rfl⟩
    · exact h other hold
    · exact hnext hbegun
  refine proceed_cases ?nobody ?goes ?succeeds ?fails
  case nobody => exact h
  case goes =>
    exact fun running hrunning hgoing =>
      hset hrunning fun hbegun => .next _ ensemble.engine.workspace (h running hbegun) hgoing
  case succeeds => exact fun running _ hrunning _ _ => hset hrunning (h running)
  case fails => exact fun running _ _ hrunning _ _ => hset hrunning (h running)

theorem step (h : ensemble.Followed reading) (turn : Turn) : (ensemble.step reading turn).Followed reading := by
  cases turn with
  | take =>
      intro running hrunning
      rcases of_mem_begun_take hrunning with hold | hnew
      · exact h running hold
      · rw [hnew]
        exact .beginning
  | proceed index => exact h.proceed index
  | release index => exact fun running hrunning => h running (of_mem_begun_release hrunning)
  | errand _ | begin _ | loop _ | join _ | outside _ =>
      rw [Followed, (LeavesJobs.step ensemble reading rfl).begun]
      exact h

theorem run (config : Config) (turns : List Turn) : ((new config).run reading turns).Followed reading :=
  run_induction (fun _ turn h => h.step turn) (fun _ hrunning => (List.not_mem_nil hrunning).elim) turns

end Followed

namespace Remembers

variable {before middle after : Ensemble}

theorem of_same (hfinished : after.floor.finished = before.floor.finished)
    (hrejected : after.floor.rejected = before.floor.rejected) : Remembers before after where
  finished := hfinished ▸ List.prefix_refl _
  rejected := hrejected ▸ List.prefix_refl _

theorem trans (h : Remembers before middle) (hlater : Remembers middle after) : Remembers before after :=
  ⟨h.finished.trans hlater.finished, h.rejected.trans hlater.rejected⟩

theorem take (ensemble : Ensemble) (reading : Reading) : Remembers ensemble (ensemble.take reading) :=
  take_cases (.of_same rfl rfl) fun _ _ _ _ _ => .of_same rfl rfl

theorem proceed (ensemble : Ensemble) (index : Nat) : Remembers ensemble (ensemble.proceed index) :=
  proceed_cases (.of_same rfl rfl) (fun _ _ _ => .of_same rfl rfl) (fun _ _ _ _ _ => .of_same rfl rfl)
    fun _ _ _ _ _ _ => .of_same rfl rfl

theorem release (ensemble : Ensemble) (index : Nat) : Remembers ensemble (ensemble.release index) := by
  refine release_cases (.of_same rfl rfl) fun running hrunning _ => ?_
  simp only [Crew.finish, crew, hrunning]
  exact ⟨List.prefix_append _ _, List.prefix_refl _⟩

theorem step (ensemble : Ensemble) (reading : Reading) (turn : Turn) :
    Remembers ensemble (ensemble.step reading turn) := by
  cases turn with
  | take => exact .take ensemble reading
  | proceed index => exact .proceed ensemble index
  | release index => exact .release ensemble index
  | errand _ | begin _ | loop _ | join _ | outside _ => exact (LeavesJobs.step ensemble reading rfl).remembers

theorem run (ensemble : Ensemble) (reading : Reading) (turns : List Turn) :
    Remembers ensemble (ensemble.run reading turns) :=
  run_induction (fun after turn h => h.trans (step after reading turn)) (.of_same rfl rfl) turns

theorem subset (h : Remembers before after) :
    before.floor.turnedAway ++ before.floor.done ⊆ after.floor.turnedAway ++ after.floor.done := by
  intro entry hentry
  refine List.mem_append.2 ((List.mem_append.1 hentry).imp (fun haway => ?_) fun hover => ?_)
  · exact ((h.rejected.map Refusal.entry).subset) haway
  · exact ((h.finished.map (·.1.entry)).subset) hover

end Remembers

/-- A job that is over or was turned away is never under way again. -/
theorem InOrder.not_underWay {ensemble : Ensemble} (h : ensemble.InOrder) {entry : Ticket × Job}
    (hsettled : entry ∈ ensemble.floor.turnedAway ++ ensemble.floor.done) : entry ∉ ensemble.crew.underWay := by
  intro hunderWay
  have hnodup := ((h.accounts.submitted.map (·.1)).nodup_iff).2 h.accounts.nodup_submitted
  rw [List.map_append] at hnodup
  exact List.disjoint_of_nodup_append hnodup (List.mem_map_of_mem hunderWay) (List.mem_map_of_mem hsettled)

end Ensemble

end ProductionSystem
