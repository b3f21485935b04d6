import Mathlib.Data.List.Perm.Subperm
import ProductionSystem.Proofs.EnsembleAccounts

/-!
The failures of jobs, with threads that come between one another. A worker reports a job that failed before it
gives the ticket back, and the loop reports a job that was turned away before it goes on with the firing. So when no
ticket is out, all of this is among the failures of the engine.
-/

namespace ProductionSystem

namespace Running

variable (running : Running Job Progress)

/-- The report of a job, if it is over and failed. -/
def failure? : Option Failure :=
  match running.progress.thread.result? with
  | some (some cause, _) => some (.of running.job.firing.rule running.job.command.name cause)
  | _ => none

/-- The report that the worker has made. -/
def told? : Option Failure := if running.progress.reported then running.failure? else none

end Running

/-- The report of a job that was turned away. -/
def Refusal.failure (refusal : Refusal Job) : Failure :=
  .of refusal.job.firing.rule refusal.job.command.name refusal.cause

/-- The report that the loop owes. -/
def Deed.due : Deed → List Failure
  | .reporting refusal => [refusal.failure]
  | _ => []

namespace Ensemble

/-- The failures of jobs, since failures were last forgotten, that are reported or that the loop is about to report. -/
def told (ensemble : Ensemble) : List Failure :=
  ensemble.floor.running.filterMap Running.told? ++
    ((ensemble.floor.finished.drop ensemble.log.overBefore).filterMap (·.1.failure?) ++
      (ensemble.floor.rejected.drop ensemble.log.awayBefore).map Refusal.failure)

/-- The failures that are reported, and the one that the loop owes. -/
def known (ensemble : Ensemble) : List Failure := ensemble.deed.due ++ ensemble.engine.failures.toList

/-- The jobs that failed are reported. -/
structure Told (ensemble : Ensemble) : Prop where
  told : ensemble.told.Subperm ensemble.known
  reported : ∀ running ∈ ensemble.floor.running, running.progress.reported = true →
    running.progress.thread.result?.isSome
  finished : ∀ entry ∈ ensemble.floor.finished, entry.1.progress.thread.result?.isSome
  overBefore : ensemble.log.overBefore ≤ ensemble.floor.finished.length
  awayBefore : ensemble.log.awayBefore ≤ ensemble.floor.rejected.length

namespace Told

variable {ensemble after : Ensemble} {reading : Reading}

theorem new (config : Config) : (new config).Told where
  told := List.nil_subperm
  reported := fun _ hrunning => (List.not_mem_nil hrunning).elim
  finished := fun _ hentry => (List.not_mem_nil hentry).elim
  overBefore := Nat.le_refl _
  awayBefore := Nat.le_refl _

/-- A turn that leaves the jobs alone, and forgets no failure. -/
theorem aside (h : ensemble.Told) (hrunning : after.floor.running = ensemble.floor.running)
    (hfinished : after.floor.finished = ensemble.floor.finished)
    (hrejected : after.floor.rejected = ensemble.floor.rejected)
    (hover : after.log.overBefore = ensemble.log.overBefore) (haway : after.log.awayBefore = ensemble.log.awayBefore)
    (hknown : ensemble.known.Subperm after.known) : after.Told := by
  refine ⟨?_, ?_, ?_, ?_, ?_⟩
  · rw [Ensemble.told, hrunning, hfinished, hrejected, hover, haway]
    exact h.told.trans hknown
  · rw [hrunning]
    exact h.reported
  · rw [hfinished]
    exact h.finished
  · rw [hfinished, hover]
    exact h.overBefore
  · rw [hrejected, haway]
    exact h.awayBefore

theorem known_report (rule command : String) (cause : ErrorKind) :
    (ensemble.report rule command cause).known = ensemble.known ++ [.of rule command cause] := by
  simp only [known, report, Engine.report, Array.toList_push, List.append_assoc]

section FilterMap

variable {α β : Type} {l : List α} {index : Nat} {a b : α} {f : α → Option β}

theorem filterMap_cons (a : α) (l : List α) (f : α → Option β) :
    (a :: l).filterMap f = (f a).toList ++ l.filterMap f := by
  cases ha : f a with
  | none => rw [List.filterMap_cons_none ha]; rfl
  | some c => rw [List.filterMap_cons_some ha]; rfl

theorem filterMap_eraseIdx (h : l[index]? = some a) :
    (l.filterMap f).Perm ((f a).toList ++ (l.eraseIdx index).filterMap f) := by
  rw [← filterMap_cons]
  exact (perm_cons_eraseIdx h).filterMap f

theorem filterMap_set (h : l[index]? = some a) (hnone : f a = none) :
    ((l.set index b).filterMap f).Perm ((f b).toList ++ l.filterMap f) := by
  have hindex := (List.getElem?_eq_some_iff.1 h).1
  have hset := (List.set_perm_cons_eraseIdx hindex b).filterMap f
  have hold := filterMap_eraseIdx (f := f) h
  rw [filterMap_cons] at hset
  rw [hnone, Option.toList_none, List.nil_append] at hold
  exact hset.trans (hold.symm.append_left _)

end FilterMap

/-- A job that is not reported goes on. If it is reported now, so is its failure. -/
theorem setProgress (h : ensemble.Told) {index : Nat} {running : Running Job Progress} {progress : Progress}
    (hrunning : ensemble.floor.running[index]? = some running) (hunreported : running.progress.reported = false)
    (hfloor : after.floor = (ensemble.setProgress index running progress).floor)
    (hover : after.log.overBefore = ensemble.log.overBefore) (haway : after.log.awayBefore = ensemble.log.awayBefore)
    (hreported : progress.reported = true → progress.thread.result?.isSome)
    (hknown : ((Running.told? { running with progress }).toList ++ ensemble.known).Subperm after.known) :
    after.Told := by
  have hnone : running.told? = none := by rw [Running.told?, hunreported]; rfl
  have htold : after.told.Perm ((Running.told? { running with progress }).toList ++ ensemble.told) := by
    rw [Ensemble.told, Ensemble.told, hfloor, hover, haway]
    refine ((filterMap_set hrunning hnone).append_right _).trans ?_
    rw [List.append_assoc]
    exact .refl _
  refine ⟨?_, ?_, ?_, ?_, ?_⟩
  · exact htold.subperm.trans (((List.Subperm.refl _).append h.told).trans hknown)
  · rw [hfloor]
    intro other hother hsaid
    rcases List.mem_or_eq_of_mem_set hother with hold | rfl
    · exact h.reported other hold hsaid
    · exact hreported hsaid
  · rw [hfloor]
    exact h.finished
  · rw [hfloor, hover]
    exact h.overBefore
  · rw [hfloor, haway]
    exact h.awayBefore

theorem proceed (h : ensemble.Told) (index : Nat) : (ensemble.proceed index).Told := by
  refine proceed_cases ?nobody ?goes ?succeeds ?fails
  case nobody => exact h
  case goes =>
    intro running hrunning hgoing
    have hunreported : running.progress.reported = false := by
      refine Bool.eq_false_iff.2 fun hsaid => ?_
      have hended := h.reported running (List.mem_of_getElem? hrunning) hsaid
      rw [hgoing] at hended
      cases hended
    have hnone (thread : Thread Ended) (made : List FactRef) :
        Running.told? { running with progress := ⟨thread, made, running.progress.reported⟩ } = none := by
      rw [Running.told?, hunreported]
      rfl
    refine h.setProgress hrunning hunreported rfl rfl rfl (fun hsaid => ?_) ?_
    · rw [hunreported] at hsaid
      cases hsaid
    · rw [hnone]
      exact .refl _
  case succeeds =>
    intro running after hrunning hended hunreported
    refine h.setProgress hrunning hunreported rfl rfl rfl (fun _ => by rw [hended]; rfl) ?_
    simp only [Running.told?, Running.failure?, hended, if_true, Option.toList_none, List.nil_append]
    exact .refl _
  case fails =>
    intro running cause after hrunning hended hunreported
    refine h.setProgress hrunning hunreported rfl rfl rfl (fun _ => by rw [hended]; rfl) ?_
    simp only [Running.told?, Running.failure?, hended, if_true, Option.toList_some, List.singleton_append]
    show List.Subperm _ (ensemble.report _ _ cause).known
    rw [known_report]
    exact (List.perm_append_singleton _ _).symm.subperm

theorem release (h : ensemble.Told) (index : Nat) : (ensemble.release index).Told := by
  refine release_cases h fun running hrunning hsaid => ?_
  have hended := h.reported running (List.mem_of_getElem? hrunning) hsaid
  simp only [Crew.finish, crew, hrunning]
  refine ⟨?_, ?_, ?_, ?_, h.awayBefore⟩
  · refine List.Subperm.trans (List.Perm.subperm ?_) h.told
    have hpick := filterMap_eraseIdx (f := Running.told?) hrunning
    have htold : running.told? = running.failure? := by rw [Running.told?, if_pos hsaid]
    rw [htold] at hpick
    -- the report is counted among the jobs that are over from now on
    refine List.perm_iff_count.2 fun failure => ?_
    have hcount := hpick.count_eq failure
    simp only [Ensemble.told, withCrew, signal, Log.signal, Crew.release,
      List.drop_append_of_le_length h.overBefore, List.filterMap_append, filterMap_cons, List.filterMap_nil,
      List.append_nil, List.count_append] at hcount ⊢
    omega
  · exact fun other hother => h.reported other (List.mem_of_mem_eraseIdx hother)
  · intro entry hentry
    rcases List.mem_append.1 hentry with hold | hnew
    · exact h.finished entry hold
    · rw [List.mem_singleton.1 hnew]
      exact hended
  · refine Nat.le_trans h.overBefore ?_
    simp only [withCrew, signal, List.length_append]
    exact Nat.le_add_right _ _

theorem take (h : ensemble.Told) : (ensemble.take reading).Told := by
  refine take_cases h fun ticket job queue _ _ => ⟨?_, ?_, h.finished, h.overBefore, h.awayBefore⟩
  · have hnew : Running.told? ⟨ticket, job, { thread := .between (reading job.command job.args job.firing) }⟩ =
        none := rfl
    refine List.Subperm.trans (List.Perm.subperm ?_) h.told
    simp only [Ensemble.told, List.filterMap_append, filterMap_cons, hnew, Option.toList_none, List.filterMap_nil,
      List.append_nil]
    exact .refl _
  · intro other hother hsaid
    rcases List.mem_append.1 hother with hold | hnew
    · exact h.reported other hold hsaid
    · rw [List.mem_singleton.1 hnew] at hsaid
      cases hsaid

/-- A job that is turned away is to be reported next. -/
theorem giveBack (h : ensemble.Told) {refusal : Refusal Job} {rest : List (Refusal Job)}
    (hrefused : ensemble.floor.refused = refusal :: rest) (hdue : ensemble.deed.due = []) :
    Told { (ensemble.withCrew (ensemble.crew.giveBack 0)).signal with deed := .reporting refusal } := by
  simp only [Crew.giveBack, crew, hrefused, List.getElem?_cons_zero]
  refine ⟨?_, h.reported, h.finished, h.overBefore, ?_⟩
  · have htold := h.told
    rw [known, hdue, List.nil_append] at htold
    refine List.Subperm.trans (List.Perm.subperm ?_) ((List.subperm_cons refusal.failure).2 htold)
    simp only [Ensemble.told, withCrew, signal, Log.signal, Crew.release, List.drop_append_of_le_length h.awayBefore,
      List.map_append, List.map_cons, List.map_nil, ← List.append_assoc]
    exact List.perm_append_singleton _ _
  · exact Nat.le_trans h.awayBefore (by simp only [withCrew, signal, List.length_append]; exact Nat.le_add_right _ _)

theorem act (h : ensemble.Told) (firing : Firing) (actions : List Action) :
    (ensemble.act reading firing actions).Told := by
  have hsame (engine : Engine) (point : Point) (deed : Deed)
      (hknown : ensemble.known.Subperm (deed.due ++ engine.failures.toList)) :
      Told { ensemble with engine, point, deed } :=
    h.aside rfl rfl rfl rfl rfl hknown
  have hold (hdue : ensemble.deed.due = []) : ensemble.known = ensemble.engine.failures.toList := by
    rw [known, hdue, List.nil_append]
  have hmore (hdue : ensemble.deed.due = []) (rule command : String) (cause : ErrorKind) :
      ensemble.known.Subperm (ensemble.engine.report rule command cause).failures.toList := by
    rw [hold hdue, Engine.report, Array.toList_push]
    exact (List.sublist_append_left _ _).subperm
  refine act_cases ?ends ?unresolved ?runs ?calls ?goes ?fails ?succeeds ?sends ?givesBack ?leaves ?reports
  case ends => exact fun _ => hsame _ _ _ (.refl _)
  case unresolved =>
    intro action rest cause hdeed
    refine hsame _ _ _ ?_
    rw [hdeed]
    exact hmore (by rw [hdeed]; rfl) _ _ _
  case runs => exact fun _ _ _ hdeed => hsame _ _ _ (hold (by rw [hdeed]; rfl) ▸ .refl _)
  case calls => exact fun _ _ hdeed => h.aside rfl rfl rfl rfl rfl (hold (by rw [hdeed]; rfl) ▸ .refl _)
  case goes => exact fun _ _ hdeed _ => h.aside rfl rfl rfl rfl rfl (hold (by rw [hdeed]; rfl) ▸ .refl _)
  case fails => exact fun _ _ _ _ hdeed => hsame _ _ _ (hmore (by rw [hdeed]; rfl) _ _ _)
  case succeeds => exact fun _ _ _ hdeed => hsame _ _ _ (hold (by rw [hdeed]; rfl) ▸ .refl _)
  case sends =>
    intro _
    obtain ⟨pool, calling, refused, accepted, hsend, _⟩ := ensemble.crew.exists_send_eq 0
    rw [hsend]
    exact h.aside rfl rfl rfl rfl rfl (.refl _)
  case givesBack => exact fun _ _ hdeed hrefused => h.giveBack hrefused (by rw [hdeed]; rfl)
  case leaves => exact fun hdeed _ _ => hsame _ _ _ (hold (by rw [hdeed]; rfl) ▸ .refl _)
  case reports =>
    intro refusal hdeed
    refine hsame _ _ _ ?_
    simp only [known, hdeed, Deed.due, report, Engine.report, Array.toList_push, List.nil_append]
    exact List.perm_append_comm.subperm

theorem loop (h : ensemble.Told) (found : Option Match) : (ensemble.loop reading found).Told := by
  rcases loop_cases reading ensemble found with
    ⟨firing, actions, _, hloop⟩ | ⟨_, hloop⟩ | ⟨_, hloop, hengine⟩
  · rw [hloop]
    exact h.act firing actions
  · rw [hloop]
    cases found with
    | some found => exact h.aside rfl rfl rfl rfl rfl (.refl _)
    | none => exact h.aside rfl rfl rfl rfl rfl (.refl _)
  · rw [hloop]
    have hlog : ensemble.look.log.overBefore = ensemble.log.overBefore ∧
        ensemble.look.log.awayBefore = ensemble.log.awayBefore := by
      simp only [look]
      split <;> exact ⟨rfl, rfl⟩
    refine h.aside rfl rfl rfl hlog.1 hlog.2 ?_
    have hfailures : ensemble.look.engine.failures = ensemble.engine.failures := by
      rcases hengine with ⟨state, hengine⟩ | hengine
      · rw [hengine]
      · rw [hengine]
        rfl
    show List.Subperm _ (ensemble.deed.due ++ ensemble.look.engine.failures.toList)
    rw [hfailures]
    exact .refl _

theorem outside (h : ensemble.Told) (index : Nat) : (ensemble.outside index).Told :=
  outside_cases h fun _ _ => h.aside rfl rfl rfl rfl rfl (.refl _)

/-- What is forgotten between runs is only forgotten when no job is under way. -/
theorem attend (h : ensemble.Told) (horder : ensemble.InOrder) (hpoint : ensemble.point.isActing = false)
    (errand : Errand) : (ensemble.attend errand).Told := by
  have hdeed := horder.deed hpoint
  unfold Ensemble.attend
  split
  · rename_i hallowed
    cases errand with
    | forgetHistory =>
        -- no ticket is out, so there is no worker who has reported its job and still has it
        have hzero : ensemble.engine.outstanding = 0 := of_decide_eq_true hallowed
        have hunderWay := horder.accounts.eq_nil_of_outstanding_eq_zero hzero
        have hidle : ensemble.floor.running = [] :=
          List.map_eq_nil_iff.1 (List.append_eq_nil_iff.1 (List.append_eq_nil_iff.1 hunderWay).2).2
        refine ⟨?_, h.reported, h.finished, Nat.le_refl _, Nat.le_refl _⟩
        simp only [Ensemble.told, hidle, List.drop_length, List.filterMap_nil, List.map_nil, List.append_nil]
        exact List.nil_subperm
    | program _ _ | drain | remove _ | forgetTemplates | forgetPending | forgetLive | lower | dismiss =>
        exact h.aside rfl rfl rfl rfl rfl (.refl _)
  · exact h

theorem step (h : ensemble.Told) (horder : ensemble.InOrder) (turn : Turn) : (ensemble.step reading turn).Told := by
  cases turn with
  | errand errand =>
      simp only [Ensemble.step]
      split
      · rename_i hpoint
        exact h.attend horder (by rw [hpoint]; rfl) errand
      · exact h
  | begin limit =>
      simp only [Ensemble.step]
      split
      · exact h.aside rfl rfl rfl rfl rfl (.refl _)
      · exact h
  | loop found => exact h.loop found
  | take => exact h.take
  | proceed index => exact h.proceed index
  | release index => exact h.release index
  | join script => exact h.aside rfl rfl rfl rfl rfl (.refl _)
  | outside index => exact h.outside index

theorem run (h : ensemble.Told) (horder : ensemble.InOrder) (turns : List Turn) :
    (ensemble.run reading turns).Told :=
  (run_induction (P := fun ensemble => ensemble.InOrder ∧ ensemble.Told)
    (fun _ turn h => ⟨h.1.step turn, h.2.step h.1 turn⟩) ⟨horder, h⟩ turns).2

end Told

end Ensemble

end ProductionSystem
