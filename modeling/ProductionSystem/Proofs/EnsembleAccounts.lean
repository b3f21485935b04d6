import ProductionSystem.Proofs.CrewAccounts
import ProductionSystem.Proofs.Ensemble

/-!
The executor of an engine whose threads come between one another. All that the loop and the workers do with tickets
are moves of a crew, so its accounts are in order; and the loop is in a submit call only while it hands a job over.
-/

namespace ProductionSystem

/-- How many submit calls the loop may be in. -/
def Deed.calls : Deed → Nat
  | .handingOver => 1
  | _ => 0

/-- Is the loop in a firing? -/
def Point.isActing : Point → Bool
  | act _ _ => true
  | _ => false

/-- Outside firings and match phases the loop at most drains the queue, and says what the engine is doing. -/
theorem Machine.loop_cases (machine : Machine) (hacting : machine.point.isActing = false)
    (hmatching : machine.point ≠ .matching) :
    (∃ state, machine.loop.engine = { machine.engine with state }) ∨ machine.loop.engine = machine.engine.drain := by
  refine loop_moves (P := fun next => (∃ state, next.engine = { machine.engine with state }) ∨
    next.engine = machine.engine.drain) machine (fun state _ _ => .inl ⟨state, rfl⟩) (fun _ _ => .inr rfl)
      (fun _ hpoint _ => (hmatching hpoint).elim) fun firing action actions hpoint => ?_
  rw [hpoint] at hacting
  cases hacting

namespace Ensemble

/-- The loop goes on in a firing, ends a match phase, or looks at working memory, which it at most drains. -/
theorem loop_cases (reading : Reading) (ensemble : Ensemble) (found : Option Match) :
    (∃ firing actions, ensemble.point = .act firing actions ∧
        ensemble.loop reading found = ensemble.act reading firing actions) ∨
      ensemble.point = .matching ∧ ensemble.loop reading found = ensemble.choose found ∨
      ensemble.point.isActing = false ∧ ensemble.loop reading found = ensemble.look ∧
        ((∃ state, ensemble.look.engine = { ensemble.engine with state }) ∨
          ensemble.look.engine = ensemble.engine.drain) := by
  obtain ⟨engine, point, limit, fired, deed, floor, outsiders, log⟩ := ensemble
  cases point with
  | act firing actions => exact .inl ⟨firing, actions, rfl, rfl⟩
  | matching => exact .inr (.inl ⟨rfl, rfl⟩)
  | between _ | start | drain | readEpoch | lookForFacts _ | lookForHalt _ | countTickets _ | wait _ | listen _
  | lookForHaltAgain | countTicketsAgain | close _ =>
      exact .inr (.inr ⟨rfl, rfl, Machine.loop_cases _ rfl fun hmatching => by cases hmatching⟩)

/-- The ensemble's tickets and submit calls are in order. -/
structure InOrder (ensemble : Ensemble) : Prop where
  accounts : ensemble.crew.Accounts
  calls : ensemble.floor.calling.length + ensemble.floor.refused.length ≤ ensemble.deed.calls
  deed : ensemble.point.isActing = false → ensemble.deed = .nothing

namespace InOrder

variable {ensemble after : Ensemble} {reading : Reading}

theorem new (config : Config) : (new config).InOrder where
  accounts := .start config.actionWorkers _
  calls := Nat.le_refl _
  deed := fun _ => rfl

/-- A turn that leaves tickets and jobs alone. -/
theorem aside (h : ensemble.InOrder) (htickets : after.engine.executor = ensemble.engine.executor)
    (hfloor : after.floor = ensemble.floor) (hcalls : ensemble.deed.calls ≤ after.deed.calls)
    (hdeed : after.point.isActing = false → after.deed = .nothing) : after.InOrder := by
  refine ⟨?_, ?_, hdeed⟩
  · have haccounts := h.accounts.aside after.engine.store ensemble.engine.executor.pool.workers
      ensemble.floor.waiters ensemble.floor.joining ensemble.floor.shutdowns ensemble.floor.signals
    unfold crew
    rw [htickets, hfloor]
    exact haccounts
  · rw [hfloor]
    exact Nat.le_trans h.calls hcalls

/-- In a firing, the loop is in a submit call only while it hands a job over. -/
theorem act (h : ensemble.InOrder) {firing : Firing} {actions : List Action}
    (hpoint : ensemble.point = .act firing actions) : (ensemble.act reading firing actions).InOrder := by
  have hacting : ensemble.point.isActing ≠ false := by rw [hpoint]; exact Bool.noConfusion
  have hcalls := h.calls
  have hsame (engine : Engine) (point : Point) (deed : Deed) (hexecutor : engine.executor = ensemble.engine.executor)
      (hno : ensemble.deed.calls = 0) (hdeed : point.isActing = false → deed = .nothing) :
      InOrder { ensemble with engine, point, deed } :=
    h.aside hexecutor rfl (hno ▸ Nat.zero_le _) hdeed
  refine act_cases ?ends ?unresolved ?runs ?calls ?goes ?fails ?succeeds ?sends ?givesBack ?leaves ?reports
  case ends => exact fun hdeed => hsame _ _ _ rfl (by rw [hdeed]; rfl) fun _ => hdeed
  case unresolved => exact fun _ _ _ hdeed => hsame _ _ _ rfl (by rw [hdeed]; rfl) fun _ => hdeed
  case runs => exact fun _ _ _ hdeed => hsame _ _ _ rfl (by rw [hdeed]; rfl) fun hidle => by cases hidle
  case calls =>
    intro rest job hdeed
    -- the loop begins a submit call when it is in no other
    rw [hdeed] at hcalls
    have hnone : ensemble.floor.calling.length + ensemble.floor.refused.length = 0 := Nat.le_zero.1 hcalls
    refine ⟨h.accounts.call _ _, ?_, fun hidle => by cases hidle⟩
    simp only [withCrew, crew, Crew.call, Deed.calls, List.length_append, List.length_singleton]
    omega
  case goes =>
    exact fun _ _ hdeed _ => h.aside rfl rfl (by rw [hdeed]; exact Nat.zero_le _) fun hidle => (hacting hidle).elim
  case fails =>
    exact fun _ _ _ _ hdeed => hsame _ _ _ rfl (by rw [hdeed]; rfl) fun hidle => (hacting hidle).elim
  case succeeds => exact fun _ _ _ hdeed => hsame _ _ _ rfl (by rw [hdeed]; rfl) fun _ => rfl
  case sends =>
    intro _
    obtain ⟨pool, calling, refused, accepted, hsend, hle⟩ := ensemble.crew.exists_send_eq 0
    have haccounts := h.accounts.send 0
    rw [hsend] at haccounts ⊢
    exact ⟨haccounts, Nat.le_trans hle hcalls, fun hidle => (hacting hidle).elim⟩
  case givesBack =>
    intro refusal rest hdeed hrefused
    rw [hdeed, hrefused] at hcalls
    have hone : ensemble.floor.calling.length + (rest.length + 1) ≤ 1 := hcalls
    refine ⟨h.accounts.giveBack 0, ?_, fun hidle => (hacting hidle).elim⟩
    simp only [crew, Crew.giveBack, hrefused, List.getElem?_cons_zero, List.eraseIdx_cons_zero, withCrew, signal,
      Crew.release, Deed.calls]
    omega
  case leaves =>
    intro hdeed hcalling hrefused
    refine ⟨h.accounts, ?_, fun _ => rfl⟩
    simp only [hcalling, hrefused, List.length_nil]
    exact Nat.zero_le _
  case reports => exact fun _ hdeed => hsame _ _ _ rfl (by rw [hdeed]; rfl) fun _ => rfl

/-- Outside a firing the loop leaves tickets and jobs alone. -/
theorem loop (h : ensemble.InOrder) (found : Option Match) : (ensemble.loop reading found).InOrder := by
  rcases loop_cases reading ensemble found with
    ⟨firing, actions, hpoint, hloop⟩ | ⟨hpoint, hloop⟩ | ⟨hacting, hloop, hengine⟩
  · rw [hloop]
    exact h.act hpoint
  · have hdeed : ensemble.deed = .nothing := h.deed (by rw [hpoint]; rfl)
    rw [hloop]
    cases found with
    | some found => exact h.aside rfl rfl (Nat.le_refl _) fun _ => hdeed
    | none => exact h.aside rfl rfl (Nat.le_refl _) fun _ => hdeed
  · rw [hloop]
    refine h.aside ?_ rfl (Nat.le_refl _) fun _ => h.deed hacting
    rcases hengine with ⟨state, hengine⟩ | hengine
    · rw [hengine]
    · rw [hengine]
      rfl

theorem take (h : ensemble.InOrder) : (ensemble.take reading).InOrder := by
  have hcalls : (ensemble.take reading).floor.calling = ensemble.floor.calling ∧
      (ensemble.take reading).floor.refused = ensemble.floor.refused :=
    take_cases ⟨rfl, rfl⟩ fun _ _ _ _ _ => ⟨rfl, rfl⟩
  refine ⟨h.accounts.take _, ?_, h.deed⟩
  rw [hcalls.1, hcalls.2]
  exact h.calls

theorem proceed (h : ensemble.InOrder) (index : Nat) : (ensemble.proceed index).InOrder := by
  refine proceed_cases ?nobody ?goes ?succeeds ?fails
  case nobody => exact h
  case goes => exact fun _ hrunning _ => ⟨h.accounts.progress hrunning _ _ _, h.calls, h.deed⟩
  case succeeds => exact fun _ _ hrunning _ _ => ⟨h.accounts.progress hrunning _ _ _, h.calls, h.deed⟩
  case fails => exact fun _ _ _ hrunning _ _ => ⟨h.accounts.progress hrunning _ _ _, h.calls, h.deed⟩

theorem release (h : ensemble.InOrder) (index : Nat) : (ensemble.release index).InOrder := by
  refine release_cases h fun running hrunning _ => ⟨h.accounts.finish index .returned, ?_, h.deed⟩
  simp only [crew, Crew.finish, hrunning]
  exact h.calls

theorem outside (h : ensemble.InOrder) (index : Nat) : (ensemble.outside index).InOrder :=
  outside_cases h fun _ _ => h.aside rfl rfl (Nat.le_refl _) h.deed

theorem attend (h : ensemble.InOrder) (hpoint : ensemble.point.isActing = false) (errand : Errand) :
    (ensemble.attend errand).InOrder := by
  have hdeed := h.deed hpoint
  unfold Ensemble.attend
  split
  · cases errand with
    | dismiss => exact ⟨h.accounts.close, h.calls, fun _ => hdeed⟩
    | program _ _ | drain | remove _ | forgetTemplates | forgetPending | forgetLive | forgetHistory | lower =>
        exact h.aside rfl rfl (Nat.le_refl _) fun _ => hdeed
  · exact h

theorem step (h : ensemble.InOrder) (turn : Turn) : (ensemble.step reading turn).InOrder := by
  cases turn with
  | errand errand =>
      simp only [Ensemble.step]
      split
      · rename_i hpoint
        exact h.attend (by rw [hpoint]; rfl) errand
      · exact h
  | begin limit =>
      simp only [Ensemble.step]
      split
      · rename_i hpoint
        exact h.aside rfl rfl (Nat.le_refl _) fun _ => h.deed (by rw [hpoint]; rfl)
      · exact h
  | loop found => exact h.loop found
  | take => exact h.take
  | proceed index => exact h.proceed index
  | release index => exact h.release index
  | join script => exact h.aside rfl rfl (Nat.le_refl _) h.deed
  | outside index => exact h.outside index

theorem run (h : ensemble.InOrder) (turns : List Turn) : (ensemble.run reading turns).InOrder :=
  run_induction (fun _ turn h => h.step turn) h turns

/-- Outside firings every ticket belongs to a job that is queued or with a worker. -/
theorem tickets_of_idle (h : ensemble.InOrder) (hpoint : ensemble.point.isActing = false) :
    (ensemble.crew.unfinished.map (·.1)).Perm ensemble.engine.executor.tickets := by
  have hcalls := h.calls
  rw [h.deed hpoint] at hcalls
  have hnone : ensemble.floor.calling.length + ensemble.floor.refused.length = 0 := Nat.le_zero.1 hcalls
  have hcalling : ensemble.floor.calling = [] := List.eq_nil_of_length_eq_zero (by omega)
  have hrefused : ensemble.floor.refused = [] := List.eq_nil_of_length_eq_zero (by omega)
  have htickets := h.accounts.tickets
  simpa only [Crew.underWay, Floor.inCalls, crew, hcalling, hrefused, List.map_nil, List.nil_append] using htickets

end InOrder

end Ensemble

end ProductionSystem
