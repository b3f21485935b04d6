import Mathlib.Algebra.Group.Nat.Defs
import ProductionSystem.Proofs.BuiltinScripts
import ProductionSystem.Proofs.EnsembleAccounts

/-!
No wake-up is lost. Before the loop goes to sleep it reads the epoch, looks for pending facts, looks at the flag, and
counts the tickets, in this order. Whatever happens after one of these looks and would have kept the loop awake
raises a signal after the epoch was read: an enqueued fact, a halt once it is over, a ticket that goes back. So the
loop is only asleep if there is a ticket whose return will wake it.
-/

namespace ProductionSystem

/-- The epoch comes round only after 2⁶⁴ signals. -/
theorem eq_zero_of_add_ofNat_eq {epoch : UInt64} {n : Nat} (h : epoch + UInt64.ofNat n = epoch) (hn : n < 2 ^ 64) :
    n = 0 := by
  have hround := congrArg UInt64.toNat h
  rw [UInt64.toNat_add, UInt64.toNat_ofNat', Nat.mod_eq_of_lt hn] at hround
  have hepoch := epoch.toNat_lt
  omega

namespace Point

/-- The epoch that the loop has read, where it still counts. -/
def seen? : Point → Option UInt64
  | lookForFacts seen | lookForHalt seen | countTickets seen | wait seen => some seen
  | _ => none

/-- Has the loop looked at the flag since it read the epoch? -/
def isPastFlag : Point → Bool
  | countTickets _ | wait _ => true
  | _ => false

/-- Has the loop counted the tickets since it read the epoch? -/
def isPastCount : Point → Bool
  | wait _ => true
  | _ => false

theorem isPastFlag_eq_false {point : Point} (h : point.seen? = none) : point.isPastFlag = false := by
  cases point <;> first | rfl | cases h

theorem isPastCount_eq_false {point : Point} (h : point.seen? = none) : point.isPastCount = false := by
  cases point <;> first | rfl | cases h

end Point

def Deed.raised : Deed → List Nat
  | .running _ thread => thread.raised
  | _ => []

namespace Ensemble

/-- The halts that threads are in the middle of. -/
def midway (ensemble : Ensemble) : List Nat :=
  ensemble.deed.raised ++ (ensemble.floor.running.flatMap (·.progress.thread.raised) ++
    ensemble.outsiders.flatMap Thread.raised)

/-- What holds in every state of every schedule. -/
structure Heard (ensemble : Ensemble) : Prop where
  /-- A flag that was raised is up until it is lowered. -/
  raised : ∀ run ∈ ensemble.log.halts ++ ensemble.midway,
    run ≤ ensemble.log.lowered ∧ (run = ensemble.log.lowered → ensemble.engine.workspace.halted = true)
  seen : ∀ seen, ensemble.point.seen? = some seen →
    ensemble.engine.store.epoch = seen + UInt64.ofNat ensemble.log.signals
  flag : ensemble.point.isPastFlag = true → ensemble.log.lowered ∈ ensemble.log.halts → 0 < ensemble.log.signals
  count : ensemble.point.isPastCount = true → ensemble.engine.outstanding = 0 → 0 < ensemble.log.signals

/-- How a turn in the middle of a run touches what the loop looks at. -/
structure Stirs (before after : Ensemble) : Prop where
  lowered : after.log.lowered = before.log.lowered
  halted : before.engine.workspace.halted = true → after.engine.workspace.halted = true
  raised : ∀ run ∈ after.log.halts ++ after.midway, run ∈ before.log.halts ++ before.midway ∨
    run = before.log.lowered ∧ after.engine.workspace.halted = true
  signals : ∃ signals, after.log.signals = before.log.signals + signals ∧
    after.engine.store.epoch = before.engine.store.epoch + UInt64.ofNat signals ∧
    (before.log.lowered ∈ after.log.halts → before.log.lowered ∈ before.log.halts ∨ 0 < signals) ∧
    (after.engine.outstanding = 0 → before.engine.outstanding = 0 ∨ 0 < signals)

namespace Heard

variable {config : Config} {before after : Ensemble}

theorem new (config : Config) : (new config).Heard where
  raised := fun _ hrun => (List.not_mem_nil hrun).elim
  seen := fun _ hseen => by cases hseen
  flag := fun hflag => by cases hflag
  count := fun hcount => by cases hcount

theorem raised_of_stirs (h : before.Heard) (hstirs : Stirs before after) :
    ∀ run ∈ after.log.halts ++ after.midway,
      run ≤ after.log.lowered ∧ (run = after.log.lowered → after.engine.workspace.halted = true) := by
  intro run hrun
  rw [hstirs.lowered]
  rcases hstirs.raised run hrun with hold | ⟨rfl, hup⟩
  · obtain ⟨hle, hup⟩ := h.raised run hold
    exact ⟨hle, fun hlast => hstirs.halted (hup hlast)⟩
  · exact ⟨Nat.le_refl _, fun _ => hup⟩

/-- A turn that leaves the loop where it stands, or takes it where it remembers no epoch. -/
theorem of_stirs (h : before.Heard) (hstirs : Stirs before after)
    (hpoint : after.point = before.point ∨ after.point.seen? = none) : after.Heard := by
  obtain ⟨signals, hsignals, hepoch, hhalts, hzero⟩ := hstirs.signals
  refine ⟨h.raised_of_stirs hstirs, ?_, ?_, ?_⟩
  · intro seen hseen
    rcases hpoint with hsame | hnone
    · rw [hsame] at hseen
      rw [hepoch, h.seen seen hseen, hsignals, UInt64.ofNat_add, UInt64.add_assoc]
    · rw [hnone] at hseen
      cases hseen
  · intro hflag hhalted
    rcases hpoint with hsame | hnone
    · rw [hsame] at hflag
      rw [hstirs.lowered] at hhalted
      rcases hhalts hhalted with hold | hnew
      · have hbefore := h.flag hflag hold
        omega
      · omega
    · rw [Point.isPastFlag_eq_false hnone] at hflag
      cases hflag
  · intro hcount hnone
    rcases hpoint with hsame | hfree
    · rw [hsame] at hcount
      rcases hzero hnone with hold | hnew
      · have hbefore := h.count hcount hold
        omega
      · omega
    · rw [Point.isPastCount_eq_false hfree] at hcount
      cases hcount

end Heard

namespace Stirs

variable {before after : Ensemble}

/-- A turn that raises no signal and ends no halt. -/
theorem of_silent (hlog : after.log = before.log)
    (hhalted : after.engine.workspace.halted = before.engine.workspace.halted)
    (hepoch : after.engine.store.epoch = before.engine.store.epoch)
    (hmidway : ∀ run ∈ after.midway, run ∈ before.midway)
    (hzero : after.engine.outstanding = 0 → before.engine.outstanding = 0) : Stirs before after where
  lowered := by rw [hlog]
  halted := fun hup => hhalted.trans hup
  raised := by
    rw [hlog]
    intro run hrun
    exact .inl ((List.mem_append.1 hrun).elim (List.mem_append_left _) fun hmid =>
      List.mem_append_right _ (hmidway run hmid))
  signals := by
    refine ⟨0, by rw [hlog]; rfl, ?_, ?_, fun hnone => .inl (hzero hnone)⟩
    · rw [hepoch]
      exact (UInt64.add_zero _).symm
    · rw [hlog]
      exact .inl

/-- A ticket goes back. -/
theorem of_return (hlog : after.log = before.log.signal)
    (hhalted : after.engine.workspace.halted = before.engine.workspace.halted)
    (hepoch : after.engine.store.epoch = before.engine.store.epoch + 1)
    (hmidway : ∀ run ∈ after.midway, run ∈ before.midway) : Stirs before after where
  lowered := by rw [hlog]; rfl
  halted := fun hup => hhalted.trans hup
  raised := by
    rw [hlog]
    intro run hrun
    exact .inl ((List.mem_append.1 hrun).elim (List.mem_append_left _) fun hmid =>
      List.mem_append_right _ (hmidway run hmid))
  signals := by
    refine ⟨1, by rw [hlog]; rfl, hepoch, ?_, fun _ => .inr Nat.zero_lt_one⟩
    rw [hlog]
    exact .inl

/-- A thread does its next section. -/
theorem of_go {R : Type} (thread : Thread R) (hengine : after.engine = (before.go thread).2.engine)
    (hlog : after.log = (before.go thread).2.log)
    (hmidway : ∀ run ∈ after.midway, run ∈ before.midway ∨ run ∈ (before.go thread).1.raised)
    (hthread : ∀ run ∈ thread.raised, run ∈ before.midway) : Stirs before after := by
  have heffect := thread.effect_step before.log.lowered before.engine.workspace
  have hraised : (before.go thread).1.raised = if thread.raises then [before.log.lowered] else [] := heffect.raised
  refine ⟨?_, ?_, ?_, thread.signals, ?_, ?_, ?_, ?_⟩
  · rw [hlog]
    rfl
  · intro hup
    rw [hengine]
    exact heffect.halted.trans (by rw [hup, Bool.true_or])
  · intro run hrun
    rw [hlog] at hrun
    rcases List.mem_append.1 hrun with hover | hmid
    · rcases List.mem_append.1 hover with hold | hnow
      · exact .inl (List.mem_append_left _ hold)
      · exact .inl (List.mem_append_right _ (hthread run hnow))
    · rcases hmidway run hmid with hold | hnew
      · exact .inl (List.mem_append_right _ hold)
      · rw [hraised] at hnew
        split at hnew
        · rename_i hraises
          refine .inr ⟨List.mem_singleton.1 hnew, ?_⟩
          rw [hengine]
          exact heffect.halted.trans (by rw [hraises, Bool.or_true])
        · exact (List.not_mem_nil hnew).elim
  · rw [hlog]
    rfl
  · rw [hengine]
    exact heffect.epoch
  · rw [hlog]
    intro hover
    rcases List.mem_append.1 hover with hold | hnow
    · exact .inl hold
    · right
      cases thread with
      | waking _ _ => exact Nat.zero_lt_one
      | between _ | making _ _ _ | offering _ _ => exact (List.not_mem_nil hnow).elim
  · intro hnone
    rw [hengine] at hnone
    exact .inl hnone

end Stirs

section Midway

theorem mem_flatMap_set {α β : Type} {f : α → List β} {l : List α} {index : Nat} {a : α} {b : β}
    (h : b ∈ (l.set index a).flatMap f) : b ∈ l.flatMap f ∨ b ∈ f a := by
  obtain ⟨other, hother, hb⟩ := List.mem_flatMap.1 h
  rcases List.mem_or_eq_of_mem_set hother with hold | rfl
  · exact .inl (List.mem_flatMap.2 ⟨other, hold, hb⟩)
  · exact .inr hb

variable {ensemble : Ensemble} {run index : Nat}

theorem mem_midway_of_running {running : Running Job Progress}
    (hrunning : ensemble.floor.running[index]? = some running) (h : run ∈ running.progress.thread.raised) :
    run ∈ ensemble.midway :=
  List.mem_append_right _ (List.mem_append_left _
    (List.mem_flatMap.2 ⟨running, List.mem_of_getElem? hrunning, h⟩))

theorem mem_midway_of_outside {thread : Thread Unit} (hthread : ensemble.outsiders[index]? = some thread)
    (h : run ∈ thread.raised) : run ∈ ensemble.midway :=
  List.mem_append_right _ (List.mem_append_right _
    (List.mem_flatMap.2 ⟨thread, List.mem_of_getElem? hthread, h⟩))

/-- The loop leaves the others where they are. -/
theorem midway_subset {after : Ensemble} (hdeed : after.deed.raised = [])
    (hrunning : after.floor.running = ensemble.floor.running) (houtsiders : after.outsiders = ensemble.outsiders) :
    ∀ run ∈ after.midway, run ∈ ensemble.midway := by
  intro run h
  rw [midway, hdeed, hrunning, houtsiders, List.nil_append] at h
  exact List.mem_append_right _ h

theorem of_mem_midway_setProgress {running : Running Job Progress} {progress : Progress}
    (h : run ∈ (ensemble.setProgress index running progress).midway) :
    run ∈ ensemble.midway ∨ run ∈ progress.thread.raised := by
  rcases List.mem_append.1 h with hdeed | hrest
  · exact .inl (List.mem_append_left _ hdeed)
  · rcases List.mem_append.1 hrest with hwork | hout
    · exact (mem_flatMap_set hwork).imp_left fun hold => List.mem_append_right _ (List.mem_append_left _ hold)
    · exact .inl (List.mem_append_right _ (List.mem_append_right _ hout))

end Midway

namespace Stirs

variable (ensemble : Ensemble)

theorem take (reading : Reading) : Stirs ensemble (ensemble.take reading) := by
  refine take_cases (.of_silent rfl rfl rfl (fun _ h => h) id) fun ticket job queue _ _ =>
    .of_silent rfl rfl rfl (fun run h => ?_) id
  simp only [midway, List.flatMap_append, List.mem_append] at h ⊢
  rcases h with hdeed | (hold | hnew) | hout
  · exact .inl hdeed
  · exact .inr (.inl hold)
  · exact (List.not_mem_nil hnew).elim
  · exact .inr (.inr hout)

theorem proceed (index : Nat) : Stirs ensemble (ensemble.proceed index) := by
  have hover {running : Running Job Progress} {result : Ended} {run : Nat}
      (hended : running.progress.thread.result? = some result) : run ∉ running.progress.thread.raised := by
    cases hthread : running.progress.thread with
    | between _ | making _ _ _ | offering _ _ => exact List.not_mem_nil
    | waking _ _ =>
        rw [hthread] at hended
        cases hended
  refine proceed_cases ?nobody ?goes ?succeeds ?fails
  case nobody => exact .of_silent rfl rfl rfl (fun _ h => h) id
  case goes =>
    exact fun running hrunning _ => .of_go running.progress.thread rfl rfl
      (fun run h => of_mem_midway_setProgress h) fun run h => mem_midway_of_running hrunning h
  case succeeds =>
    exact fun _ _ _ hended _ => .of_silent rfl rfl rfl
      (fun run h => (of_mem_midway_setProgress h).elim id fun hnew => (hover hended hnew).elim) id
  case fails =>
    exact fun _ _ _ _ hended _ => .of_silent rfl rfl rfl
      (fun run h => (of_mem_midway_setProgress h).elim id fun hnew => (hover hended hnew).elim) id

theorem release (index : Nat) : Stirs ensemble (ensemble.release index) := by
  refine release_cases (.of_silent rfl rfl rfl (fun _ h => h) id) fun running hrunning _ => ?_
  simp only [Crew.finish, crew, hrunning]
  refine .of_return rfl rfl rfl fun run h => ?_
  simp only [midway, List.mem_append, List.mem_flatMap] at h ⊢
  rcases h with hdeed | ⟨other, hother, hrun⟩ | hout
  · exact .inl hdeed
  · exact .inr (.inl ⟨other, List.mem_of_mem_eraseIdx hother, hrun⟩)
  · exact .inr (.inr hout)

theorem outside (index : Nat) : Stirs ensemble (ensemble.outside index) := by
  refine outside_cases (.of_silent rfl rfl rfl (fun _ h => h) id) fun thread hthread =>
    .of_go thread rfl rfl (fun run h => ?_) fun run h => mem_midway_of_outside hthread h
  simp only [midway, List.mem_append] at h ⊢
  rcases h with hdeed | hwork | hout
  · exact .inl (.inl hdeed)
  · exact .inl (.inr (.inl hwork))
  · exact (mem_flatMap_set hout).imp_left fun hold => .inr (.inr hold)

theorem join (script : Script Unit) :
    Stirs ensemble { ensemble with outsiders := ensemble.outsiders ++ [.between script] } := by
  refine .of_silent rfl rfl rfl (fun run h => ?_) id
  simp only [midway, List.flatMap_append, List.mem_append] at h ⊢
  rcases h with hdeed | hwork | hold | hnew
  · exact .inl hdeed
  · exact .inr (.inl hwork)
  · exact .inr (.inr hold)
  · exact (List.not_mem_nil hnew).elim

/-- In a firing the loop may hand jobs over, run a command, or report; it remembers no epoch. -/
theorem act (reading : Reading) (firing : Firing) (actions : List Action) :
    Stirs ensemble (ensemble.act reading firing actions) := by
  have hsame (engine : Engine) (point : Point) (deed : Deed)
      (hworkspace : engine.workspace.halted = ensemble.engine.workspace.halted)
      (hepoch : engine.store.epoch = ensemble.engine.store.epoch)
      (htickets : engine.executor = ensemble.engine.executor) (hdeed : deed.raised = []) :
      Stirs ensemble { ensemble with engine, point, deed } := by
    refine .of_silent rfl hworkspace hepoch (midway_subset hdeed rfl rfl) fun hnone => ?_
    rw [Engine.outstanding, ← htickets]
    exact hnone
  refine act_cases ?ends ?unresolved ?runs ?calls ?goes ?fails ?succeeds ?sends ?givesBack ?leaves ?reports
  case ends => exact fun hdeed => hsame _ _ _ rfl rfl rfl (by rw [hdeed]; rfl)
  case unresolved => exact fun _ _ _ hdeed => hsame _ _ _ rfl rfl rfl (by rw [hdeed]; rfl)
  case runs => exact fun _ _ _ _ => hsame _ _ _ rfl rfl rfl rfl
  case calls =>
    refine fun _ _ _ => .of_silent rfl rfl rfl (midway_subset rfl rfl rfl) fun hnone => ?_
    simp only [Engine.outstanding, Executor.outstanding, withCrew, Crew.call, crew, Executor.issue,
      List.length_append, List.length_singleton] at hnone
    exact absurd hnone (Nat.succ_ne_zero _)
  case goes =>
    intro command thread hdeed _
    refine .of_go thread rfl rfl (fun run h => ?_) fun run h => List.mem_append_left _ ?_
    · exact (List.mem_append.1 h).elim .inr fun hold => .inl (List.mem_append_right _ hold)
    · rw [hdeed]
      exact h
  case fails => exact fun _ _ _ _ _ => hsame _ _ _ rfl rfl rfl rfl
  case succeeds =>
    intro command thread after _
    exact hsame _ _ _ rfl (Store.KeepsQueue.removeAll ensemble.engine.store after.removals).epoch rfl rfl
  case sends =>
    intro _
    obtain ⟨queue, calling, refused, accepted, hsend, _⟩ := ensemble.crew.exists_send_eq 0
    rw [hsend]
    exact .of_silent rfl rfl rfl (fun _ h => h) id
  case givesBack =>
    intro refusal rest _ hrefused
    simp only [Crew.giveBack, crew, hrefused, List.getElem?_cons_zero]
    exact .of_return rfl rfl rfl (midway_subset rfl rfl rfl)
  case leaves => exact fun _ _ _ => hsame _ _ _ rfl rfl rfl rfl
  case reports => exact fun _ _ => hsame _ _ _ rfl rfl rfl rfl

end Stirs

section Point

variable (ensemble : Ensemble) (reading : Reading)

theorem point_take : (ensemble.take reading).point = ensemble.point := rfl

theorem point_proceed (index : Nat) : (ensemble.proceed index).point = ensemble.point :=
  proceed_cases rfl (fun _ _ _ => rfl) (fun _ _ _ _ _ => rfl) fun _ _ _ _ _ _ => rfl

theorem point_release (index : Nat) : (ensemble.release index).point = ensemble.point :=
  release_cases rfl fun _ _ _ => rfl

theorem point_outside (index : Nat) : (ensemble.outside index).point = ensemble.point :=
  outside_cases rfl fun _ _ => rfl

/-- From a firing the loop goes on with the firing, or to the start of the next cycle. -/
theorem point_act {firing : Firing} {actions : List Action} (hpoint : ensemble.point = .act firing actions) :
    (∃ next rest, (ensemble.act reading firing actions).point = .act next rest) ∨
      (ensemble.act reading firing actions).point = .start := by
  refine act_cases ?ends ?unresolved ?runs ?calls ?goes ?fails ?succeeds ?sends ?givesBack ?leaves ?reports
  case ends => exact fun _ => .inr rfl
  case unresolved | runs => exact fun _ _ _ _ => .inl ⟨_, _, rfl⟩
  case calls => exact fun _ _ _ => .inl ⟨_, _, rfl⟩
  case succeeds => exact fun _ _ _ _ => .inl ⟨_, _, rfl⟩
  case goes => exact fun _ _ _ _ => .inl ⟨_, _, hpoint⟩
  case fails => exact fun _ _ _ _ _ => .inl ⟨_, _, hpoint⟩
  case sends => exact fun _ => .inl ⟨_, _, hpoint⟩
  case givesBack => exact fun _ _ _ _ => .inl ⟨_, _, hpoint⟩
  case leaves => exact fun _ _ _ => .inl ⟨_, _, hpoint⟩
  case reports => exact fun _ _ => .inl ⟨_, _, hpoint⟩

end Point

namespace Heard

variable {ensemble after : Ensemble}

theorem raised_of_subset (h : ensemble.Heard) (hlowered : after.log.lowered = ensemble.log.lowered)
    (hhalts : after.log.halts = ensemble.log.halts)
    (hhalted : after.engine.workspace.halted = ensemble.engine.workspace.halted)
    (hmidway : ∀ run ∈ after.midway, run ∈ ensemble.midway) :
    ∀ run ∈ after.log.halts ++ after.midway,
      run ≤ after.log.lowered ∧ (run = after.log.lowered → after.engine.workspace.halted = true) := by
  rw [hlowered, hhalts, hhalted]
  intro run hrun
  refine h.raised run ((List.mem_append.1 hrun).elim (List.mem_append_left _) fun hmid => ?_)
  exact List.mem_append_right _ (hmidway run hmid)

/-- Where the loop remembers nothing of the epoch, it is only for the flag that something must hold. -/
theorem of_raised (hraised : ∀ run ∈ after.log.halts ++ after.midway,
      run ≤ after.log.lowered ∧ (run = after.log.lowered → after.engine.workspace.halted = true))
    (hpoint : after.point.seen? = none) : after.Heard where
  raised := hraised
  seen := by
    intro seen hseen
    rw [hpoint] at hseen
    cases hseen
  flag := by
    intro hflag
    rw [Point.isPastFlag_eq_false hpoint] at hflag
    cases hflag
  count := by
    intro hcount
    rw [Point.isPastCount_eq_false hpoint] at hcount
    cases hcount

theorem elsewhere (h : ensemble.Heard) (hlowered : after.log.lowered = ensemble.log.lowered)
    (hhalts : after.log.halts = ensemble.log.halts)
    (hhalted : after.engine.workspace.halted = ensemble.engine.workspace.halted)
    (hmidway : ∀ run ∈ after.midway, run ∈ ensemble.midway) (hpoint : after.point.seen? = none) : after.Heard :=
  of_raised (h.raised_of_subset hlowered hhalts hhalted hmidway) hpoint

/-- A flag that is lowered is raised by no halt yet. -/
theorem lowering (h : ensemble.Heard) (hlowered : after.log.lowered = ensemble.log.lowered + 1)
    (hhalts : after.log.halts = ensemble.log.halts) (hmidway : ∀ run ∈ after.midway, run ∈ ensemble.midway)
    (hpoint : after.point.seen? = none) : after.Heard := by
  refine of_raised (fun run hrun => ?_) hpoint
  rw [hhalts] at hrun
  have hold := (h.raised run ((List.mem_append.1 hrun).elim (List.mem_append_left _) fun hmid =>
    List.mem_append_right _ (hmidway run hmid))).1
  rw [hlowered]
  exact ⟨Nat.le_succ_of_le hold, fun hlast => absurd hlast (Nat.ne_of_lt (Nat.lt_succ_of_le hold))⟩

/-- The loop looks, and remembers what it needs to know when it goes to sleep. -/
theorem loop (h : ensemble.Heard) (reading : Reading) (found : Option Match) :
    (ensemble.loop reading found).Heard := by
  obtain ⟨engine, point, limit, fired, deed, floor, outsiders, log⟩ := ensemble
  have hstay := h.raised
  cases point with
  | between last => exact h
  | start =>
      simp only [Ensemble.loop, Ensemble.look, Machine.loop]
      split
      · exact h.elsewhere rfl rfl rfl (fun _ h => h) rfl
      · split <;> exact h.elsewhere rfl rfl rfl (fun _ h => h) rfl
  | drain => exact h.elsewhere rfl rfl rfl (fun _ h => h) rfl
  | matching =>
      cases found with
      | some found => exact h.elsewhere rfl rfl rfl (fun _ h => h) rfl
      | none => exact h.elsewhere rfl rfl rfl (fun _ h => h) rfl
  | act firing actions =>
      refine of_raised (h.raised_of_stirs (.act _ reading firing actions)) ?_
      rcases point_act ⟨engine, .act firing actions, limit, fired, deed, floor, outsiders, log⟩ reading rfl with
        ⟨next, rest, hnext⟩ | hnext
      · exact congrArg Point.seen? hnext
      · exact congrArg Point.seen? hnext
  | readEpoch =>
      refine ⟨hstay, fun seen hseen => ?_, fun hflag => ?_, fun hcount => ?_⟩
      · obtain rfl := Option.some.inj hseen
        exact (UInt64.add_zero _).symm
      · cases hflag
      · cases hcount
  | lookForFacts seen =>
      have hseen := h.seen seen rfl
      simp only [Ensemble.loop, Ensemble.look, Machine.loop]
      split
      · exact h.elsewhere rfl rfl rfl (fun _ h => h) rfl
      · refine ⟨hstay, fun other hother => ?_, fun hflag => ?_, fun hcount => ?_⟩
        · obtain rfl := Option.some.inj hother
          exact hseen
        · cases hflag
        · cases hcount
  | lookForHalt seen =>
      have hseen := h.seen seen rfl
      simp only [Ensemble.loop, Ensemble.look, Machine.loop]
      split
      · exact h.elsewhere rfl rfl rfl (fun _ h => h) rfl
      · rename_i hdown
        refine ⟨hstay, fun other hother => ?_, fun _ hover => ?_, fun hcount => ?_⟩
        · obtain rfl := Option.some.inj hother
          exact hseen
        · -- a halt that is over would have raised the flag
          exact absurd ((h.raised _ (List.mem_append_left _ hover)).2 rfl) hdown
        · cases hcount
  | countTickets seen =>
      have hseen := h.seen seen rfl
      have hflag := h.flag rfl
      simp only [Ensemble.loop, Ensemble.look, Machine.loop]
      split
      · rename_i hout
        refine ⟨hstay, fun other hother => ?_, fun _ hover => hflag hover, fun _ hnone => ?_⟩
        · obtain rfl := Option.some.inj hother
          exact hseen
        · exact absurd hnone hout
      · split <;> exact h.elsewhere rfl rfl rfl (fun _ h => h) rfl
  | wait seen =>
      simp only [Ensemble.loop, Ensemble.look, Machine.loop]
      split
      · exact ⟨hstay, h.seen, h.flag, h.count⟩
      · exact h.elsewhere rfl rfl rfl (fun _ h => h) rfl
  | listen seen =>
      simp only [Ensemble.loop, Ensemble.look, Machine.loop]
      refine h.elsewhere rfl rfl rfl (fun _ h => h) ?_
      dsimp only
      split <;> rfl
  | lookForHaltAgain =>
      simp only [Ensemble.loop, Ensemble.look, Machine.loop]
      refine h.elsewhere rfl rfl rfl (fun _ h => h) ?_
      dsimp only
      split <;> rfl
  | countTicketsAgain =>
      simp only [Ensemble.loop, Ensemble.look, Machine.loop]
      refine h.elsewhere rfl rfl rfl (fun _ h => h) ?_
      dsimp only
      split <;> rfl
  | close outcome =>
      cases outcome with
      | stepLimit => exact h.elsewhere rfl rfl rfl (fun _ h => h) rfl
      | halted | quiescent =>
          simp only [Ensemble.loop, Ensemble.look, Machine.loop]
          split
          · exact h
          · exact h.elsewhere rfl rfl rfl (fun _ h => h) rfl

theorem attend (h : ensemble.Heard) (errand : Errand) :
    (ensemble.attend errand).Heard := by
  unfold Ensemble.attend
  split
  · cases errand with
    | lower => exact h.lowering rfl rfl (fun _ h => h) rfl
    | program _ _ | drain | remove _ | forgetTemplates | forgetPending | forgetLive | forgetHistory | dismiss =>
        exact h.elsewhere rfl rfl rfl (fun _ h => h) rfl
  · exact h

theorem step (h : ensemble.Heard) (reading : Reading) (turn : Turn) : (ensemble.step reading turn).Heard := by
  cases turn with
  | errand errand =>
      simp only [Ensemble.step]
      split
      · exact h.attend errand
      · exact h
  | begin limit =>
      simp only [Ensemble.step]
      split
      · exact h.lowering rfl rfl (fun _ h => h) rfl
      · exact h
  | loop found => exact h.loop reading found
  | take => exact h.of_stirs (.take ensemble reading) (.inl (point_take ensemble reading))
  | proceed index => exact h.of_stirs (.proceed ensemble index) (.inl (point_proceed ensemble index))
  | release index => exact h.of_stirs (.release ensemble index) (.inl (point_release ensemble index))
  | join script => exact h.of_stirs (.join ensemble script) (.inl rfl)
  | outside index => exact h.of_stirs (.outside ensemble index) (.inl (point_outside ensemble index))

theorem run (h : ensemble.Heard) (reading : Reading) (turns : List Turn) : (ensemble.run reading turns).Heard :=
  run_induction (fun _ turn h => h.step reading turn) h turns

end Heard

/-- **No wake-up is lost.** However the loop, the workers, and producers and halt callers outside come between
one another: if the loop is asleep, waiting for the workers, and fewer than 2⁶⁴ signals were raised since it
read the epoch, then the queue is empty, no halt is over that raised the flag after it was last lowered, and a
ticket is out. Each ticket that is out belongs to a job that a worker has or will take, and its return ends the
wait. -/
theorem asleep_only_for_a_ticket {reading : Reading} {config : Config} {turns : List Turn} {seen : UInt64}
    (hwait : ((new config).run reading turns).point = .wait seen)
    (hasleep : ((new config).run reading turns).engine.store.quietSince seen = true)
    (hfew : ((new config).run reading turns).log.signals < 2 ^ 64) :
    let ensemble := (new config).run reading turns
    let executor := ensemble.engine.executor
    ensemble.engine.store.pending = [] ∧
      ensemble.log.lowered ∉ ensemble.log.halts ∧
      executor.tickets ≠ [] ∧
      (ensemble.crew.unfinished.map (·.1)).Perm executor.tickets ∧
      ∀ ticket, (executor.release ensemble.engine.store ticket).2.quietSince seen = false := by
  intro ensemble executor
  have hheard : ensemble.Heard := (Heard.new config).run reading turns
  have horder : ensemble.InOrder := (InOrder.new config).run turns
  obtain ⟨hempty, hsame⟩ := Bool.and_eq_true_iff.1 hasleep
  have hepoch : ensemble.engine.store.epoch = seen := beq_iff_eq.1 hsame
  have hnone : ensemble.log.signals = 0 := by
    have hseen := hheard.seen seen (by rw [hwait]; rfl)
    rw [hepoch] at hseen
    exact eq_zero_of_add_ofNat_eq hseen.symm hfew
  refine ⟨List.isEmpty_iff.1 hempty, ?_, ?_, ?_, ?_⟩
  · intro hover
    have hpos := hheard.flag (by rw [hwait]; rfl) hover
    omega
  · intro hout
    have hpos := hheard.count (by rw [hwait]; rfl) (congrArg List.length hout)
    omega
  · exact horder.tickets_of_idle (by rw [hwait]; rfl)
  · intro ticket
    have hnext : ensemble.engine.store.epoch + 1 ≠ seen := by
      rw [hepoch]
      exact fun hround => absurd (eq_zero_of_add_ofNat_eq (n := 1) hround (by decide)) Nat.one_ne_zero
    simp only [Executor.release, Store.quietSince, Store.wake, beq_eq_false_iff_ne.2 hnext, Bool.and_false]

/-- A rule that leaves a line to the workers. -/
def noteRule : Rule where
  name := "note"
  conditions := []
  actions := [⟨Builtin.write.command.later, [.literal (.str "noted")]⟩]

def noteMatch : Match := ⟨⟨0, noteRule⟩, [], Dictionary.empty⟩

/-- The rule fires, and the loop waits for the worker. -/
def dozing : List Turn :=
  [.begin none, .loop none, .loop none, .loop (some noteMatch)] ++ List.replicate 12 (.loop none)

theorem asleep_only_for_a_ticket_dozing :
    let ensemble := (new .sequential).run Builtin.reading dozing
    ensemble.point = .wait 0 ∧ ensemble.engine.store.quietSince 0 = true ∧ ensemble.log.signals < 2 ^ 64 ∧
      ensemble.engine.executor.tickets ≠ [] := by
  have hwait : ((new .sequential).run Builtin.reading dozing).point = .wait 0 := rfl
  have hasleep : ((new .sequential).run Builtin.reading dozing).engine.store.quietSince 0 = true := rfl
  have hfew : ((new .sequential).run Builtin.reading dozing).log.signals < 2 ^ 64 := by decide
  exact ⟨hwait, hasleep, hfew, (asleep_only_for_a_ticket hwait hasleep hfew).2.2.1⟩

end Ensemble

end ProductionSystem
