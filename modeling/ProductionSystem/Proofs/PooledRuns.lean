import ProductionSystem.Proofs.Equipment
import ProductionSystem.Proofs.MatchSession

/-!
Runs in which workers match the rules. In each cycle the matching is timed in some way, and comes to the matches
that are found rule by rule; so the run fires the same rules, however its matchings are timed, and it fires them
too if all rules are matched on the loop. For an engine whose actions are all done on the loop, neither the number
of workers nor their dismissal shows in anything that a run reports or leaves.
-/

namespace ProductionSystem

/-- Can matching come to these matches? On the loop it comes to those found rule by rule, and with workers to
whatever a matching by them can come to. -/
def Engine.CanMatch (engine : Engine) (matched : List Match) : Prop :=
  match engine.matchers with
  | none => matched = Match.all engine.config.maxMatchFrames engine.view engine.rules
  | some pool =>
    if engine.rules.length ≤ 1 then matched = Match.all engine.config.maxMatchFrames engine.view engine.rules
    else
      ∃ leftover steps,
        ((MatchSession.start pool leftover engine.rules).run engine.config.maxMatchFrames engine.view steps).result?
          engine.config.maxMatchFrames engine.view engine.rules = some matched

namespace Engine

variable {engine : Engine} {matched : List Match}

theorem CanMatch.eq_all (h : engine.CanMatch matched) :
    matched = Match.all engine.config.maxMatchFrames engine.view engine.rules := by
  unfold CanMatch at h
  split at h
  · exact h
  · split at h
    · exact h
    · obtain ⟨leftover, steps, hresult⟩ := h
      exact MatchSession.eq_all_of_result? hresult

theorem canMatch_all (hwaiting : ∀ pool ∈ engine.matchers, pool.Waiting) :
    engine.CanMatch (Match.all engine.config.maxMatchFrames engine.view engine.rules) := by
  unfold CanMatch
  split
  · rfl
  · rename_i pool hpool
    split
    · rfl
    · have hstaffed := MatchSession.staffed_start (hwaiting pool hpool).staffed 0 engine.rules
      obtain ⟨steps, hsome⟩ :=
        @MatchSession.exists_result? engine.config.maxMatchFrames engine.view _ engine.rules hstaffed
      obtain ⟨matched, hmatched⟩ := Option.isSome_iff_exists.1 hsome
      exact ⟨0, steps, MatchSession.eq_all_of_result? hmatched ▸ hmatched⟩

end Engine

namespace Run

/-- A cycle in which matching has come to the given matches. -/
def cycleOn (run : Run) (matched : List Match) : Cycle :=
  let engine := run.engine.drain
  match Conflict.select (fun found => engine.lastFired.any found.source.same) matched with
  | some found => .fired found { run with engine := engine.fire found, fired := run.fired + 1 }
  | none => { run with engine }.idle

/-- Can a run, up to a limit if there is one, end like this, with its matchings timed in some way? -/
inductive Conducts : Option Nat → Run → Outcome × Run → Prop
  | halted {limit : Option Nat} {run : Run} (h : run.engine.workspace.halted = true) :
      Conducts limit run (.halted, run)
  | stopped {run : Run} (hgoing : ¬run.engine.workspace.halted = true) : Conducts (some 0) run (.stepLimit, run)
  | fired {limit : Option Nat} {run next : Run} {matched : List Match} {found : Match} {ended : Outcome × Run}
      (hgoing : ¬run.engine.workspace.halted = true) (hlimit : limit ≠ some 0)
      (hmatch : run.engine.drain.CanMatch matched) (hcycle : run.cycleOn matched = .fired found next)
      (hrest : Conducts (limit.map (· - 1)) next ended) : Conducts limit run ended
  | again {limit : Option Nat} {run next : Run} {matched : List Match} {ended : Outcome × Run}
      (hgoing : ¬run.engine.workspace.halted = true) (hlimit : limit ≠ some 0)
      (hmatch : run.engine.drain.CanMatch matched) (hcycle : run.cycleOn matched = .again next)
      (hrest : Conducts limit next ended) : Conducts limit run ended
  | quiet {limit : Option Nat} {run next : Run} {matched : List Match}
      (hgoing : ¬run.engine.workspace.halted = true) (hlimit : limit ≠ some 0)
      (hmatch : run.engine.drain.CanMatch matched) (hcycle : run.cycleOn matched = .quiet next) :
      Conducts limit run (.quiescent, next)

/-- Does a run, up to a limit if there is one, end like this? -/
def EndsAs (limit : Option Nat) (run : Run) (ended : Outcome × Run) : Prop :=
  match limit with
  | some limit => run.steps limit = ended
  | none => run.Finishes ended

section Conducts

variable {run next : Run} {limit : Option Nat} {ended : Outcome × Run}

theorem cycleOn_all (hwaiting : ∀ pool ∈ run.engine.matchers, pool.Waiting) :
    run.cycleOn (Match.all run.engine.drain.config.maxMatchFrames run.engine.drain.view run.engine.drain.rules) =
      run.cycle := by
  have hall : run.engine.drain.matchAll = _ := Match.allBy_eq_all fun pool hpool => (hwaiting pool hpool).idle
  rw [← hall]
  rfl

/-- A cycle leaves the workers for matching alone. -/
theorem matchers_cycle (run : Run) : run.cycle.toRun.engine.matchers = run.engine.matchers := by
  cases hcycle : run.cycle with
  | fired found next =>
      have hfire := (Engine.Worked.fire run.engine.drain found).matchers_eq
      rw [Cycle.toRun, (of_cycle_eq_fired hcycle).2, hfire]
      rfl
  | again next => exact (of_cycle_eq_idle (.inl hcycle)).2.matchers_eq
  | quiet next => exact (of_cycle_eq_idle (.inr hcycle)).2.matchers_eq

theorem finishes_iff_of_advance (h : run.advance = .inl next) : run.Finishes ended ↔ next.Finishes ended := by
  constructor
  · intro hfinishes
    cases hfinishes with
    | ends hends =>
        rw [h] at hends
        cases hends
    | goesOn hon hrest =>
        rw [h] at hon
        cases hon
        exact hrest
  · exact .goesOn h

theorem endsAs_of_halted (hhalted : run.engine.workspace.halted = true) : run.EndsAs limit (.halted, run) := by
  cases limit with
  | none => exact .ends (by rw [advance, if_pos hhalted])
  | some limit => exact steps_of_halted hhalted limit

theorem endsAs_iff_of_fired {found : Match} (hgoing : ¬run.engine.workspace.halted = true)
    (hlimit : limit ≠ some 0) (hcycle : run.cycle = .fired found next) :
    run.EndsAs limit ended ↔ next.EndsAs (limit.map (· - 1)) ended := by
  cases limit with
  | none => exact finishes_iff_of_advance (by rw [advance, if_neg hgoing, hcycle])
  | some limit =>
      obtain ⟨limit, rfl⟩ := Nat.exists_eq_succ_of_ne_zero fun hzero => hlimit (congrArg some hzero)
      show run.steps (limit + 1) = ended ↔ _
      rw [steps_eq_of_fired hgoing hcycle]
      rfl

theorem endsAs_iff_of_again (hgoing : ¬run.engine.workspace.halted = true) (hlimit : limit ≠ some 0)
    (hcycle : run.cycle = .again next) : run.EndsAs limit ended ↔ next.EndsAs limit ended := by
  cases limit with
  | none => exact finishes_iff_of_advance (by rw [advance, if_neg hgoing, hcycle])
  | some limit =>
      obtain ⟨limit, rfl⟩ := Nat.exists_eq_succ_of_ne_zero fun hzero => hlimit (congrArg some hzero)
      show run.steps (limit + 1) = ended ↔ _
      rw [steps_eq_of_again hgoing hcycle]
      rfl

theorem endsAs_of_quiet (hgoing : ¬run.engine.workspace.halted = true) (hlimit : limit ≠ some 0)
    (hcycle : run.cycle = .quiet next) : run.EndsAs limit (.quiescent, next) := by
  cases limit with
  | none => exact .ends (by rw [advance, if_neg hgoing, hcycle])
  | some limit =>
      obtain ⟨limit, rfl⟩ := Nat.exists_eq_succ_of_ne_zero fun hzero => hlimit (congrArg some hzero)
      exact steps_eq_of_quiet hgoing hcycle

/-- However its matchings are timed, a run ends as the run does that takes the answers in order. -/
theorem endsAs_of_conducts (hwaiting : ∀ pool ∈ run.engine.matchers, pool.Waiting)
    (h : run.Conducts limit ended) : run.EndsAs limit ended := by
  have hcycleOn {run : Run} {matched : List Match} (hwaiting : ∀ pool ∈ run.engine.matchers, pool.Waiting)
      (hmatch : run.engine.drain.CanMatch matched) : run.cycleOn matched = run.cycle := by
    rw [hmatch.eq_all, cycleOn_all hwaiting]
  induction h with
  | halted h => exact endsAs_of_halted h
  | @stopped run hgoing => exact steps_zero hgoing
  | @fired limit run next matched found ended hgoing hlimit hmatch hcycle _ ih =>
      rw [hcycleOn hwaiting hmatch] at hcycle
      have hnext := matchers_cycle run
      rw [hcycle] at hnext
      exact (endsAs_iff_of_fired hgoing hlimit hcycle).2 (ih (hnext ▸ hwaiting))
  | @again limit run next matched ended hgoing hlimit hmatch hcycle _ ih =>
      rw [hcycleOn hwaiting hmatch] at hcycle
      have hnext := matchers_cycle run
      rw [hcycle] at hnext
      exact (endsAs_iff_of_again hgoing hlimit hcycle).2 (ih (hnext ▸ hwaiting))
  | @quiet limit run next matched hgoing hlimit hmatch hcycle =>
      rw [hcycleOn hwaiting hmatch] at hcycle
      exact endsAs_of_quiet hgoing hlimit hcycle

theorem conducts_steps (hwaiting : ∀ pool ∈ run.engine.matchers, pool.Waiting) (limit : Nat) :
    run.Conducts (some limit) (run.steps limit) := by
  have hmatch {run : Run} (hwaiting : ∀ pool ∈ run.engine.matchers, pool.Waiting) :=
    @Engine.canMatch_all run.engine.drain hwaiting
  have hleft (limit : Nat) : some (limit + 1) ≠ some 0 := fun hzero => Nat.succ_ne_zero limit (Option.some.inj hzero)
  induction run, limit using steps.induct with
  | case1 run limit hhalted =>
      rw [steps_of_halted hhalted]
      exact .halted hhalted
  | case2 run hgoing =>
      rw [steps_zero hgoing]
      exact .stopped hgoing
  | case3 run hgoing limit found next hfired ih =>
      have hnext := matchers_cycle run
      rw [hfired] at hnext
      rw [steps_eq_of_fired hgoing hfired]
      exact .fired hgoing (hleft limit) (hmatch hwaiting) ((cycleOn_all hwaiting).trans hfired) (ih (hnext ▸ hwaiting))
  | case4 run hgoing limit next hagain ih =>
      have hnext := matchers_cycle run
      rw [hagain] at hnext
      rw [steps_eq_of_again hgoing hagain]
      exact .again hgoing (hleft limit) (hmatch hwaiting) ((cycleOn_all hwaiting).trans hagain) (ih (hnext ▸ hwaiting))
  | case5 run hgoing limit next hquiet =>
      rw [steps_eq_of_quiet hgoing hquiet]
      exact .quiet hgoing (hleft limit) (hmatch hwaiting) ((cycleOn_all hwaiting).trans hquiet)

/-- A run without a limit that is over within some limit is conducted the same way. -/
theorem Conducts.unlimited (h : run.Conducts limit ended) (hover : ended.1 ≠ .stepLimit) :
    run.Conducts none ended := by
  induction h with
  | halted h => exact .halted h
  | stopped hgoing => exact (hover rfl).elim
  | fired hgoing hlimit hmatch hcycle _ ih => exact .fired hgoing nofun hmatch hcycle (ih hover)
  | again hgoing hlimit hmatch hcycle _ ih => exact .again hgoing nofun hmatch hcycle (ih hover)
  | quiet hgoing hlimit hmatch hcycle => exact .quiet hgoing nofun hmatch hcycle

/-- **However its matchings are timed, a run ends the same way.** -/
theorem conducts_iff (hwaiting : ∀ pool ∈ run.engine.matchers, pool.Waiting) :
    run.Conducts limit ended ↔ run.EndsAs limit ended := by
  refine ⟨endsAs_of_conducts hwaiting, fun h => ?_⟩
  cases limit with
  | some limit =>
      have hsteps : run.steps limit = ended := h
      rw [← hsteps]
      exact conducts_steps hwaiting limit
  | none =>
      obtain ⟨limit, rfl, hover⟩ := finishes_iff.1 h
      exact (conducts_steps hwaiting limit).unlimited hover

end Conducts

end Run

/-- Does an event dismiss the workers? -/
def EngineEvent.dismisses : EngineEvent → Bool
  | .shutdown => true
  | _ => false

namespace Chronicle

variable {chronicle : Chronicle} {equipment : Equipment}

/-- Are all actions of the rules done on the loop, from now on and throughout a history? -/
def StaysOnLoop (chronicle : Chronicle) : List EngineEvent → Prop
  | [] => chronicle.engine.SyncOnly
  | event :: events => chronicle.engine.SyncOnly ∧ (chronicle.note event).StaysOnLoop events

theorem StaysOnLoop.after {events : List EngineEvent} (h : chronicle.StaysOnLoop events) :
    (chronicle.after events).engine.SyncOnly := by
  induction events generalizing chronicle with
  | nil => exact h
  | cons event events ih => exact ih h.2

/-- The history, of an engine with other equipment. -/
def equipped (equipment : Equipment) (chronicle : Chronicle) : Chronicle :=
  { chronicle with run := chronicle.run.equipped equipment }

theorem note_shutdown_equipped (hready : equipment.Ready) :
    (chronicle.equipped equipment).note .shutdown = chronicle.equipped equipment.dismissed := by
  have hqueue : (chronicle.equipped equipment).engine.executor.pool.queue = [] := hready.workless
  have hshutdown : (chronicle.equipped equipment).engine.shutdown =
      chronicle.engine.equipped equipment.dismissed := by
    unfold Engine.shutdown Executor.shutdown WorkerPool.shutdown
    dsimp only
    rw [hqueue]
    rfl
  show (chronicle.equipped equipment).withEngine _ = _
  rw [hshutdown]
  rfl

/-- What happens to an engine happens to it with any other equipment. -/
theorem note_equipped (hready : equipment.Ready) (hsynchronous : chronicle.engine.Synchronous)
    {event : EngineEvent} (hkeeps : chronicle.KeepsJobs event) :
    ∃ after : Equipment, after.Ready ∧
      (chronicle.equipped equipment).note event = (chronicle.note event).equipped after := by
  have hqueue := hsynchronous.queue_eq_nil
  have hsame {engine : Engine} {after : Engine} (h : after = engine.equipped equipment) :
      (chronicle.equipped equipment).withEngine after = (chronicle.withEngine engine).equipped equipment := by
    rw [h]
    rfl
  cases event with
  | register template => exact ⟨equipment, hready, rfl⟩
  | make type overrides => exact ⟨equipment, hready, rfl⟩
  | halt => exact ⟨equipment, hready, rfl⟩
  | addRule rule =>
      exact ⟨equipment, hready, hsame (Engine.arrange_equipped equipment (chronicle.engine.install rule))⟩
  | addRules rules => exact ⟨equipment, hready, hsame (Engine.addRules_equipped equipment chronicle.engine rules)⟩
  | loadDocument registry json =>
      exact ⟨equipment, hready,
        hsame (congrArg Prod.snd (Engine.loadDocument_equipped equipment chronicle.engine registry json))⟩
  | loadText registry text =>
      exact ⟨equipment, hready,
        hsame (congrArg Prod.snd (Engine.loadText_equipped equipment chronicle.engine registry text))⟩
  | loadFile registry path contents =>
      exact ⟨equipment, hready,
        hsame (congrArg Prod.snd (Engine.loadFile_equipped equipment chronicle.engine registry path contents))⟩
  | begin arrivals => exact ⟨{ equipment with state := .running }, ⟨hready.waiting, hready.workless⟩, rfl⟩
  | cycle =>
      have hcycle := Run.cycle_equipped hready hsynchronous
      refine ⟨equipment, hready, ?_⟩
      unfold note
      dsimp only
      rw [show (chronicle.equipped equipment).run.cycle = _ from hcycle]
      cases chronicle.run.cycle with
      | fired found next => rfl
      | again next => rfl
      | quiet next => rfl
  | close outcome =>
      refine ⟨{ equipment with state := (chronicle.run.close outcome).2.state },
        ⟨hready.waiting, hready.workless⟩, ?_⟩
      show (chronicle.equipped equipment).withEngine ((chronicle.run.equipped equipment).close outcome).2 = _
      rw [Run.close_equipped hready hqueue]
      rfl
  | reset =>
      refine ⟨{ equipment with state := .idle }, ⟨hready.waiting, hready.workless⟩, ?_⟩
      show { (chronicle.equipped equipment).withEngine (chronicle.engine.equipped equipment).reset with
        fired := [] } = _
      rw [Engine.reset_equipped hready hqueue]
      rfl
  | shutdown =>
      refine ⟨equipment.dismissed, equipment.ready_dismissed, ?_⟩
      rw [note_shutdown_equipped hready]
      show _ = (chronicle.withEngine chronicle.engine.shutdown).equipped equipment.dismissed
      unfold Engine.shutdown Executor.shutdown WorkerPool.shutdown
      dsimp only
      rw [hqueue]
      rfl
  | meanwhile workspace executor failures =>
      refine ⟨{ equipment with executor }, ⟨hready.waiting, ?_⟩, rfl⟩
      have hnone : executor.pool.queue ⊆ [] := hqueue ▸ hkeeps
      exact List.eq_nil_of_subset_nil hnone

/-- A history with other equipment, in which the workers are dismissed now and then, comes to the same. -/
theorem after_equipped (hready : equipment.Ready) (hjobs : chronicle.engine.JobsOfRules)
    (hsound : chronicle.engine.agenda.Sound chronicle.fired) (events : List EngineEvent)
    (hloop : chronicle.StaysOnLoop (events.filter (!·.dismisses)))
    (hown : chronicle.OwnJobs (events.filter (!·.dismisses))) :
    ∃ after : Equipment, after.Ready ∧ (chronicle.equipped equipment).after events =
      (chronicle.after (events.filter (!·.dismisses))).equipped after := by
  induction events generalizing chronicle equipment with
  | nil => exact ⟨equipment, hready, rfl⟩
  | cons event events ih =>
      cases hdismisses : event.dismisses with
      | true =>
          have hshutdown : event = .shutdown := by
            cases event with
            | shutdown => rfl
            | _ => cases hdismisses
          rw [List.filter_cons_of_neg (by rw [hdismisses]; decide)] at hloop hown ⊢
          obtain ⟨after, hafter, heq⟩ :=
            ih equipment.ready_dismissed hjobs hsound hloop hown
          refine ⟨after, hafter, ?_⟩
          show ((chronicle.equipped equipment).note event).after events = _
          rw [hshutdown, note_shutdown_equipped hready, heq]
      | false =>
          rw [List.filter_cons_of_pos (by rw [hdismisses]; decide)] at hloop hown ⊢
          obtain ⟨next, hnext, hnote⟩ := note_equipped hready ⟨hloop.1, hjobs, _, hsound⟩ hown.1
          obtain ⟨after, hafter, heq⟩ :=
            ih hnext (jobsOfRules_note hjobs hsound hown.1) (sound_note hsound event) hloop.2 hown.2
          refine ⟨after, hafter, ?_⟩
          show ((chronicle.equipped equipment).note event).after events = _
          rw [hnote, heq]
          rfl

end Chronicle

namespace Run

variable {run : Run} {equipment : Equipment} {limit : Option Nat} {ended : Outcome × Run}

/-- An ending, of a run of an engine with other equipment. -/
def endingEquipped (equipment : Equipment) (ended : Outcome × Run) : Outcome × Run :=
  (ended.1, ended.2.equipped equipment)

theorem endsAs_equipped_iff (hready : equipment.Ready) (hsynchronous : run.engine.Synchronous) :
    (run.equipped equipment).EndsAs limit ended ↔
      ∃ last, run.EndsAs limit last ∧ endingEquipped equipment last = ended := by
  cases limit with
  | some limit =>
      show (run.equipped equipment).steps limit = ended ↔ _
      rw [steps_equipped hready hsynchronous]
      exact ⟨fun h => ⟨_, rfl, h⟩, fun ⟨_, hlast, h⟩ => by rw [← h, ← hlast]; rfl⟩
  | none =>
      simp only [EndsAs, finishes_iff, steps_equipped hready hsynchronous]
      constructor
      · rintro ⟨limit, rfl, hover⟩
        exact ⟨_, ⟨limit, rfl, hover⟩, rfl⟩
      · rintro ⟨_, ⟨limit, rfl, hover⟩, rfl⟩
        exact ⟨limit, rfl, hover⟩

theorem EndsAs.unique {last : Outcome × Run} (h : run.EndsAs limit ended) (h' : run.EndsAs limit last) :
    ended = last := by
  cases limit with
  | some limit => exact (show run.steps limit = ended from h).symm.trans h'
  | none =>
      obtain ⟨limit, rfl, hover⟩ := finishes_iff.1 h
      exact ((finishes_iff_of_ended hover).1 h').symm

/-- An engine that does all its actions on the loop does so throughout a run. -/
theorem EndsAs.synchronous (h : run.EndsAs limit ended) (hsynchronous : run.engine.Synchronous) :
    ended.2.engine.Synchronous := by
  have hsteps (limit : Nat) : (run.steps limit).2.engine.Synchronous :=
    of_steps (P := fun run => run.engine.Synchronous) (fun _ h => h.cycle) hsynchronous limit
  cases limit with
  | some limit => exact (show run.steps limit = ended from h) ▸ hsteps limit
  | none =>
      obtain ⟨limit, rfl, -⟩ := finishes_iff.1 h
      exact hsteps limit

end Run

/-- Do two engines agree on all that a run can change, what they say they are doing apart? -/
structure Engine.SameResults (a b : Engine) : Prop where
  store : a.store = b.store
  lines : a.workspace.lines = b.workspace.lines
  halted : a.workspace.halted = b.workspace.halted
  rules : a.rules = b.rules
  lastFired : a.lastFired = b.lastFired
  firings : a.firings = b.firings
  failures : a.failures = b.failures

theorem Engine.sameResults_equipped (engine : Engine) (equipment : Equipment) :
    engine.SameResults (engine.equipped equipment) := ⟨rfl, rfl, rfl, rfl, rfl, rfl, rfl⟩

/-- Two engines, one of them with other equipment, whose runs end alike. -/
theorem Engine.runs_equipped {engine : Engine} {equipment : Equipment} (hready : equipment.Ready)
    (hsynchronous : engine.Synchronous) (arrivals : List Arrival) (limit : Option Nat) :
    let other := engine.equipped equipment
    ((∃ ended, (engine.begin arrivals).EndsAs limit ended) ↔
        ∃ ended, (other.begin arrivals).EndsAs limit ended) ∧
      ∀ ended last, (engine.begin arrivals).EndsAs limit ended → (other.begin arrivals).EndsAs limit last →
        (ended.2.close ended.1).1 = (last.2.close last.1).1 ∧
          (ended.2.close ended.1).2.SameResults (last.2.close last.1).2 := by
  intro other
  have hbegun : (engine.begin arrivals).engine.Synchronous :=
    ⟨hsynchronous.sync, hsynchronous.jobs, hsynchronous.sound⟩
  let running : Equipment := { equipment with state := .running }
  have hrunning : running.Ready := ⟨hready.waiting, hready.workless⟩
  have hother : other.begin arrivals = (engine.begin arrivals).equipped running := rfl
  rw [hother]
  simp only [Run.endsAs_equipped_iff hrunning hbegun]
  refine ⟨?_, ?_⟩
  · exact ⟨fun ⟨ended, hended⟩ => ⟨_, ended, hended, rfl⟩, fun ⟨_, ended, hended, _⟩ => ⟨ended, hended⟩⟩
  · rintro ended _ hended ⟨last, hlast, rfl⟩
    obtain rfl := hended.unique hlast
    have hclose := Run.close_equipped hrunning (hended.synchronous hbegun).queue_eq_nil ended.1
    rw [Run.endingEquipped, hclose]
    exact ⟨rfl, sameResults_equipped _ _⟩

theorem Engine.ready_new (config : Config) : (Engine.new config).equipment.Ready where
  waiting := by
    intro pool hpool
    have hstart : pool = .start config.matchWorkers := by
      simp only [equipment, new] at hpool
      split at hpool
      · exact (Option.mem_some.1 hpool).symm
      · cases hpool
    rw [hstart]
    exact ⟨rfl, fun _ => Nat.le_max_right _ _⟩
  workless := rfl

/-- **Matching by workers does not show.** However the steps of a matching by workers are timed, and also if a job is
refused after any number of them were accepted, it comes to the matches found rule by rule, if it comes to
anything, and it always can. So for an engine whose actions are all done on the loop it makes no difference,
whatever its history, whether its rules are matched by workers, by how many, when they were dismissed, and how
their matchings are timed: all runs end alike, with the same report, and leave the same. -/
theorem matching_by_workers_does_not_show :
    (∀ (budget : Option Nat) (view : View) (rules : List RuleInstance) (pool : WorkerPool (Nat × RuleInstance))
        (leftover : Nat) (steps : List MatchStep),
      let session := (MatchSession.start pool leftover rules).run budget view steps
      (∀ matched, session.result? budget view rules = some matched → matched = Match.all budget view rules) ∧
        ((pool.accepting = true → 0 < pool.workers) →
          ∃ later, ((session.run budget view later).result? budget view rules).isSome = true)) ∧
    ∀ (config : Config) (parallelMatch : Bool) (matchWorkers : Nat) (events others : List EngineEvent),
      others.filter (!·.dismisses) = events →
      (Chronicle.new config).StaysOnLoop events → (Chronicle.new config).OwnJobs events →
      let engine := ((Chronicle.new config).after events).engine
      let other := ((Chronicle.new { config with parallelMatch, matchWorkers }).after others).engine
      engine.SameResults other ∧
        ∀ (arrivals : List Arrival) (limit : Option Nat),
          ((∃ ended, (engine.begin arrivals).Conducts limit ended) ↔
              ∃ ended, (other.begin arrivals).Conducts limit ended) ∧
            (∀ ended, (other.begin arrivals).Conducts limit ended ↔ (other.begin arrivals).EndsAs limit ended) ∧
            ∀ ended last, (engine.begin arrivals).Conducts limit ended →
              (other.begin arrivals).Conducts limit last →
              (ended.2.close ended.1).1 = (last.2.close last.1).1 ∧
                (ended.2.close ended.1).2.SameResults (last.2.close last.1).2 := by
  refine ⟨fun budget view rules pool leftover steps => ?_, ?_⟩
  · intro session
    refine ⟨fun matched => MatchSession.eq_all_of_result?, fun hstaffed => ?_⟩
    have hstart := MatchSession.staffed_start hstaffed leftover rules
    exact MatchSession.exists_result? (MatchSession.staffed_run hstart steps)
  · intro config parallelMatch matchWorkers events others hothers hloop hown engine other
    let chronicle := Chronicle.new config
    have hjobs : chronicle.engine.JobsOfRules := .of_queue_eq_nil rfl
    have hsound : chronicle.engine.agenda.Sound chronicle.fired := .new config
    have hsame (equipment : Equipment) (hready : equipment.Ready) (history : List EngineEvent)
        (hhistory : history.filter (!·.dismisses) = events) :
        ∃ after : Equipment, after.Ready ∧
          ((chronicle.equipped equipment).after history).engine = engine.equipped after := by
      subst hhistory
      obtain ⟨after, hafter, heq⟩ := Chronicle.after_equipped hready hjobs hsound history hloop hown
      exact ⟨after, hafter, congrArg Chronicle.engine heq⟩
    have hplain : events.filter (!·.dismisses) = events := by
      rw [← hothers, List.filter_filter]
      simp only [Bool.and_self]
    obtain ⟨own, hownReady, hengine⟩ := hsame _ (Engine.ready_new config) events hplain
    obtain ⟨after, hready, hother⟩ := hsame _
      (Engine.ready_new { config with parallelMatch, matchWorkers }) others hothers
    have hwaiting : ∀ pool ∈ engine.matchers, pool.Waiting := by
      rw [show engine = engine.equipped own from hengine]
      exact hownReady.waiting
    have hother' : other = engine.equipped after := hother
    have hsynchronous : engine.Synchronous :=
      ⟨hloop.after, Chronicle.jobsOfRules_after hjobs hsound hown, _, Chronicle.sound_after hsound events⟩
    rw [hother']
    refine ⟨Engine.sameResults_equipped _ _, fun arrivals limit => ?_⟩
    have hconducts {ended : Outcome × Run} :
        (engine.begin arrivals).Conducts limit ended ↔ (engine.begin arrivals).EndsAs limit ended :=
      Run.conducts_iff hwaiting
    have hothers {ended : Outcome × Run} : ((engine.equipped after).begin arrivals).Conducts limit ended ↔
        ((engine.equipped after).begin arrivals).EndsAs limit ended := Run.conducts_iff hready.waiting
    obtain ⟨hends, hagree⟩ := Engine.runs_equipped hready hsynchronous arrivals limit
    simp only [hconducts, hothers]
    exact ⟨hends, fun _ => trivial, hagree⟩

/-- Two workers match two rules, and the second one answers first. -/
def crossedAnswers : List MatchStep := [.submit, .take, .submit, .take, .answer 1, .answer 0]

theorem run_crossedAnswers (budget : Option Nat) (view : View) (first second : RuleInstance) :
    (MatchSession.start (.start 2) 0 [first, second]).run budget view crossedAnswers =
      { unsent := []
        pool := .start 2
        answers := [(1, second.match? budget view), (0, first.match? budget view)] } := by
  simp [MatchSession.run, MatchSession.step, MatchSession.start, crossedAnswers, Match.numbered, Match.answer,
    WorkerPool.submit, WorkerPool.start, List.range_succ]

/-- Two rules that both list an item. Answers that cross come to the matches of both; and with three workers, who are
dismissed before the item is made, a run reports what it reports without any. -/
theorem matching_by_workers_does_not_show_listing :
    let rules : List RuleInstance := [⟨0, listRule⟩, ⟨1, listRule⟩]
    let events := [.register ⟨"item", [("name", .nil)]⟩, .addRules [listRule, listRule],
      .make "item" [("name", .str "a")]]
    let others := [.register ⟨"item", [("name", .nil)]⟩, .addRules [listRule, listRule], .shutdown,
      .make "item" [("name", .str "a")]]
    let engine := ((Chronicle.new .sequential).after events).engine
    let pooled := { Config.sequential with parallelMatch := true, matchWorkers := 3 }
    let other := ((Chronicle.new pooled).after others).engine
    ((MatchSession.start (.start 2) 0 rules).run none engine.view crossedAnswers).result? none engine.view rules =
        some (Match.all none engine.view rules) ∧
      others.filter (!·.dismisses) = events ∧ (Chronicle.new .sequential).StaysOnLoop events ∧
      (Chronicle.new .sequential).OwnJobs events ∧ engine.SameResults other ∧
      ∀ ended, (other.begin []).Conducts (some 2) ended → (ended.2.close ended.1).1 = (engine.runSteps 2).1 := by
  intro rules events others engine pooled other
  have hsync : engine.SyncOnly := by
    have hrules : engine.rules = rules := rfl
    rw [Engine.SyncOnly, hrules]
    decide
  have hnone (chronicle : Chronicle) (h : chronicle.engine.rules = []) : chronicle.engine.SyncOnly := by
    rw [Engine.SyncOnly, h]
    exact List.forall_mem_nil _
  have hloop : (Chronicle.new .sequential).StaysOnLoop events := ⟨hnone _ rfl, hnone _ rfl, hsync, hsync⟩
  have hown : (Chronicle.new .sequential).OwnJobs events := ⟨trivial, trivial, trivial, trivial⟩
  obtain ⟨hmatchings, hhistories⟩ := matching_by_workers_does_not_show
  obtain ⟨hmatched, -⟩ := hmatchings none engine.view rules (.start 2) 0 crossedAnswers
  obtain ⟨hsame, hruns⟩ := hhistories .sequential true 3 events others rfl hloop hown
  obtain ⟨-, -, hagree⟩ := hruns [] (some 2)
  refine ⟨?_, rfl, hloop, hown, hsame, fun ended hended => ?_⟩
  · rw [run_crossedAnswers] at hmatched ⊢
    exact congrArg some (hmatched _ rfl)
  · have hsteps : (engine.begin []).Conducts (some 2) ((engine.begin []).steps 2) :=
      Run.conducts_steps (fun pool hpool => (Option.not_mem_none pool hpool).elim) 2
    exact (hagree _ _ hsteps hended).1.symm

end ProductionSystem
