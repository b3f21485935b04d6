import ProductionSystem.Proofs.Backtracking
import ProductionSystem.Proofs.WrittenLines

/-!
Runs in parts. A run that stops at its limit leaves everything it goes by in the engine: only how many rules it has
fired and how long it has waited are its own, and neither counts in what a cycle does while nothing comes from
outside. So a run that goes on from there does what one run with the larger limit does, or one without a limit,
and it fires the rest of the rules.
-/

namespace ProductionSystem

namespace Run

variable {run : Run} {m n : Nat}

/-- A run up to a limit is a part of each run up to a larger one, and all of it if it is over before. -/
theorem steps_add (run : Run) (m n : Nat) :
    run.steps (m + n) =
      if (run.steps m).1 = .stepLimit then (run.steps m).2.steps n else run.steps m := by
  induction run, m using steps.induct with
  | case1 run m hhalted =>
      rw [steps_of_halted hhalted, steps_of_halted hhalted]
      rfl
  | case2 run hgoing => rw [steps_zero hgoing, if_pos rfl, Nat.zero_add]
  | case3 run hgoing m found next hfired ih =>
      rw [Nat.succ_add, steps_eq_of_fired hgoing hfired, steps_eq_of_fired hgoing hfired]
      exact ih
  | case4 run hgoing m next hagain ih =>
      rw [Nat.succ_add] at ih ⊢
      rw [steps_eq_of_again hgoing hagain, steps_eq_of_again hgoing hagain]
      exact ih
  | case5 run hgoing m next hquiet =>
      rw [Nat.succ_add, steps_eq_of_quiet hgoing hquiet, steps_eq_of_quiet hgoing hquiet]
      rfl

/-- The request to halt is looked at first, so a run that stops at its limit was not asked to. -/
theorem going_of_paused (hpaused : (run.steps m).1 = .stepLimit) :
    ¬(run.steps m).2.engine.workspace.halted = true := by
  intro hhalted
  have hagain := steps_add run m 0
  rw [Nat.add_zero, if_pos hpaused, steps_of_halted hhalted] at hagain
  rw [hagain] at hpaused
  cases hpaused

/-- Is a run without a limit over at last, and how? It is, if it is over after one cycle, or the run that goes on
from there is. -/
inductive Finishes : Run → Outcome × Run → Prop
  | ends {run : Run} {ended : Outcome × Run} (h : run.advance = .inr ended) : run.Finishes ended
  | goesOn {run next : Run} {ended : Outcome × Run} (h : run.advance = .inl next) (hrest : next.Finishes ended) :
      run.Finishes ended

theorem finishes_of_steps (h : (run.steps m).1 ≠ .stepLimit) : run.Finishes (run.steps m) := by
  induction run, m using steps.induct with
  | case1 run m hhalted =>
      rw [steps_of_halted hhalted]
      exact .ends (by rw [advance, if_pos hhalted])
  | case2 run hgoing =>
      rw [steps_zero hgoing] at h
      exact (h rfl).elim
  | case3 run hgoing m found next hfired ih =>
      rw [steps_eq_of_fired hgoing hfired] at h ⊢
      exact .goesOn (by rw [advance, if_neg hgoing, hfired]) (ih h)
  | case4 run hgoing m next hagain ih =>
      rw [steps_eq_of_again hgoing hagain] at h ⊢
      exact .goesOn (by rw [advance, if_neg hgoing, hagain]) (ih h)
  | case5 run hgoing m next hquiet =>
      rw [steps_eq_of_quiet hgoing hquiet]
      exact .ends (by rw [advance, if_neg hgoing, hquiet])

theorem exists_steps_of_finishes {ended : Outcome × Run} (h : run.Finishes ended) :
    ∃ limit, run.steps limit = ended ∧ ended.1 ≠ .stepLimit := by
  induction h with
  | @ends run ended hends =>
      unfold advance at hends
      split at hends
      · rename_i hhalted
        obtain rfl := Sum.inr.inj hends
        exact ⟨0, steps_of_halted hhalted 0, nofun⟩
      · rename_i hgoing
        split at hends
        · cases hends
        · cases hends
        · rename_i next hquiet
          obtain rfl := Sum.inr.inj hends
          exact ⟨1, steps_eq_of_quiet hgoing hquiet, nofun⟩
  | @goesOn run next ended hon _ ih =>
      obtain ⟨limit, hsteps, hover⟩ := ih
      unfold advance at hon
      split at hon
      · cases hon
      · rename_i hgoing
        refine ⟨limit + 1, ?_, hover⟩
        split at hon
        · rename_i found hfired
          obtain rfl := Sum.inl.inj hon
          rw [steps_eq_of_fired hgoing hfired, hsteps]
        · rename_i hagain
          obtain rfl := Sum.inl.inj hon
          -- the cycle fired no rule, so the limit that is enough for the rest is enough
          rw [steps_eq_of_again hgoing hagain, steps_add, if_neg (hsteps ▸ hover), hsteps]
        · cases hon

/-- A run without a limit is over if it is over within some limit, and then it is the same run. -/
theorem finishes_iff {ended : Outcome × Run} :
    run.Finishes ended ↔ ∃ limit, run.steps limit = ended ∧ ended.1 ≠ .stepLimit := by
  constructor
  · exact exists_steps_of_finishes
  · rintro ⟨limit, rfl, hover⟩
    exact finishes_of_steps hover

theorem finishes_iff_of_ended (hended : (run.steps m).1 ≠ .stepLimit) {ended : Outcome × Run} :
    run.Finishes ended ↔ ended = run.steps m := by
  constructor
  · intro h
    obtain ⟨limit, hsteps, hover⟩ := exists_steps_of_finishes h
    have hfirst := steps_add run m limit
    rw [if_neg hended, Nat.add_comm, steps_add, if_neg (hsteps ▸ hover), hsteps] at hfirst
    exact hfirst
  · rintro rfl
    exact finishes_of_steps hended

theorem finishes_iff_of_paused (hpaused : (run.steps m).1 = .stepLimit) {ended : Outcome × Run} :
    run.Finishes ended ↔ (run.steps m).2.Finishes ended := by
  rw [finishes_iff, finishes_iff]
  constructor
  · rintro ⟨limit, hsteps, hover⟩
    refine ⟨limit, ?_, hover⟩
    have hlarger := steps_add run limit m
    rw [if_neg (hsteps ▸ hover), Nat.add_comm, steps_add, if_pos hpaused] at hlarger
    exact hlarger.trans hsteps
  · rintro ⟨limit, hsteps, hover⟩
    exact ⟨m + limit, by rw [steps_add, if_pos hpaused, hsteps], hover⟩

/-- The run, had so many rules been fired and so much time been spent before. -/
def shifted (fired clock : Nat) (run : Run) : Run :=
  { run with fired := fired + run.fired, clock := clock + run.clock }

theorem shifted_engine (fired clock : Nat) (run : Run) : (run.shifted fired clock).engine = run.engine := rfl

def Cycle.map (f : Run → Run) : Cycle → Cycle
  | fired found run => fired found (f run)
  | again run => again (f run)
  | quiet run => quiet (f run)

section Nothing

/-- With nothing to come, the time that is waited for is always spent. -/
theorem listen_of_nothing (hnothing : run.arrivals = []) (timeout : Nat) :
    run.listen timeout =
      .quiet { run with engine := run.engine.drain, clock := run.clock + timeout } := by
  obtain ⟨engine, fired, arrivals, clock⟩ := run
  subst hnothing
  rfl

theorem arrivals_idle (hnothing : run.arrivals = []) : run.idle.toRun.arrivals = [] := by
  refine of_idle (P := fun later => later.arrivals = []) (fun later timeout hnothing => ?_) (fun _ h => h)
    (fun _ h => h) hnothing
  rw [listened, hnothing]
  rfl

theorem arrivals_cycle (hnothing : run.arrivals = []) : run.cycle.toRun.arrivals = [] := by
  cases hchoose : run.engine.drain.choose with
  | none =>
      have hdrained : ({ run with engine := run.engine.drain }).arrivals = [] := hnothing
      rw [cycle_of_none hchoose]
      exact arrivals_idle hdrained
  | some found =>
      rw [cycle_of_some hchoose]
      exact hnothing

end Nothing

section Shifted

variable (fired clock : Nat)

theorem rest_shifted (hnothing : run.arrivals = []) :
    (run.shifted fired clock).rest = run.rest.map (shifted fired clock) := by
  have hnothing' : (run.shifted fired clock).arrivals = [] := hnothing
  simp only [rest, shifted_engine]
  split
  · rw [listen_of_nothing hnothing, listen_of_nothing hnothing', shifted, Nat.add_assoc]
    rfl
  · rfl

theorem idle_shifted (hnothing : run.arrivals = []) :
    (run.shifted fired clock).idle = run.idle.map (shifted fired clock) := by
  have hsettled : ({ run with engine := run.engine.settle }).arrivals = [] := hnothing
  by_cases hworkless : run.engine.backlog = 0
  · rw [idle_of_workless hworkless, idle_of_workless (shifted_engine fired clock run ▸ hworkless)]
    exact rest_shifted fired clock hnothing
  · have hbusy : (run.shifted fired clock).engine.backlog ≠ 0 := hworkless
    by_cases hlong : run.engine.lingers = true
    · have hlong' : (run.shifted fired clock).engine.lingers = true := hlong
      rw [idle_of_long hworkless hlong, idle_of_long hbusy hlong', shifted_engine]
      split
      · rfl
      · exact rest_shifted fired clock hsettled
    · have hshort : ¬(run.shifted fired clock).engine.lingers = true := hlong
      rw [idle_of_short hworkless hlong, idle_of_short hbusy hshort]
      rfl

theorem cycle_shifted (hnothing : run.arrivals = []) :
    (run.shifted fired clock).cycle = run.cycle.map (shifted fired clock) := by
  have hdrained : ({ run with engine := run.engine.drain }).arrivals = [] := hnothing
  cases hchoose : run.engine.drain.choose with
  | none =>
      have hchoose' : (run.shifted fired clock).engine.drain.choose = none := hchoose
      rw [cycle_of_none hchoose, cycle_of_none hchoose']
      exact idle_shifted fired clock hdrained
  | some found =>
      have hchoose' : (run.shifted fired clock).engine.drain.choose = some found := hchoose
      rw [cycle_of_some hchoose, cycle_of_some hchoose']
      rfl

theorem steps_shifted (hnothing : run.arrivals = []) (limit : Nat) :
    (run.shifted fired clock).steps limit =
      ((run.steps limit).1, (run.steps limit).2.shifted fired clock) := by
  induction run, limit using steps.induct with
  | case1 run limit hhalted =>
      rw [steps_of_halted hhalted, steps_of_halted (shifted_engine fired clock run ▸ hhalted)]
  | case2 run hgoing => rw [steps_zero hgoing, steps_zero (shifted_engine fired clock run ▸ hgoing)]
  | case3 run hgoing limit found next hfired ih =>
      have hgoing' : ¬(run.shifted fired clock).engine.workspace.halted = true := hgoing
      have hnext := arrivals_cycle hnothing
      have hshifted := cycle_shifted fired clock hnothing
      rw [hfired] at hnext hshifted
      rw [steps_eq_of_fired hgoing hfired, steps_eq_of_fired hgoing' hshifted]
      exact ih hnext
  | case4 run hgoing limit next hagain ih =>
      have hgoing' : ¬(run.shifted fired clock).engine.workspace.halted = true := hgoing
      have hnext := arrivals_cycle hnothing
      have hshifted := cycle_shifted fired clock hnothing
      rw [hagain] at hnext hshifted
      rw [steps_eq_of_again hgoing hagain, steps_eq_of_again hgoing' hshifted]
      exact ih hnext
  | case5 run hgoing limit next hquiet =>
      have hgoing' : ¬(run.shifted fired clock).engine.workspace.halted = true := hgoing
      have hshifted := cycle_shifted fired clock hnothing
      rw [hquiet] at hshifted
      rw [steps_eq_of_quiet hgoing hquiet, steps_eq_of_quiet hgoing' hshifted]

theorem finishes_shifted_iff (hnothing : run.arrivals = []) {ended : Outcome × Run} :
    (run.shifted fired clock).Finishes ended ↔
      ∃ last, run.Finishes last ∧ (last.1, last.2.shifted fired clock) = ended := by
  rw [finishes_iff]
  constructor
  · rintro ⟨limit, rfl, hover⟩
    rw [steps_shifted fired clock hnothing] at hover ⊢
    exact ⟨_, finishes_of_steps hover, rfl⟩
  · rintro ⟨last, hlast, rfl⟩
    obtain ⟨limit, rfl, hover⟩ := exists_steps_of_finishes hlast
    exact ⟨limit, steps_shifted fired clock hnothing limit, hover⟩

end Shifted

end Run

/-- Two reports on runs, one after the other, as the report on one run. -/
def Report.followedBy (earlier later : Report) : Report :=
  ⟨earlier.firings + later.firings, later.outcome⟩

/-- Does an engine that runs without a limit come to a report, and to an engine after the run? -/
def Engine.RunsTo (engine : Engine) (answer : Report × Engine) : Prop :=
  ∃ ended, (engine.begin []).Finishes ended ∧ ended.2.close ended.1 = answer

namespace Engine

variable {engine : Engine} {m n : Nat}

/-- What a run goes by when it stops at its limit, a new run finds in the engine. -/
theorem shifted_begin_of_paused (hpaused : ((engine.begin []).steps m).1 = .stepLimit) :
    let last := ((engine.begin []).steps m).2
    ((engine.runSteps m).2.begin []).shifted last.fired last.clock = last := by
  have hgoing := Run.going_of_paused hpaused
  have hstate : ((engine.begin []).steps m).2.engine.state = .running := Run.state_steps m
  have hnothing : ((engine.begin []).steps m).2.arrivals = [] :=
    Run.of_steps (P := fun run => run.arrivals = []) (fun _ => Run.arrivals_cycle) rfl m
  have hclose : (engine.runSteps m).2 = (((engine.begin []).steps m).2.close .stepLimit).2 :=
    congrArg (fun outcome => (Run.close outcome ((engine.begin []).steps m).2).2) hpaused
  rw [hclose]
  generalize ((engine.begin []).steps m).2 = last at hgoing hstate hnothing
  obtain ⟨⟨config, matchers, executor, ⟨store, halted, lines⟩, rules, added, state, lastFired, firings, failures⟩,
    fired, arrivals, clock⟩ := last
  obtain rfl : halted = false := (Bool.not_eq_true halted).mp hgoing
  obtain rfl : state = .running := hstate
  obtain rfl : arrivals = [] := hnothing
  rfl

theorem runSteps_add_of_paused (hpaused : (engine.runSteps m).1.outcome = .stepLimit) (n : Nat) :
    let second := (engine.runSteps m).2.runSteps n
    engine.runSteps (m + n) = ((engine.runSteps m).1.followedBy second.1, second.2) := by
  have hlast := shifted_begin_of_paused hpaused
  have hsplit := Run.steps_add (engine.begin []) m n
  rw [if_pos (show ((engine.begin []).steps m).1 = .stepLimit from hpaused), ← hlast,
    Run.steps_shifted _ _ rfl] at hsplit
  show Run.close _ _ = _
  rw [hsplit]
  rfl

theorem runsTo_iff_of_paused (hpaused : (engine.runSteps m).1.outcome = .stepLimit) {answer : Report × Engine} :
    engine.RunsTo answer ↔
      ∃ second, (engine.runSteps m).2.RunsTo second ∧
        ((engine.runSteps m).1.followedBy second.1, second.2) = answer := by
  have hsplit {ended : Outcome × Run} : (engine.begin []).Finishes ended ↔ _ := Run.finishes_iff_of_paused hpaused
  simp only [RunsTo, hsplit]
  rw [← shifted_begin_of_paused hpaused]
  have hshifted (fired clock : Nat) {ended : Outcome × Run} :
      (((engine.runSteps m).2.begin []).shifted fired clock).Finishes ended ↔ _ :=
    Run.finishes_shifted_iff fired clock rfl
  simp only [hshifted]
  constructor
  · rintro ⟨_, ⟨last, hlast, rfl⟩, rfl⟩
    exact ⟨_, ⟨last, hlast, rfl⟩, rfl⟩
  · rintro ⟨_, ⟨last, hlast, rfl⟩, rfl⟩
    exact ⟨_, ⟨last, hlast, rfl⟩, rfl⟩

theorem runSteps_add_of_ended (hended : (engine.runSteps m).1.outcome ≠ .stepLimit) (n : Nat) :
    engine.runSteps (m + n) = engine.runSteps m := by
  have hsplit := Run.steps_add (engine.begin []) m n
  rw [if_neg (show ((engine.begin []).steps m).1 ≠ .stepLimit from hended)] at hsplit
  show Run.close _ _ = _
  rw [hsplit]
  rfl

theorem runsTo_iff_of_ended (hended : (engine.runSteps m).1.outcome ≠ .stepLimit) {answer : Report × Engine} :
    engine.RunsTo answer ↔ answer = engine.runSteps m := by
  have hover {ended : Outcome × Run} : (engine.begin []).Finishes ended ↔ _ := Run.finishes_iff_of_ended hended
  simp only [RunsTo, hover, exists_eq_left]
  exact eq_comm

/-- A run without a limit that is over is a run within some limit. -/
theorem runsTo_iff {answer : Report × Engine} :
    engine.RunsTo answer ↔ ∃ limit, engine.runSteps limit = answer ∧ answer.1.outcome ≠ .stepLimit := by
  constructor
  · rintro ⟨ended, hended, rfl⟩
    obtain ⟨limit, rfl, hover⟩ := Run.exists_steps_of_finishes hended
    exact ⟨limit, rfl, hover⟩
  · rintro ⟨limit, rfl, hover⟩
    exact (runsTo_iff_of_ended hover).2 rfl

theorem adds_runSteps {workspace : Workspace} (h : engine.Adds workspace) (limit : Nat) :
    (engine.runSteps limit).2.Adds workspace := by
  refine Run.adds_close ?_ _
  exact Run.of_steps (P := fun run => run.engine.Adds workspace) (fun _ => Run.adds_cycle)
    (show ((engine.begin []).engine).Adds workspace from ⟨h.extended, h.appends⟩) limit

end Engine

/-- **A run can be split.** If a run stops at its limit, then to go on up to a second limit leaves the same engine
as one run up to both limits together, with the same outcome and the firings added up; and to go on without a
limit comes to what one run without a limit comes to. A run that is over before its limit is the run up to every
larger limit, and the run without one. If no command takes lines back, the lines up to a smaller limit are the
first of the lines up to a larger one. -/
theorem run_in_parts (engine : Engine) (m n : Nat) :
    let first := engine.runSteps m
    let whole := engine.runSteps (m + n)
    (first.1.outcome = .stepLimit →
        whole = (first.1.followedBy (first.2.runSteps n).1, (first.2.runSteps n).2) ∧
          ∀ answer, engine.RunsTo answer ↔
            ∃ second, first.2.RunsTo second ∧ (first.1.followedBy second.1, second.2) = answer) ∧
      (first.1.outcome ≠ .stepLimit → whole = first ∧ ∀ answer, engine.RunsTo answer ↔ answer = first) ∧
      ((∀ command ∈ engine.commands, command.AppendsLines) →
        first.2.workspace.lines.toList <+: whole.2.workspace.lines.toList) := by
  intro first whole
  refine ⟨fun hpaused => ?_, fun hended => ?_, fun happends => ?_⟩
  · exact ⟨Engine.runSteps_add_of_paused hpaused n, fun _ => Engine.runsTo_iff_of_paused hpaused⟩
  · exact ⟨Engine.runSteps_add_of_ended hended n, fun _ => Engine.runsTo_iff_of_ended hended⟩
  · have hadds : first.2.Adds engine.workspace := Engine.adds_runSteps ⟨.of_lines rfl, happends⟩ m
    by_cases hpaused : first.1.outcome = .stepLimit
    · have hwhole : whole = _ := Engine.runSteps_add_of_paused hpaused n
      have hsecond : (first.2.runSteps n).2.Adds first.2.workspace :=
        Engine.adds_runSteps ⟨.of_lines rfl, hadds.appends⟩ n
      rw [hwhole]
      exact hsecond.extended
    · have hwhole : whole = first := Engine.runSteps_add_of_ended hpaused n
      exact Workspace.Extended.of_lines (congrArg (fun answer => answer.2.workspace.lines) hwhole)

/-- A rule that lists items and takes them away. -/
def listRule : Rule where
  name := "list"
  conditions := [⟨"item", [("name", .variable "$name")]⟩]
  actions := [⟨Builtin.write.command, [.variable "$name"]⟩, ⟨Builtin.remove.command, [.literal (.int 0)]⟩]

/-- An engine with the rule and two items. -/
def listingEngine : Engine :=
  let engine := ((Engine.new .sequential).register ⟨"item", [("name", .nil)]⟩).addRule listRule
  (engine.make "item" [("name", .str "a")]).2.make "item" [("name", .str "b")] |>.2

def listingMatch : Match := ⟨⟨0, listRule⟩, [⟨0⟩], Dictionary.empty.insert "$name" (.str "a")⟩

theorem choose_listing : (listingEngine.begin []).engine.drain.choose = some listingMatch := by
  have hall : (listingEngine.begin []).engine.drain.matchAll =
      Match.all none (listingEngine.begin []).engine.drain.view listingEngine.rules := rfl
  rw [Engine.choose_of_matchAll hall]
  rfl

/-- A run of one firing stops at its limit there, and to go on lists the other item behind the first. -/
theorem run_in_parts_listing :
    let first := listingEngine.runSteps 1
    let whole := listingEngine.runSteps 3
    first.1.outcome = .stepLimit ∧ (∀ command ∈ listingEngine.commands, command.AppendsLines) ∧
      whole = (first.1.followedBy (first.2.runSteps 2).1, (first.2.runSteps 2).2) ∧
      first.2.workspace.lines.toList <+: whole.2.workspace.lines.toList := by
  intro first whole
  have hpaused : first.1.outcome = .stepLimit := by
    show ((listingEngine.begin []).steps 1).1 = .stepLimit
    rw [Run.steps_eq_of_fired Bool.false_ne_true (Run.cycle_of_some choose_listing), Run.steps_zero Bool.false_ne_true]
  have happends : ∀ command ∈ listingEngine.commands, command.AppendsLines := by
    have hcommands : listingEngine.commands = [Builtin.write.command, Builtin.remove.command] := rfl
    rw [hcommands]
    exact List.forall_mem_cons.2 ⟨Builtin.appendsLines _, List.forall_mem_singleton.2 (Builtin.appendsLines _)⟩
  obtain ⟨hsplit, -, hlines⟩ := run_in_parts listingEngine 1 2
  exact ⟨hpaused, happends, (hsplit hpaused).1, hlines happends⟩

end ProductionSystem
