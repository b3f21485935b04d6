import ProductionSystem.Proofs.CommandChanges
import ProductionSystem.Proofs.FailureReports
import ProductionSystem.Proofs.HaltRequests

/-!
Runs over a memory that stands still. If the actions of the rules that fire leave memory and the request to halt as they
are, every cycle finds the same matches in the same order, and only the rule fired last changes. The choice sets that
rule aside, if it is the one of the first match, and takes the first match otherwise: so the first two matches take
turns, and no third one is ever reached. What a run goes by is in the engine when it stops at its limit, so the next run
goes on with the turns.
-/

namespace ProductionSystem

/-- Does a store hold what another one holds? Only the id of the next fact and the epoch may differ. -/
structure Store.SameContents (store other : Store) : Prop where
  facts : other.facts = store.facts
  templates : other.templates = store.templates
  pending : other.pending = store.pending
  live : other.live = store.live

namespace Store.SameContents

variable {store other : Store}

theorem refl (store : Store) : store.SameContents store := ⟨rfl, rfl, rfl, rfl⟩

theorem trans {last : Store} (h : store.SameContents other) (h' : other.SameContents last) : store.SameContents last :=
  ⟨h'.facts.trans h.facts, h'.templates.trans h.templates, h'.pending.trans h.pending, h'.live.trans h.live⟩

/-- Matching looks at nothing else. -/
theorem view_eq (h : store.SameContents other) : other.view other.snapshot = store.view store.snapshot := by
  have hfact : other.fact? = store.fact? := by
    funext ref
    rw [Store.fact?, h.facts, Store.fact?]
  funext type
  rw [Store.view, Store.view, Store.candidates, hfact, Store.snapshot, h.live]
  rfl

end Store.SameContents

/-- Are memory and the request to halt in a later workspace as they were? -/
structure Workspace.StandsStill (workspace later : Workspace) : Prop where
  contents : workspace.store.SameContents later.store
  halted : later.halted = workspace.halted

namespace Workspace.StandsStill

theorem refl (workspace : Workspace) : workspace.StandsStill workspace := ⟨.refl _, rfl⟩

theorem trans {workspace later last : Workspace} (h : workspace.StandsStill later) (h' : later.StandsStill last) :
    workspace.StandsStill last :=
  ⟨h.contents.trans h'.contents, h'.halted.trans h.halted⟩

end Workspace.StandsStill

/-- Does the dispatch change neither memory nor the request to halt? -/
def Dispatch.KeepsMemory (dispatch : Dispatch) : Prop :=
  dispatch.engine.workspace.StandsStill dispatch.after.2.workspace

/-- Are the actions of the matched rule done on the loop, and does none of them change memory or the request to halt
when the match is fired in a memory of such contents? -/
structure Match.LeavesMemory (found : Match) (store : Store) : Prop where
  sync : ∀ action ∈ found.source.rule.actions, action.command.mode = .sync
  still : ∀ engine : Engine, store.SameContents engine.store →
    ∀ dispatch ∈ (Fired.mk engine found).dispatches, dispatch.KeepsMemory

/-- What no dispatch changes, is not changed by all of them. -/
theorem Engine.standsStill_dispatchAll {engine : Engine} {firing : Firing} {actions : List Action}
    (hkeep : ∀ dispatch ∈ engine.dispatches firing actions, dispatch.KeepsMemory) :
    engine.workspace.StandsStill (engine.dispatchAll firing actions).workspace := by
  induction actions generalizing engine firing with
  | nil => exact .refl _
  | cons action actions ih =>
      obtain ⟨hfirst, hothers⟩ := List.forall_mem_cons.1 hkeep
      exact hfirst.trans (ih hothers)

theorem Match.LeavesMemory.fire {found : Match} {store : Store} (h : found.LeavesMemory store) {engine : Engine}
    (hcontents : store.SameContents engine.store) :
    engine.workspace.StandsStill (engine.fire found).workspace :=
  Engine.standsStill_dispatchAll (h.still engine hcontents)

section Commands

/-- Has a command changed neither memory nor the request to halt, and queued no fact to be removed? -/
structure ActionState.StandsStill (state after : ActionState) : Prop where
  workspace : state.workspace.StandsStill after.workspace
  removals : after.firing.removals = state.firing.removals

/-- Does a command stand still, whatever it is given? -/
def Command.LeavesMemory (command : Command) : Prop :=
  ∀ (args : List Value) (state : ActionState), state.StandsStill (command.run args state).2

theorem Builtin.leavesMemory_write : Builtin.write.command.LeavesMemory :=
  fun _ _ => ⟨⟨.refl _, rfl⟩, rfl⟩

theorem Builtin.leavesMemory_bind : Builtin.bind.command.LeavesMemory := by
  intro args state
  rw [Command.state_run]
  match args with
  | [target, value] =>
      show state.StandsStill ((ActionM.decoded (Arguments.name bind.name target) >>= fun name =>
        ActionM.bind name value).run state).2
      rw [run_decoded_bind]
      cases Arguments.name bind.name target with
      | ok name => exact ⟨.refl state.workspace, rfl⟩
      | error problem => exact ⟨.refl state.workspace, rfl⟩
  | [] | [_] | _ :: _ :: _ :: _ => exact ⟨.refl state.workspace, rfl⟩

/-- A command that only fails or panics. -/
theorem Command.Is.leavesMemory {command : Command} (h : command.Is none) : command.LeavesMemory := by
  intro args state
  cases h with
  | failing hfails =>
      obtain ⟨abort, hrun⟩ := hfails args state
      rw [Command.state_run, hrun]
      exact ⟨.refl _, rfl⟩

theorem Engine.keepsMemory_dispatch {action : Action} (hcommand : action.command.LeavesMemory) (engine : Engine)
    {firing : Firing} (hnone : firing.removals = []) :
    engine.workspace.StandsStill (engine.dispatch firing action).2.workspace ∧
      (engine.dispatch firing action).1.removals = [] := by
  cases hfate : (Happening.dispatch engine firing action).fate with
  | executed command args failure? =>
      obtain ⟨-, rfl, -⟩ := Happening.of_fate_eq_executed hfate
      obtain ⟨hfiring, hworkspace⟩ := engine.dispatch_of_executed firing action action.command args hfate
      obtain ⟨hstill, hremovals⟩ := hcommand args ⟨firing, engine.workspace⟩
      rw [hremovals, hnone] at hworkspace
      rw [hfiring, hworkspace]
      exact ⟨hstill, rfl⟩
  | unresolved cause | handedOver job | turnedAway cause =>
      obtain ⟨hfiring, hworkspace⟩ := (engine.dispatch_meets_fate firing action).2.2 (by rw [hfate]; rfl)
      rw [hfiring]
      refine ⟨?_, hnone⟩
      rcases hworkspace with hworkspace | hworkspace
      · rw [hworkspace]
        exact .refl _
      · rw [hworkspace]
        exact ⟨⟨rfl, rfl, rfl, rfl⟩, rfl⟩

/-- It is enough that the commands of the actions leave memory as it is. -/
theorem Match.leavesMemory_of_commands {found : Match}
    (hcommands : ∀ action ∈ found.source.rule.actions, action.command.mode = .sync ∧ action.command.LeavesMemory)
    (store : Store) : found.LeavesMemory store := by
  refine ⟨fun action haction => (hcommands action haction).1, fun engine _ => ?_⟩
  have hdispatches (actions : List Action) (hactions : ∀ action ∈ actions, action.command.LeavesMemory)
      (engine : Engine) (firing : Firing) (hnone : firing.removals = []) :
      ∀ dispatch ∈ engine.dispatches firing actions, dispatch.KeepsMemory := by
    induction actions generalizing engine firing with
    | nil => exact List.forall_mem_nil _
    | cons action actions ih =>
        obtain ⟨hfirst, hothers⟩ := List.forall_mem_cons.1 hactions
        obtain ⟨hkeeps, hnext⟩ := engine.keepsMemory_dispatch hfirst hnone
        exact List.forall_mem_cons.2 ⟨hkeeps, ih hothers _ _ hnext⟩
  exact hdispatches _ (fun action haction => (hcommands action haction).2) _ _ rfl

end Commands

/-- A sequence of so many values that goes to and fro between two of them. -/
def alternating {α : Type} (first second : α) (n : Nat) : List α :=
  (List.range n).map fun index => if index % 2 = 0 then first else second

theorem alternating_succ {α : Type} (first second : α) (n : Nat) :
    alternating first second (n + 1) = first :: alternating second first n := by
  rw [alternating, List.range_succ_eq_map, List.map_cons, List.map_map, if_pos (Nat.zero_mod 2), alternating]
  refine congrArg (first :: ·) (List.map_congr_left fun index _ => ?_)
  simp only [Function.comp_apply]
  by_cases heven : index % 2 = 0
  · rw [if_pos heven, if_neg (by omega)]
  · rw [if_neg heven, if_pos (by omega)]

namespace Engine

/-- Does an engine find certain matches when the pending facts have become live, the first two of them to be fired in a
memory of the given contents? -/
structure Faces (store : Store) (first second : Match) (others : List Match) (engine : Engine) : Prop where
  contents : store.SameContents engine.drain.store
  matched : Match.all engine.config.maxMatchFrames engine.drain.view engine.rules = first :: second :: others
  idle : ∀ pool ∈ engine.matchers, pool.queue = []

/-- Is it the turn of one of the first two matches, and then of the other one? It is that of the second if the rule of
the first was fired last. -/
def Turn (engine : Engine) (first second next later : Match) : Prop :=
  engine.lastFired.any first.source.same = true ∧ next = second ∧ later = first ∨
    engine.lastFired.any first.source.same = false ∧ next = first ∧ later = second

variable {store : Store} {first second next later : Match} {others : List Match} {engine : Engine}

theorem Turn.eq_or_eq (hturn : engine.Turn first second next later) : next = first ∨ next = second := by
  rcases hturn with ⟨-, hnext, -⟩ | ⟨-, hnext, -⟩
  · exact .inr hnext
  · exact .inl hnext

/-- When the rule has been fired, it is the turn of the other one. -/
theorem Turn.swap (hturn : engine.Turn first second next later) (hapart : first.source.serial ≠ second.source.serial)
    {after : Engine} (hlast : after.lastFired = some next.source) : after.Turn first second later next := by
  rcases hturn with ⟨-, rfl, rfl⟩ | ⟨-, rfl, rfl⟩
  · refine .inr ⟨?_, rfl, rfl⟩
    rw [hlast]
    exact beq_eq_false_iff_ne.2 hapart
  · refine .inl ⟨?_, rfl, rfl⟩
    rw [hlast]
    exact beq_self_eq_true _

theorem Faces.choose (h : engine.Faces store first second others) (hturn : engine.Turn first second next later) :
    engine.drain.choose = some next := by
  have hall : engine.drain.matchAll = first :: second :: others := (Match.allBy_eq_all h.idle).trans h.matched
  have hlast : engine.drain.lastFired = engine.lastFired := rfl
  rw [Engine.choose, hall, Conflict.select_cons_cons, hlast]
  rcases hturn with ⟨hfired, rfl, -⟩ | ⟨hother, rfl, -⟩
  · rw [hfired, if_pos rfl]
  · rw [hother, if_neg Bool.false_ne_true]

/-- A firing that leaves memory as it is changes nothing about what is found. -/
theorem Faces.fire (h : engine.Faces store first second others) (hleaves : next.LeavesMemory store) :
    (engine.drain.fire next).Faces store first second others := by
  have hstill := hleaves.fire h.contents
  have hcontents : store.SameContents (engine.drain.fire next).store := h.contents.trans hstill.contents
  have hdrained : (engine.drain.fire next).drain = engine.drain.fire next :=
    drain_of_pending_eq_nil hstill.contents.pending
  obtain ⟨workspace, executor, failures, hfire⟩ := Worked.fire engine.drain next
  refine ⟨hdrained.symm ▸ hcontents, ?_, ?_⟩
  · have hview : (engine.drain.fire next).view = engine.drain.view := hstill.contents.view_eq
    rw [hdrained, hview, hfire]
    exact h.matched
  · rw [hfire]
    exact h.idle

/-- The request to halt and what the engine is doing do not count. -/
theorem Faces.begin (h : engine.Faces store first second others) (arrivals : List Arrival) :
    (engine.begin arrivals).engine.Faces store first second others :=
  ⟨h.contents, h.matched, h.idle⟩

theorem Faces.paused (h : engine.Faces store first second others) :
    ({ engine with state := .idle } : Engine).Faces store first second others :=
  ⟨h.contents, h.matched, h.idle⟩

end Engine

section Turns

variable {store : Store} {first second next later : Match} {others : List Match}
  (hapart : first.source.serial ≠ second.source.serial)
  (hfirst : first.LeavesMemory store) (hsecond : second.LeavesMemory store)

include hapart hfirst hsecond

/-- A cycle fires the match whose turn it is, and then it is the turn of the other one. -/
theorem Run.cycle_of_turn {run : Run} (h : run.engine.Faces store first second others)
    (hturn : run.engine.Turn first second next later) :
    ∃ after : Run, run.cycle = .fired next after ∧ after.fired = run.fired + 1 ∧
      after.engine.workspace.halted = run.engine.workspace.halted ∧
      after.engine.Faces store first second others ∧ after.engine.Turn first second later next := by
  have hleaves : next.LeavesMemory store := by
    rcases hturn.eq_or_eq with rfl | rfl
    · exact hfirst
    · exact hsecond
  refine ⟨_, cycle_of_some (h.choose hturn), rfl, (hleaves.fire h.contents).halted, h.fire hleaves, ?_⟩
  refine hturn.swap hapart ?_
  obtain ⟨workspace, executor, failures, hfire⟩ := Engine.Worked.fire run.engine.drain next
  rw [hfire]

/-- A run goes on with the turns up to its limit. -/
theorem Run.steps_of_turn {run : Run} (h : run.engine.Faces store first second others)
    (hturn : run.engine.Turn first second next later) (hgoing : run.engine.workspace.halted = false) (n : Nat) :
    ∃ last : Run, run.steps n = (.stepLimit, last) ∧ last.fired = run.fired + n ∧
      (run.trail n).map Fired.found = alternating next later n ∧
      last.engine.Faces store first second others ∧
      ∃ next' later', last.engine.Turn first second next' later' ∧
        ∀ m, alternating next later (n + m) = alternating next later n ++ alternating next' later' m := by
  have hnot : ¬run.engine.workspace.halted = true := by
    rw [hgoing]
    exact Bool.false_ne_true
  induction n generalizing run next later with
  | zero =>
      refine ⟨run, steps_zero hnot, rfl, ?_, h, next, later, hturn, fun m => ?_⟩
      · rw [trail_zero]
        rfl
      · rw [Nat.zero_add]
        rfl
  | succ n ih =>
      obtain ⟨after, hcycle, hfired, hhalted, hfaces, hswapped⟩ := cycle_of_turn hapart hfirst hsecond h hturn
      have hgoing' : after.engine.workspace.halted = false := hhalted.trans hgoing
      obtain ⟨last, hsteps, hcount, htrail, hlast, next', later', hturn', halternates⟩ :=
        ih hfaces hswapped hgoing' (by rw [hgoing']; exact Bool.false_ne_true)
      refine ⟨last, ?_, ?_, ?_, hlast, next', later', hturn', fun m => ?_⟩
      · rw [steps_eq_of_fired hnot hcycle, hsteps]
      · rw [hcount, hfired]
        omega
      · rw [trail_of_fired hnot hcycle, List.map_cons, htrail, alternating_succ]
      · rw [Nat.succ_add, alternating_succ, alternating_succ, halternates, List.cons_append]

end Turns

namespace Engine

/-- The matches that a run fires up to a limit, in their order. -/
def fires (engine : Engine) (limit : Nat) : List Match := ((engine.begin []).trail limit).map Fired.found

/-- Runs up to limits, one after the other: what each reports and fires. -/
def runEach (engine : Engine) : List Nat → List (Report × List Match)
  | [] => []
  | limit :: limits => ((engine.runSteps limit).1, engine.fires limit) :: (engine.runSteps limit).2.runEach limits

/-- Does every run come to its limit, firing two matches by turns, and do several runs go on with the turns? -/
structure Alternates (engine : Engine) (next later : Match) : Prop where
  report : ∀ n, (engine.runSteps n).1 = ⟨n, .stepLimit⟩
  fires : ∀ n, engine.fires n = alternating next later n
  reports : ∀ limits, (engine.runEach limits).map Prod.fst = limits.map (⟨·, .stepLimit⟩)
  firesEach : ∀ limits, (engine.runEach limits).flatMap Prod.snd = alternating next later limits.sum

section Turns

variable {store : Store} {first second next later : Match} {others : List Match} {engine : Engine}
  (hapart : first.source.serial ≠ second.source.serial)
  (hfirst : first.LeavesMemory store) (hsecond : second.LeavesMemory store)

include hapart hfirst hsecond

theorem runSteps_of_turn (h : engine.Faces store first second others) (hturn : engine.Turn first second next later)
    (n : Nat) :
    (engine.runSteps n).1 = ⟨n, .stepLimit⟩ ∧ engine.fires n = alternating next later n ∧
      (engine.runSteps n).2.Faces store first second others ∧
      ∃ next' later', (engine.runSteps n).2.Turn first second next' later' ∧
        ∀ m, alternating next later (n + m) = alternating next later n ++ alternating next' later' m := by
  obtain ⟨last, hsteps, hcount, htrail, hlast, next', later', hturn', halternates⟩ :=
    Run.steps_of_turn hapart hfirst hsecond (h.begin []) hturn rfl n
  have hclose : engine.runSteps n = last.close .stepLimit := by
    show Run.close _ _ = _
    rw [hsteps]
  rw [hclose, Run.close]
  dsimp only
  rw [show last.fired = n from hcount.trans (Nat.zero_add n)]
  exact ⟨rfl, htrail, hlast.paused, next', later', hturn', halternates⟩

theorem alternates_of_turn (h : engine.Faces store first second others)
    (hturn : engine.Turn first second next later) : engine.Alternates next later := by
  have heach (limits : List Nat) : (engine.runEach limits).map Prod.fst = limits.map (⟨·, .stepLimit⟩) ∧
      (engine.runEach limits).flatMap Prod.snd = alternating next later limits.sum := by
    induction limits generalizing engine next later with
    | nil => exact ⟨rfl, rfl⟩
    | cons limit limits ih =>
        obtain ⟨hreport, hfires, hfaces, next', later', hturn', halternates⟩ :=
          runSteps_of_turn hapart hfirst hsecond h hturn limit
        obtain ⟨hreports, hrest⟩ := ih hfaces hturn'
        rw [runEach, List.map_cons, List.map_cons, List.flatMap_cons, List.sum_cons, hreport, hfires, hreports, hrest,
          halternates]
        exact ⟨rfl, rfl⟩
  have honce (n : Nat) := runSteps_of_turn hapart hfirst hsecond h hturn n
  exact ⟨fun n => (honce n).1, fun n => (honce n).2.1, fun limits => (heach limits).1, fun limits => (heach limits).2⟩

end Turns

end Engine

/-- **Over a memory that stands still two rules take turns.** Take an engine with any history, and let at least two rules
match when the pending facts have become live. Let the actions of the first two of them be done on the loop, and change
neither memory nor the request to halt when their matches are fired: they may write, bind, fail or panic. Then a run
with a limit fires so many rules and stops at the limit, whatever the limit is, and it fires these two matches by turns:
it begins with the second if the rule of the first was the last one fired, and with the first otherwise. No other rule
fires, however many match. Several runs, one after the other, fire what one run with the sum of their limits fires. -/
theorem static_memory_alternates (config : Config) (events : List EngineEvent) {engine : Engine}
    (hengine : engine = ((Chronicle.new config).after events).engine) {first second : Match} {others : List Match}
    (hmatched : Match.all engine.config.maxMatchFrames engine.drain.view engine.rules = first :: second :: others)
    (hfirst : first.LeavesMemory engine.drain.store) (hsecond : second.LeavesMemory engine.drain.store) :
    first.source.serial ≠ second.source.serial ∧
      (engine.lastFired = some first.source → engine.Alternates second first) ∧
      (engine.lastFired ≠ some first.source → engine.Alternates first second) := by
  obtain ⟨fired, hsound⟩ : ∃ fired, engine.drain.agenda.Sound fired :=
    ⟨_, hengine ▸ Chronicle.sound_after (show (Chronicle.new config).engine.agenda.Sound [] from .new config) events⟩
  have hapart : first.source.serial ≠ second.source.serial := by
    have hpairwise : (Match.all engine.config.maxMatchFrames engine.drain.view engine.rules).Pairwise
        fun a b => a.source.serial ≠ b.source.serial := hsound.pairwise_all _ _
    rw [hmatched] at hpairwise
    exact List.rel_of_pairwise_cons hpairwise List.mem_cons_self
  have hsame : engine.lastFired.any first.source.same = true ↔ engine.lastFired = some first.source := by
    have hrule : first.source ∈ engine.drain.rules := Match.source_mem_of_mem_all (hmatched ▸ List.mem_cons_self)
    have hlast : engine.lastFired = fired.getLast? := hsound.last
    rw [hlast]
    exact hlast ▸ hsound.lastFired_same_iff hrule
  have hfaces : engine.Faces engine.drain.store first second others := ⟨.refl _, hmatched, hsound.idle⟩
  refine ⟨hapart, fun hlast => ?_, fun hlast => ?_⟩
  · exact Engine.alternates_of_turn hapart hfirst hsecond hfaces (.inl ⟨hsame.2 hlast, rfl, rfl⟩)
  · have hother : engine.lastFired.any first.source.same = false :=
      Bool.eq_false_iff.2 fun h => hlast (hsame.1 h)
    exact Engine.alternates_of_turn hapart hfirst hsecond hfaces (.inr ⟨hother, rfl, rfl⟩)

/-- A rule that binds a variable and writes what it stands for. -/
def tallyRule : Rule where
  name := "tally"
  conditions := [⟨"seed", []⟩]
  actions := [
    ⟨Builtin.bind.command, [.literal (.str "$n"), .literal (.int 1)]⟩, ⟨Builtin.write.command, [.variable "$n"]⟩]

/-- A rule whose only action panics. -/
def burstRule : Rule where
  name := "burst"
  conditions := [⟨"seed", []⟩]
  actions := [⟨Machine.explode, []⟩]

/-- A rule that would change everything, if it were ever fired. -/
def sweepRule : Rule where
  name := "sweep"
  conditions := [⟨"seed", []⟩]
  actions := [⟨Builtin.remove.command, [.literal (.int 0)]⟩, ⟨Builtin.halt.command, []⟩]

def seedHistory : List EngineEvent :=
  [.register ⟨"seed", []⟩, .addRules [tallyRule, burstRule, sweepRule], .make "seed" []]

/-- The match of a rule of the history with the only seed. -/
def seedMatch (serial : Nat) (rule : Rule) : Match := ⟨⟨serial, rule⟩, [⟨0⟩], Dictionary.empty⟩

/-- The first two rules fire by turns, and the third one never does. A run of five, and runs of two, none and three come
to the same. -/
theorem static_memory_alternates_seed :
    let engine := ((Chronicle.new .sequential).after seedHistory).engine
    let tally := seedMatch 0 tallyRule
    let burst := seedMatch 1 burstRule
    Match.all engine.config.maxMatchFrames engine.drain.view engine.rules = [tally, burst, seedMatch 2 sweepRule] ∧
      tally.LeavesMemory engine.drain.store ∧ burst.LeavesMemory engine.drain.store ∧
      (engine.runSteps 5).1 = ⟨5, .stepLimit⟩ ∧ engine.fires 5 = [tally, burst, tally, burst, tally] ∧
      (engine.runEach [2, 0, 3]).map Prod.fst = [⟨2, .stepLimit⟩, ⟨0, .stepLimit⟩, ⟨3, .stepLimit⟩] ∧
      (engine.runEach [2, 0, 3]).flatMap Prod.snd = [tally, burst, tally, burst, tally] := by
  intro engine tally burst
  have hmatched : Match.all engine.config.maxMatchFrames engine.drain.view engine.rules =
      [tally, burst, seedMatch 2 sweepRule] := by
    have hrules : engine.rules = [⟨0, tallyRule⟩, ⟨1, burstRule⟩, ⟨2, sweepRule⟩] := rfl
    have hbudget : engine.config.maxMatchFrames = none := rfl
    rw [hrules, hbudget]
    simp only [Match.all, List.filterMap_cons, RuleInstance.match?_none]
    rfl
  have hexplode : Machine.explode.LeavesMemory := Command.Is.leavesMemory (.failing fun _ state => ⟨_, rfl⟩)
  have htally : tally.LeavesMemory engine.drain.store := by
    refine Match.leavesMemory_of_commands ?_ _
    show ∀ action ∈ tallyRule.actions, _
    simp only [tallyRule, List.forall_mem_cons]
    exact ⟨⟨rfl, Builtin.leavesMemory_bind⟩, ⟨rfl, Builtin.leavesMemory_write⟩, List.forall_mem_nil _⟩
  have hburst : burst.LeavesMemory engine.drain.store :=
    Match.leavesMemory_of_commands (List.forall_mem_singleton.2 ⟨rfl, hexplode⟩) _
  obtain ⟨-, -, hfresh⟩ := static_memory_alternates .sequential seedHistory rfl hmatched htally hburst
  have halternates : engine.Alternates tally burst := hfresh (Option.some_ne_none _).symm
  exact ⟨hmatched, htally, hburst, halternates.report 5, halternates.fires 5, halternates.reports [2, 0, 3],
    halternates.firesEach [2, 0, 3]⟩

end ProductionSystem
