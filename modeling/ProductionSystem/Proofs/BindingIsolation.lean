import ProductionSystem.Proofs.FiringBindings
import ProductionSystem.Proofs.JobRecords
import ProductionSystem.Proofs.Wakeups

/-!
Bindings are isolated. In an engine whose threads come between one another, the loop passes each action of a firing
the values that its parameters stand for under the bindings of the match and of the actions on the loop before it.
No thread but the loop gets at these bindings, as a job has bindings of its own. What a script ends with cannot
depend on the threads that come between its calls any further than the calls bring it something, and no call brings
a binding.
-/

namespace ProductionSystem

/-- Has every result that a script can end with the property, whatever its calls bring? -/
def Script.Ends {R : Type} (P : R → Prop) : Script R → Prop
  | done result => P result
  | look next => ∀ workspace, (next workspace).Ends P
  | register _ next | enqueue _ next | wake next | halt next | write _ next => next.Ends P
  | make _ _ next => ∀ result, (next result).Ends P
  | modify _ _ next => ∀ result, (next result).Ends P

namespace Thread

variable {R : Type} {P : R → Prop} {thread : Thread R}

def Ends (P : R → Prop) : Thread R → Prop
  | between script => script.Ends P
  | making _ _ next | offering _ next => ∀ result, (next result).Ends P
  | waking _ next => next.Ends P

theorem Ends.step (h : thread.Ends P) (lowered : Nat) (workspace : Workspace) :
    (thread.step lowered workspace).1.Ends P := by
  cases thread with
  | between script =>
      cases script with
      | make type overrides next =>
          simp only [Thread.step]
          split
          · exact h _
          · exact h
      | look next => exact h workspace
      | modify ref values next => exact h _
      | done _ | register _ _ | enqueue _ _ | wake _ | halt _ | write _ _ => exact h
  | making template overrides next =>
      simp only [Thread.step]
      split
      · exact h _
      · exact h
  | offering fact next => exact h _
  | waking run next => exact h

theorem Ends.of_result? (h : thread.Ends P) {result : R} (hresult : thread.result? = some result) : P result := by
  cases thread with
  | between script =>
      cases script with
      | done other =>
          obtain rfl := Option.some.inj hresult
          exact h
      | _ => cases hresult
  | _ => cases hresult

end Thread

/-- However the threads come between one another, a built-in command ends with the bindings that it leaves. -/
theorem Builtin.ends_script (builtin : Builtin) (args : List Value) (firing : Firing) :
    (builtin.script args firing).Ends fun ended => ended.2.bindings = boundBy (some builtin) args firing.bindings := by
  have halone (builtin : Builtin) : (builtin.alone args firing).Ends fun ended =>
      ended.2.bindings = boundBy (some builtin) args firing.bindings :=
    Command.Is.bindings_run (.builtin builtin rfl) args ⟨firing, default⟩
  have hkept {builtin : Builtin} (hother : builtin ≠ bind) :
      firing.bindings = boundBy (some builtin) args firing.bindings :=
    (boundBy_of_ne (fun heq => hother (Option.some.inj heq)) args firing.bindings).symm
  unfold script
  split
  · exact hkept nofun
  · split
    · exact fun _ => hkept nofun
    · exact halone make
  · split
    · split
      · exact fun _ => hkept nofun
      · exact halone modify
    · exact halone modify
  · exact hkept nofun
  · exact halone _

/-- How a command is read: a built-in one by its script, and another does nothing but that it may fail. -/
inductive Reading.Is (reading : Reading) : Command → Option Builtin → Prop
  | builtin (builtin : Builtin) (mode : Mode) (h : reading { builtin.command with mode } = builtin.script) :
      Is reading { builtin.command with mode } (some builtin)
  | idle {command : Command} (h : ∀ args firing, ∃ failure?, reading command args firing = .done (failure?, firing)) :
      Is reading command none

theorem Reading.Is.ends {reading : Reading} {command : Command} {kind : Option Builtin} (h : reading.Is command kind)
    (args : List Value) (firing : Firing) :
    (reading command args firing).Ends fun ended =>
      ended.2.bindings = Builtin.boundBy kind args firing.bindings := by
  cases h with
  | builtin builtin mode hscript =>
      rw [hscript]
      exact builtin.ends_script args firing
  | idle hidle =>
      obtain ⟨failure?, hdone⟩ := hidle args firing
      rw [hdone]
      rfl

namespace Action

variable {kind : Command → Option Builtin}

/-- May one action stand in the place of another without a difference to the bindings? They are the same, or neither
binds on the loop. -/
def BindsLike (kind : Command → Option Builtin) (action action' : Action) : Prop :=
  action = action' ∨ ¬action.Binds kind ∧ ¬action'.Binds kind

theorem BindsLike.bound_eq {action action' : Action} (h : action.BindsLike kind action') (bindings : Bindings) :
    action.bound kind bindings = action'.bound kind bindings := by
  rcases h with rfl | ⟨hplain, hplain'⟩
  · rfl
  · rw [bound_of_not_binds hplain, bound_of_not_binds hplain']

theorem foldl_bound_congr {actions actions' : List Action} (h : List.Forall₂ (BindsLike kind) actions actions')
    (count : Nat) (bindings : Bindings) :
    (actions.take count).foldl (bound kind) bindings = (actions'.take count).foldl (bound kind) bindings := by
  induction h generalizing count bindings with
  | nil => rfl
  | cons hhead _ ih =>
      cases count with
      | zero => rfl
      | succ count =>
          rw [List.take_succ_cons, List.take_succ_cons, List.foldl_cons, List.foldl_cons, hhead.bound_eq]
          exact ih count _

end Action

/-- An action, and the firing as the action finds it. -/
structure Passing where
  action : Action
  firing : Firing

namespace Passing

/-- The arguments that the action is passed. -/
def args? (passing : Passing) : Except ErrorKind (List Value) :=
  Param.resolveAll passing.firing.bindings passing.action.params

/-- What the loop does with the arguments. -/
def deed (reading : Reading) (passing : Passing) : Deed :=
  match passing.args?, passing.action.command.mode with
  | .error _, _ => .nothing
  | .ok args, .sync => .running passing.action.command (.between (reading passing.action.command args passing.firing))
  | .ok _, .async => .handingOver

/-- The job that is made of the action. -/
def job? (passing : Passing) : Option Job :=
  match passing.args?, passing.action.command.mode with
  | .ok args, .async => some ⟨passing.action.command, args, { passing.firing with removals := [], onLoop := false }⟩
  | _, _ => none

end Passing

/-- Does what the loop is in the middle of leave the bindings for the actions that follow? -/
def Deed.Leaves (bindings : Bindings) (firing : Firing) : Deed → Prop
  | .running _ thread => thread.Ends fun ended => ended.2.bindings = bindings
  | .nothing | .handingOver | .reporting _ => firing.bindings = bindings

def Turn.isLoop : Turn → Bool
  | loop _ => true
  | _ => false

namespace Ensemble

/-- The action that a turn passes arguments to. -/
def passing? (ensemble : Ensemble) : Turn → Option Passing
  | .loop _ =>
    match ensemble.deed, ensemble.point with
    | .nothing, .act firing (action :: _) => some ⟨action, firing⟩
    | _, _ => none
  | _ => none

/-- The actions that turns pass arguments to. -/
def passings (reading : Reading) (ensemble : Ensemble) : List Turn → List Passing
  | [] => []
  | turn :: turns => (ensemble.passing? turn).toList ++ (ensemble.step reading turn).passings reading turns

/-- In a firing, with the bindings for the actions that are left. -/
def Carries (ensemble : Ensemble) (bindings : Bindings) (actions : List Action) : Prop :=
  ∃ firing, ensemble.point = .act firing actions ∧ ensemble.deed.Leaves bindings firing

/-- A turn that leaves the loop where it is in a firing, and submits no job. -/
structure LeavesLoop (before after : Ensemble) : Prop where
  deed : after.deed = before.deed
  submitted : after.floor.submitted = before.floor.submitted
  point : before.point.isActing = true → after.point = before.point

namespace LeavesLoop

variable {before after : Ensemble}

theorem of_same (hdeed : after.deed = before.deed) (hsubmitted : after.floor.submitted = before.floor.submitted)
    (hpoint : after.point = before.point) : LeavesLoop before after := ⟨hdeed, hsubmitted, fun _ => hpoint⟩

theorem release (ensemble : Ensemble) (index : Nat) : LeavesLoop ensemble (ensemble.release index) := by
  refine release_cases (.of_same rfl rfl rfl) fun running hrunning _ => .of_same rfl ?_ rfl
  simp only [Crew.finish, crew, hrunning]
  rfl

theorem step (ensemble : Ensemble) (reading : Reading) {turn : Turn} (hother : turn.isLoop = false) :
    LeavesLoop ensemble (ensemble.step reading turn) := by
  cases turn with
  | loop found => cases hother
  | take =>
      show LeavesLoop ensemble (ensemble.take reading)
      exact take_cases (.of_same rfl rfl rfl) fun _ _ _ _ _ => .of_same rfl rfl rfl
  | proceed index =>
      show LeavesLoop ensemble (ensemble.proceed index)
      exact proceed_cases (.of_same rfl rfl rfl) (fun _ _ _ => .of_same rfl rfl rfl)
        (fun _ _ _ _ _ => .of_same rfl rfl rfl) fun _ _ _ _ _ _ => .of_same rfl rfl rfl
  | release index => exact .release ensemble index
  | join script => exact .of_same rfl rfl rfl
  | outside index =>
      show LeavesLoop ensemble (ensemble.outside index)
      exact outside_cases (.of_same rfl rfl rfl) fun _ _ => .of_same rfl rfl rfl
  | errand errand =>
      simp only [Ensemble.step]
      split
      · rename_i hpoint
        have hresting : ensemble.point.isActing ≠ true := by rw [hpoint]; exact Bool.false_ne_true
        unfold attend
        split
        · exact ⟨rfl, rfl, fun hacting => absurd hacting hresting⟩
        · exact .of_same rfl rfl rfl
      · exact .of_same rfl rfl rfl
  | begin limit =>
      simp only [Ensemble.step]
      split
      · rename_i hpoint
        have hresting : ensemble.point.isActing ≠ true := by rw [hpoint]; exact Bool.false_ne_true
        exact ⟨rfl, rfl, fun hacting => absurd hacting hresting⟩
      · exact .of_same rfl rfl rfl

end LeavesLoop

variable {ensemble : Ensemble} {reading : Reading} {turn : Turn} {firing : Firing}

theorem passing?_eq_some_iff {passing : Passing} :
    ensemble.passing? turn = some passing ↔ ensemble.deed = .nothing ∧ ∃ found rest,
      turn = .loop found ∧ ensemble.point = .act passing.firing (passing.action :: rest) := by
  obtain ⟨action, firing⟩ := passing
  constructor
  · intro h
    unfold passing? at h
    split at h
    · split at h
      · rename_i hdeed hpoint
        obtain ⟨rfl, rfl⟩ := Passing.mk.inj (Option.some.inj h)
        exact ⟨hdeed, _, _, rfl, hpoint⟩
      · cases h
    · cases h
  · rintro ⟨hdeed, found, rest, rfl, hpoint⟩
    simp only [passing?, hdeed, hpoint]

/-- What the loop does when it passes an action its arguments. -/
theorem act_of_passing {action : Action} {rest : List Action} (hdeed : ensemble.deed = .nothing) :
    (ensemble.act reading firing (action :: rest)).point = .act firing rest ∧
      (ensemble.act reading firing (action :: rest)).deed = Passing.deed reading ⟨action, firing⟩ ∧
      (ensemble.act reading firing (action :: rest)).floor.submitted.map (·.2) =
        ensemble.floor.submitted.map (·.2) ++ (Passing.job? ⟨action, firing⟩).toList := by
  simp only [act, hdeed, Passing.deed, Passing.job?, Passing.args?]
  cases Param.resolveAll firing.bindings action.params with
  | error cause => exact ⟨rfl, rfl, (List.append_nil _).symm⟩
  | ok args =>
      cases action.command.mode with
      | sync => exact ⟨rfl, rfl, (List.append_nil _).symm⟩
      | async => exact ⟨rfl, rfl, List.map_append⟩

/-- In the middle of something the loop submits no job. -/
theorem submitted_act_of_busy {actions : List Action} (hbusy : ensemble.deed ≠ .nothing) :
    (ensemble.act reading firing actions).floor.submitted = ensemble.floor.submitted := by
  refine act_cases ?ends ?unresolved ?runs ?calls ?goes ?fails ?succeeds ?sends ?givesBack ?leaves ?reports
  case ends => exact fun hdeed => absurd hdeed hbusy
  case unresolved | runs => exact fun _ _ _ hdeed => absurd hdeed hbusy
  case calls => exact fun _ _ hdeed => absurd hdeed hbusy
  case goes => exact fun _ _ _ _ => rfl
  case fails => exact fun _ _ _ _ _ => rfl
  case succeeds => exact fun _ _ _ _ => rfl
  case sends =>
    intro _
    obtain ⟨pool, calling, refused, accepted, hsend, _⟩ := ensemble.crew.exists_send_eq 0
    rw [hsend]
    rfl
  case givesBack =>
    intro refusal rest _ hrefused
    simp only [Crew.giveBack, crew, hrefused, List.getElem?_cons_zero]
    rfl
  case leaves => exact fun _ _ _ => rfl
  case reports => exact fun _ _ => rfl

/-- In the middle of something the loop keeps the bindings for the actions that are left. -/
theorem carries_act_of_busy {bindings : Bindings} {actions : List Action}
    (hpoint : ensemble.point = .act firing actions) (hleaves : ensemble.deed.Leaves bindings firing)
    (hbusy : ensemble.deed ≠ .nothing) :
    (ensemble.act reading firing actions).Carries bindings actions := by
  unfold act
  cases hdeed : ensemble.deed with
  | nothing => exact absurd hdeed hbusy
  | running command thread =>
      rw [hdeed] at hleaves
      dsimp only
      split
      · exact ⟨firing, hpoint, hleaves.step _ _⟩
      · rename_i cause after hresult
        have hafter := hleaves.of_result? hresult
        exact ⟨firing, hpoint, hafter⟩
      · rename_i after hresult
        have hafter := hleaves.of_result? hresult
        exact ⟨_, rfl, hafter⟩
  | handingOver =>
      rw [hdeed] at hleaves
      dsimp only
      split
      · exact ⟨firing, hpoint, by rw [show (ensemble.withCrew _).deed = ensemble.deed from rfl, hdeed]; exact hleaves⟩
      · exact ⟨firing, hpoint, hleaves⟩
      · exact ⟨firing, hpoint, hleaves⟩
  | reporting refusal =>
      rw [hdeed] at hleaves
      exact ⟨firing, hpoint, hleaves⟩

/-- What is passed to an action on the way of a job is all that is submitted. -/
theorem submitted_step (ensemble : Ensemble) (reading : Reading) (turn : Turn) :
    (ensemble.step reading turn).floor.submitted.map (·.2) =
      ensemble.floor.submitted.map (·.2) ++ ((ensemble.passing? turn).bind Passing.job?).toList := by
  cases hpassing : ensemble.passing? turn with
  | some passing =>
      obtain ⟨hdeed, found, rest, rfl, hpoint⟩ := passing?_eq_some_iff.1 hpassing
      show (ensemble.loop reading found).floor.submitted.map _ = _
      rw [loop, hpoint]
      exact (act_of_passing hdeed).2.2
  | none =>
      suffices hsame : (ensemble.step reading turn).floor.submitted = ensemble.floor.submitted by
        rw [hsame]
        exact (List.append_nil _).symm
      cases hturn : turn.isLoop with
      | false => exact (LeavesLoop.step ensemble reading hturn).submitted
      | true =>
          cases turn with
          | loop found =>
              show (ensemble.loop reading found).floor.submitted = _
              rcases loop_cases reading ensemble found with
                ⟨firing, actions, hpoint, hloop⟩ | ⟨_, hloop⟩ | ⟨_, hloop, _⟩
              · rw [hloop]
                by_cases hdeed : ensemble.deed = .nothing
                · cases actions with
                  | nil => simp only [act, hdeed]
                  | cons action rest =>
                      have hpasses : ensemble.passing? (.loop found) = some ⟨action, firing⟩ :=
                        passing?_eq_some_iff.2 ⟨hdeed, found, rest, rfl, hpoint⟩
                      rw [hpasses] at hpassing
                      cases hpassing
                · exact submitted_act_of_busy hdeed
              · rw [hloop]
                cases found <;> rfl
              · rw [hloop]
                rfl
          | _ => cases hturn

/-- An action is passed arguments under the bindings for it, and then the loop carries those it leaves. -/
theorem Carries.pass {kind : Command → Option Builtin} {bindings : Bindings} {actions : List Action}
    (h : ensemble.Carries bindings actions) {passing : Passing} (hpassing : ensemble.passing? turn = some passing)
    (hread : ∀ action ∈ actions, reading.Is action.command (kind action.command)) :
    ∃ rest, actions = passing.action :: rest ∧ passing.firing.bindings = bindings ∧
      (ensemble.step reading turn).Carries (passing.action.bound kind bindings) rest := by
  obtain ⟨hdeed, found, rest, rfl, hpoint⟩ := passing?_eq_some_iff.1 hpassing
  obtain ⟨action, firing⟩ := passing
  obtain ⟨firing', hpoint', hleaves⟩ := h
  obtain ⟨rfl, rfl⟩ := Point.act.inj (hpoint.symm.trans hpoint')
  rw [hdeed] at hleaves
  obtain rfl : firing.bindings = bindings := hleaves
  refine ⟨rest, rfl, rfl, ?_⟩
  have hstep : ensemble.step reading (.loop found) = ensemble.act reading firing (action :: rest) := by
    rw [step, loop, hpoint]
  obtain ⟨hnext, hgoing, -⟩ : (ensemble.act reading firing (action :: rest)).point = .act firing rest ∧ _ ∧ _ :=
    act_of_passing hdeed
  rw [hstep]
  refine ⟨firing, hnext, ?_⟩
  rw [hgoing, Passing.deed, Passing.args?]
  cases hargs : Param.resolveAll firing.bindings action.params with
  | error cause => exact (Action.bound_of_error hargs).symm
  | ok args =>
      cases hmode : action.command.mode with
      | sync =>
          rw [Action.bound_of_sync hmode hargs]
          exact (hread action List.mem_cons_self).ends args firing
      | async => exact (Action.bound_of_async hmode).symm

/-- Between two passings the bindings for the actions that are left stay as they are. -/
theorem Carries.stay {bindings : Bindings} {actions : List Action} (h : ensemble.Carries bindings actions)
    (hpassing : ensemble.passing? turn = none) (hleft : actions ≠ []) :
    (ensemble.step reading turn).Carries bindings actions := by
  obtain ⟨firing, hpoint, hleaves⟩ := h
  cases hturn : turn.isLoop with
  | false =>
      have hkept := LeavesLoop.step ensemble reading hturn
      exact ⟨firing, (hkept.point (by rw [hpoint]; rfl)).trans hpoint, by rw [hkept.deed]; exact hleaves⟩
  | true =>
      cases turn with
      | loop found =>
          have hstep : ensemble.step reading (.loop found) = ensemble.act reading firing actions := by
            rw [step, loop, hpoint]
          rw [hstep]
          refine carries_act_of_busy hpoint hleaves fun hdeed => ?_
          obtain ⟨action, rest, rfl⟩ := List.exists_cons_of_ne_nil hleft
          have hpasses : ensemble.passing? (.loop found) = some ⟨action, firing⟩ :=
            passing?_eq_some_iff.2 ⟨hdeed, found, rest, rfl, hpoint⟩
          rw [hpasses] at hpassing
          cases hpassing
      | _ => cases hturn

/-- The course of a firing: each action is passed arguments under the bindings that the match and the actions before it
leave, and until the last one is, the loop carries the bindings for the rest. -/
theorem Carries.run {kind : Command → Option Builtin} {bindings : Bindings} {actions : List Action}
    (h : ensemble.Carries bindings actions)
    (hread : ∀ action ∈ actions, reading.Is action.command (kind action.command)) (turns : List Turn) :
    let passings := ensemble.passings reading turns
    let before (count : Nat) := (actions.take count).foldl (Action.bound kind) bindings
    (∀ i (hi : i < actions.length) passing, passings[i]? = some passing →
        passing.action = actions[i] ∧ passing.firing.bindings = before i) ∧
      (passings.length < actions.length →
        (ensemble.run reading turns).Carries (before passings.length) (actions.drop passings.length)) := by
  induction turns generalizing ensemble bindings actions with
  | nil => exact ⟨fun _ _ _ hnone => (nomatch hnone), fun _ => h⟩
  | cons turn turns ih =>
      intro passings before
      cases hpassing : ensemble.passing? turn with
      | some passing =>
          obtain ⟨rest, rfl, hbindings, hnext⟩ := h.pass hpassing hread
          obtain ⟨hlater, hleft⟩ := ih hnext fun action haction => hread action (List.mem_cons_of_mem _ haction)
          have hpassings : passings = passing :: (ensemble.step reading turn).passings reading turns := by
            simp only [passings, Ensemble.passings, hpassing]
            rfl
          rw [hpassings]
          refine ⟨fun i hi other hother => ?_, fun hfew => hleft (Nat.lt_of_succ_lt_succ hfew)⟩
          cases i with
          | zero =>
              obtain rfl := Option.some.inj hother
              exact ⟨rfl, hbindings⟩
          | succ i => exact hlater i (Nat.lt_of_succ_lt_succ hi) other hother
      | none =>
          have hpassings : passings = (ensemble.step reading turn).passings reading turns := by
            simp only [passings, Ensemble.passings, hpassing]
            rfl
          rw [hpassings]
          by_cases hleft : actions = []
          · subst hleft
            exact ⟨fun i hi => absurd hi (Nat.not_lt_zero i), fun hfew => absurd hfew (Nat.not_lt_zero _)⟩
          · exact ih (h.stay hpassing hleft) hread

theorem submitted_run (ensemble : Ensemble) (reading : Reading) (turns : List Turn) :
    (ensemble.run reading turns).floor.submitted.map (·.2) =
      ensemble.floor.submitted.map (·.2) ++ (ensemble.passings reading turns).filterMap Passing.job? := by
  induction turns generalizing ensemble with
  | nil => exact (List.append_nil _).symm
  | cons turn turns ih =>
      have hlater := ih (ensemble.step reading turn)
      rw [submitted_step, List.append_assoc] at hlater
      refine hlater.trans (congrArg _ ?_)
      rw [passings, List.filterMap_append, Machine.filterMap_toList]

/-- A worker never has another job in hand than one that was submitted, as it was submitted. -/
theorem InOrder.entry_mem_submitted (h : ensemble.InOrder) {running : Running Job Progress}
    (hrunning : running ∈ ensemble.begun) : running.entry ∈ ensemble.floor.submitted := by
  refine h.accounts.submitted.mem_iff.1 ?_
  rcases List.mem_append.1 hrunning with hrunning | hover
  · refine List.mem_append_left _ (List.mem_append_right _ (List.mem_append_right _ ?_))
    exact List.mem_map_of_mem hrunning
  · obtain ⟨entry, hentry, rfl⟩ := List.mem_map.1 hover
    exact List.mem_append_right _ (List.mem_append_right _ (List.mem_map_of_mem hentry))

/-- A loop that fires a rule carries the bindings of the match. -/
theorem carries_fire (h : ensemble.InOrder) (hpoint : ensemble.point = .matching) (found : Match) :
    (ensemble.step reading (.loop (some found))).Carries found.bindings found.source.rule.actions := by
  have hstep : ensemble.step reading (.loop (some found)) = ensemble.choose (some found) := by
    rw [step, loop, hpoint]
  have hdeed : ensemble.deed = .nothing := h.deed (by rw [hpoint]; rfl)
  rw [hstep]
  refine ⟨_, rfl, ?_⟩
  show ensemble.deed.Leaves _ _
  rw [hdeed]
  rfl

/-- **Bindings are isolated.** A rule is fired whose commands are built in, on the loop or with the workers, or do
nothing. From then on the loop, workers and others take turns in any order. Then

* the arguments of each action are what its parameters stand for under the bindings of the match, updated by the
  actions before it that bind on the loop, in their order; a job that is made of it has those arguments, and those
  bindings;
* until all actions have been passed their arguments, the firing goes on with the rest, and what the loop does with the
  arguments is to run the command or to hand the job over;
* the jobs that are submitted are those that are made of actions, and a worker goes by the command, the arguments and
  the bindings that its job was submitted with, whenever it does the job;
* in any other firing with the same bindings, of an engine with whatever past and with whatever turns, whose actions
  differ only in ones that do not bind on the loop, equal actions are passed equal arguments. -/
theorem bindings_are_isolated {reading : Reading} {kind : Command → Option Builtin} (config : Config) (past : List Turn)
    (hpoint : ((new config).run reading past).point = .matching) (found : Match)
    (hread : ∀ action ∈ found.source.rule.actions, reading.Is action.command (kind action.command))
    (turns : List Turn) :
    let actions := found.source.rule.actions
    let start := ((new config).run reading past).step reading (.loop (some found))
    let last := start.run reading turns
    let passings := start.passings reading turns
    let before (count : Nat) := (actions.take count).foldl (Action.bound kind) found.bindings
    (∀ i (hi : i < actions.length) passing, passings[i]? = some passing →
        passing.action = actions[i] ∧ passing.args? = Param.resolveAll (before i) actions[i].params ∧
          ∀ job, passing.job? = some job →
            job.command = actions[i].command ∧ passing.args? = .ok job.args ∧ job.firing.bindings = before i) ∧
      ((passings.length < actions.length → ∃ firing, last.point = .act firing (actions.drop passings.length)) ∧
        ∀ first turn rest, turns = first ++ turn :: rest → ∀ passing,
          (start.run reading first).passing? turn = some passing →
            ((start.run reading first).step reading turn).deed = passing.deed reading) ∧
      (last.floor.submitted.map (·.2) = start.floor.submitted.map (·.2) ++ passings.filterMap Passing.job? ∧
        ∀ running ∈ last.begun, running.entry ∈ last.floor.submitted ∧
          Thread.Follows (reading running.job.command running.job.args running.job.firing) running.progress.made
            running.progress.thread) ∧
      ∀ (config' : Config) (past' : List Turn) (found' : Match) (turns' : List Turn),
        ((new config').run reading past').point = .matching →
        (∀ action ∈ found'.source.rule.actions, reading.Is action.command (kind action.command)) →
        found'.bindings = found.bindings →
        List.Forall₂ (Action.BindsLike kind) actions found'.source.rule.actions →
        let start' := ((new config').run reading past').step reading (.loop (some found'))
        ∀ i passing passing', i < actions.length → passings[i]? = some passing →
          (start'.passings reading turns')[i]? = some passing' → passing'.action = passing.action →
            passing'.args? = passing.args? := by
  intro actions start last passings before
  have horder : ((new config).run reading past).InOrder := (InOrder.new config).run past
  have hcarries : start.Carries found.bindings actions := carries_fire horder hpoint found
  obtain ⟨hpassed, hleft⟩ := hcarries.run hread turns
  have hlast : last = (new config).run reading (past ++ .loop (some found) :: turns) := by
    rw [run_append]
    rfl
  refine ⟨fun i hi passing hpassing => ?_, ⟨fun hfew => ?_, ?_⟩, ⟨start.submitted_run reading turns, ?_⟩, ?_⟩
  · obtain ⟨haction, hbindings⟩ := hpassed i hi passing hpassing
    refine ⟨haction, by rw [Passing.args?, hbindings, haction], fun job hjob => ?_⟩
    unfold Passing.job? at hjob
    split at hjob
    · rename_i args hargs _
      obtain rfl := Option.some.inj hjob
      exact ⟨congrArg Action.command haction, hargs, hbindings⟩
    · cases hjob
  · obtain ⟨firing, hacting, -⟩ := hleft hfew
    exact ⟨firing, hacting⟩
  · rintro first turn rest - passing hpassing
    obtain ⟨hdeed, found', others, rfl, hacting⟩ := passing?_eq_some_iff.1 hpassing
    have hstep : (start.run reading first).step reading (.loop found') =
        (start.run reading first).act reading passing.firing (passing.action :: others) := by
      rw [step, loop, hacting]
    rw [hstep]
    exact (act_of_passing hdeed).2.1
  · intro running hrunning
    rw [hlast] at hrunning ⊢
    exact ⟨((InOrder.new config).run _).entry_mem_submitted hrunning, Followed.run config _ running hrunning⟩
  · intro config' past' found' turns' hpoint' hread' hsame halike start' i passing passing' hi hpassing hpassing'
      haction
    have hcarries' : start'.Carries found'.bindings found'.source.rule.actions :=
      carries_fire ((InOrder.new config').run past') hpoint' found'
    obtain ⟨-, hbindings⟩ := hpassed i hi passing hpassing
    obtain ⟨-, hbindings'⟩ := (hcarries'.run hread' turns').1 i (halike.length_eq ▸ hi) passing' hpassing'
    have hbefore := Action.foldl_bound_congr halike i found.bindings
    rw [Passing.args?, Passing.args?, haction, hbindings, hbindings', hsame]
    exact congrArg (Param.resolveAll · passing.action.params) hbefore.symm

/-- A part with a size is made from outside, and a run begins. -/
def partSized : List Turn := [
  .join (.register ⟨"part", [("size", .nil)]⟩ (.make "part" [("size", .int 3)] fun _ => .done ())),
  .outside 0, .outside 0, .outside 0, .outside 0, .begin none, .loop none, .loop none]

def writing : Action := ⟨Builtin.write.command, [.variable "$size", .variable "$half"]⟩

/-- A rule that binds what it writes. The worker gets to bind and to write when the loop has gone on. -/
def halving (first third : Action) : Match where
  source := ⟨0,
    { name := "halve"
      conditions := [⟨"part", [("size", .variable "$size")]⟩]
      actions := [
        first,
        ⟨Builtin.bind.command, [.literal (.str "$half"), .variable "$size"]⟩,
        third,
        { writing with command := { writing.command with mode := .async } },
        ⟨Builtin.bind.command, [.literal (.str "$half"), .literal (.int 1)]⟩,
        writing] }⟩
  facts := [⟨0⟩]
  bindings := Dictionary.empty.insert "$size" (.int 3)

/-- The worker binds the size, and the loop changes it. -/
def meddling : Match :=
  halving ⟨{ Builtin.bind.command with mode := .async }, [.literal (.str "$size"), .literal (.int 9)]⟩
    ⟨Builtin.modify.command, [.literal (.int 0), .literal (.str "size"), .literal (.int 7)]⟩

def nothing : Command := ⟨"nothing", .sync, fun _ session => (.ok (), session)⟩

/-- The same rule without that. -/
def resting : Match := halving ⟨nothing, []⟩ ⟨nothing, []⟩

def halvingTurns : List Turn := List.flatten (List.replicate 16 [.loop none, .take, .proceed 0, .release 0])

theorem bindings_are_isolated_halving :
    let idle := (new .sequential).run Builtin.reading partSized
    let passings (found : Match) :=
      (idle.step Builtin.reading (.loop (some found))).passings Builtin.reading halvingTurns
    idle.point = .matching ∧
      (passings meddling).map (fun passing => passing.args?.toOption) = [
        some [.str "$size", .int 9], some [.str "$half", .int 3], some [.int 0, .str "size", .int 7],
        some [.int 3, .int 3], some [.str "$half", .int 1], some [.int 3, .int 1]] ∧
      ∀ i passing passing', i < 6 → (passings meddling)[i]? = some passing → (passings resting)[i]? = some passing' →
        passing'.action = passing.action → passing'.args? = passing.args? := by
  intro idle passings
  have hpoint : idle.point = .matching := rfl
  have hbuiltin (builtin : Builtin) (mode : Mode) :
      Builtin.reading.Is { builtin.command with mode } (Machine.builtinOf? { builtin.command with mode }) := by
    rw [Machine.builtinOf?_command]
    exact .builtin builtin mode (Builtin.reading_command builtin mode)
  have hnothing : Builtin.reading.Is nothing (Machine.builtinOf? nothing) := .idle fun _ _ => ⟨none, rfl⟩
  have hshared {first third : Action} (hfirst : Builtin.reading.Is first.command (Machine.builtinOf? first.command))
      (hthird : Builtin.reading.Is third.command (Machine.builtinOf? third.command)) :
      ∀ action ∈ (halving first third).source.rule.actions,
        Builtin.reading.Is action.command (Machine.builtinOf? action.command) := by
    simp only [halving, List.forall_mem_cons]
    exact ⟨hfirst, hbuiltin .bind .sync, hthird, hbuiltin .write .async, hbuiltin .bind .sync, hbuiltin .write .sync,
      nofun⟩
  have hread : ∀ action ∈ meddling.source.rule.actions,
      Builtin.reading.Is action.command (Machine.builtinOf? action.command) :=
    hshared (hbuiltin .bind .async) (hbuiltin .modify .sync)
  refine ⟨hpoint, by decide +kernel, ?_⟩
  refine (bindings_are_isolated .sequential partSized hpoint meddling hread halvingTurns).2.2.2 .sequential partSized
    resting halvingTurns hpoint (hshared hnothing hnothing) rfl ?_
  exact .cons (.inr ⟨nofun, nofun⟩) (.cons (.inl rfl) (.cons (.inr ⟨nofun, nofun⟩)
    (.cons (.inl rfl) (.cons (.inl rfl) (.cons (.inl rfl) .nil)))))

end Ensemble

end ProductionSystem
