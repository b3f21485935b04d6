import ProductionSystem.Proofs.EngineActs
import ProductionSystem.Proofs.PastEngines

/-!
All that is done with an engine with a past, act by act. Every act that is about nothing of the past is answered as
without it, up to the constants that the past has added to ids, epochs and numbers.
-/

namespace ProductionSystem

variable (past : Past)

def Point.after : Point → Point
  | .act firing actions => .act (firing.after past) actions
  | .lookForFacts seen => .lookForFacts (seen + past.epoch)
  | .lookForHalt seen => .lookForHalt (seen + past.epoch)
  | .countTickets seen => .countTickets (seen + past.epoch)
  | .wait seen => .wait (seen + past.epoch)
  | .listen seen => .listen (seen + past.epoch)
  | point => point

def Machine.after (machine : Machine) : Machine :=
  { machine with
    engine := machine.engine.after past
    point := machine.point.after past
    taken := machine.taken.map (Ticket.afterJob past)
    spent := machine.spent.map (Ticket.after past) }

def Sight.after (sight : Sight) : Sight :=
  { sight with
    rules := sight.rules.map (RuleInstance.after past)
    lastFired := sight.lastFired.map (RuleInstance.after past)
    tickets := sight.tickets.map (Ticket.after past)
    epoch := sight.epoch + past.epoch
    lines := past.lines ++ sight.lines }

def Act.after : Act → Act
  | .memory operation => .memory (operation.after past)
  | .search rule budget seen => .search rule budget (seen.after past)
  | .fact ref => .fact (ref.after past)
  | act => act

def Reply.after : Reply → Reply
  | .answer given => .answer (given.after past)
  | .snapshot shown => .snapshot (shown.after past)
  | .found finding? => .found (finding?.map (Finding.after past))
  | .sight shown => .sight (shown.after past)
  | .facts refs => .facts (refs.map (FactRef.after past))
  | .fact fact? => .fact (fact?.map (Fact.after past))
  | reply => reply

namespace Machine

variable (machine : Machine)

theorem rests_after : (machine.after past).rests = machine.rests := by
  obtain ⟨engine, point, limit, fired, taken, spent⟩ := machine
  cases point <;> rfl

theorem returned_after : (machine.after past).returned = machine.returned := by
  obtain ⟨engine, point, limit, fired, taken, spent⟩ := machine
  cases point <;> rfl

/-- Are all commands that can come to run such that the past is nothing to them? -/
def Oblivious : Prop := ∀ command ∈ machine.commands, command.Oblivious

variable {machine}

theorem loop_after (h : machine.Oblivious) (hidle : ∀ pool ∈ machine.engine.matchers, pool.queue = []) :
    (machine.after past).loop = machine.loop.after past := by
  obtain ⟨engine, point, limit, fired, taken, spent⟩ := machine
  have hpending : (engine.after past).store.hasPending = engine.store.hasPending := engine.store.hasPending_after past
  have hhalted : (engine.after past).workspace.halted = engine.workspace.halted := rfl
  have houtstanding : (engine.after past).outstanding = engine.outstanding := engine.outstanding_after past
  cases point with
  | between last => rfl
  | start =>
      show (if engine.workspace.halted then _ else if limit.any (· ≤ fired) then _ else _) = _
      simp only [Machine.loop]
      split
      · rfl
      · split <;> rfl
  | drain => exact congrArg (Machine.mk · .matching limit fired _ _) (engine.drain_after past)
  | matching =>
      simp only [Machine.loop, after, Point.after, engine.choose_after past hidle]
      cases engine.choose <;> rfl
  | act firing actions =>
      cases actions with
      | nil => rfl
      | cons action actions =>
          have haction : action.command.Oblivious :=
            h _ (mem_commands_iff.2 (.inr (.inl List.mem_cons_self)))
          exact congrArg (fun next : Firing × Engine => Machine.mk next.2 (.act next.1 actions) limit fired _ _)
            (engine.dispatch_after past haction firing)
  | readEpoch => rfl
  | lookForFacts seen =>
      simp only [Machine.loop, after, Point.after, hpending]
      split <;> rfl
  | lookForHalt seen | lookForHaltAgain =>
      simp only [Machine.loop, after, Point.after, hhalted]
      split <;> rfl
  | countTickets seen =>
      have htimeout : (engine.after past).config.idleTimeout = engine.config.idleTimeout := rfl
      simp only [Machine.loop, after, Point.after, houtstanding, htimeout]
      split
      · rfl
      · cases engine.config.idleTimeout <;> rfl
  | wait seen =>
      have hquiet : (engine.after past).store.quietSince (seen + past.epoch) = engine.store.quietSince seen :=
        engine.store.quietSince_after past seen
      simp only [Machine.loop, after, Point.after, hquiet, engine.drain_after past]
      split <;> rfl
  | listen seen =>
      simp only [Machine.loop, after, Point.after, hpending, engine.drain_after past]
      split <;> rfl
  | countTicketsAgain =>
      simp only [Machine.loop, after, Point.after, houtstanding]
      split <;> rfl
  | close outcome =>
      cases outcome with
      | stepLimit => rfl
      | halted | quiescent =>
          simp only [Machine.loop, after, Point.after, houtstanding]
          split <;> rfl

theorem take_after : (machine.after past).take = machine.take.after past := by
  obtain ⟨⟨config, matchers, ⟨⟨workers, accepting, queue⟩, tickets, issued⟩, workspace, rules, added, state, lastFired,
    firings, failures⟩, point, limit, fired, taken, spent⟩ := machine
  cases queue with
  | nil => rfl
  | cons job queue =>
      have htaken : taken.map (Ticket.afterJob past) ++ [Ticket.afterJob past job] =
          (taken ++ [job]).map (Ticket.afterJob past) := by
        rw [List.map_append, List.map_singleton]
      exact congrArg (fun taken => Machine.mk _ _ limit fired taken _) htaken

theorem perform_after (h : machine.Oblivious) (index : Nat) :
    (machine.after past).perform index = (machine.perform index).after past := by
  have hjob : (machine.after past).taken[index]? = (machine.taken[index]?).map (Ticket.afterJob past) :=
    List.getElem?_map
  unfold perform
  rw [hjob]
  cases htaken : machine.taken[index]? with
  | none => rfl
  | some job =>
      have hcommand : job.2.command.Oblivious :=
        h _ (mem_commands_iff.2 (.inr (.inr ⟨job, List.mem_of_getElem? htaken, rfl⟩)))
      have hexec : (machine.engine.after past).exec job.2.command job.2.args (job.2.firing.after past) = _ :=
        machine.engine.exec_after past hcommand job.2.args job.2.firing
      have htaken : (machine.taken.map (Ticket.afterJob past)).eraseIdx index =
          (machine.taken.eraseIdx index).map (Ticket.afterJob past) := List.eraseIdx_map ..
      have hspent : machine.spent.map (Ticket.after past) ++ [job.1.after past] =
          (machine.spent ++ [job.1]).map (Ticket.after past) := by
        rw [List.map_append, List.map_singleton]
      exact congr (congr (congrArg (fun result : Firing × Engine =>
        Machine.mk result.2 _ machine.limit machine.fired) hexec) htaken) hspent

theorem release_after (index : Nat) : (machine.after past).release index = (machine.release index).after past := by
  have hticket : (machine.after past).spent[index]? = (machine.spent[index]?).map (Ticket.after past) :=
    List.getElem?_map
  unfold release
  rw [hticket]
  cases machine.spent[index]? with
  | none => rfl
  | some ticket =>
      have hrelease := machine.engine.executor.release_after past machine.engine.store ticket
      have hspent : (machine.spent.map (Ticket.after past)).eraseIdx index =
          (machine.spent.eraseIdx index).map (Ticket.after past) := List.eraseIdx_map ..
      exact congr (congrArg (fun result : Executor Job × Store =>
        Machine.mk { (machine.engine.after past).withStore result.2 with executor := result.1 } _ machine.limit
          machine.fired _) hrelease) hspent

theorem report_after (h : machine.Oblivious) (hidle : ∀ pool ∈ machine.engine.matchers, pool.queue = []) :
    (machine.after past).report = machine.report.after past := by
  have hfired : (machine.after past).fired = machine.fired := rfl
  have hreturned : (machine.after past).loop.returned = machine.loop.returned := by
    rw [loop_after past h hidle, returned_after]
  simp only [report, rests_after, hfired, hreturned]
  split <;> rfl

theorem sight_after (engine : Engine) : (engine.after past).sight = engine.sight.after past := by
  have hsize : (engine.after past).store.size = engine.store.size := engine.store.size_after past
  have hpending : (engine.after past).store.pending.length = engine.store.pending.length := List.length_map _
  simp only [Engine.sight, hsize, hpending]
  rfl

theorem grant_after (h : machine.Oblivious) (hidle : ∀ pool ∈ machine.engine.matchers, pool.queue = []) (act : Act) :
    (machine.after past).grant (act.after past) =
      ((machine.grant act).1.after past, (machine.grant act).2.after past) := by
  have done {next next' : Machine} (h : next = next') : (Reply.done, next) = (Reply.done, next') :=
    congrArg (Reply.done, ·) h
  have equip {engine engine' : Engine} (h : engine = engine') :
      (machine.after past).withEngine engine = (machine.after past).withEngine engine' :=
    congrArg (machine.after past).withEngine h
  cases act with
  | addRules rules => exact done (equip (machine.engine.addRules_after past rules))
  | load registry source =>
      exact congrArg (Prod.map Reply.loaded (machine.after past).withEngine)
        ((Engine.loadMap_after past).load machine.engine registry source)
  | memory operation =>
      exact congrArg
        (Prod.map Reply.answer fun session =>
          (machine.after past).withEngine ((machine.after past).engine.withStore session.store))
        (Session.step_after past { store := machine.engine.store } operation)
  | snapshot => rfl
  | search rule budget seen =>
      have hview : (machine.after past).engine.store.view (seen.after past) =
          View.after past (machine.engine.store.view seen) := machine.engine.store.view_after past seen
      have hsearch := rule.search_after past budget (machine.engine.store.view seen)
      rw [← hview] at hsearch
      exact congrArg (fun result : Search.Result => (Reply.found result.finding?, machine.after past)) hsearch
  | look => exact Prod.ext (congrArg Reply.sight (sight_after past machine.engine)) rfl
  | template type => rfl
  | get type => exact Prod.ext (congrArg Reply.facts (machine.engine.store.get_after past type)) rfl
  | fact ref => exact Prod.ext (congrArg Reply.fact (machine.engine.store.fact?_after past ref)) rfl
  | begin limit =>
      obtain ⟨engine, point, _, fired, taken, spent⟩ := machine
      cases point <;> rfl
  | reset =>
      have hreset := machine.engine.reset_after past fun job hjob =>
        h _ (mem_commands_iff.2 (.inl (Engine.mem_commands_of_job hjob)))
      have houtstanding : (machine.after past).engine.outstanding = machine.engine.outstanding :=
        machine.engine.outstanding_after past
      show (if (machine.after past).engine.outstanding = 0 then
        (Reply.done, Machine.mk (machine.engine.after past).reset _ _ _ _ _) else _) = _
      simp only [houtstanding, grant, hreset]
      split <;> rfl
  | dismiss =>
      obtain ⟨engine, point, limit, fired, taken, spent⟩ := machine
      cases point <;> rfl
  | halt => exact done (equip (machine.engine.halt_after past))
  | lower => rfl
  | loop => exact Prod.ext (report_after past h hidle) (loop_after past h hidle)
  | take => exact done (machine.take_after past)
  | perform index => exact done (perform_after past h index)
  | release index => exact done (machine.release_after past index)

theorem act_after (h : machine.Oblivious) (hidle : ∀ pool ∈ machine.engine.matchers, pool.queue = []) (act : Act) :
    (machine.after past).act (act.after past) = ((machine.act act).1.after past, (machine.act act).2.after past) := by
  have howner : (act.after past).isForOwner = act.isForOwner := by
    cases act with
    | memory operation => cases operation <;> rfl
    | _ => rfl
  simp only [Machine.act, howner, rests_after, grant_after past h hidle]
  split <;> rfl

/-- **The past does not show.** Whatever is done with a machine with a past is answered as without it, up to the
constants that the past has added. -/
theorem acts_after {config : Config} (h : machine.Oblivious) (hsound : machine.Sound config) {acts : List Act}
    (hacts : ∀ act ∈ acts, ∀ command, act.Brings command → command.Oblivious) :
    (machine.after past).acts (acts.map (Act.after past)) =
      ((machine.acts acts).1.map (Reply.after past), (machine.acts acts).2.after past) := by
  induction acts generalizing machine with
  | nil => rfl
  | cons act acts ih =>
      obtain ⟨hact, hrest⟩ := List.forall_mem_cons.1 hacts
      have hnext : (machine.act act).2.Oblivious :=
        fun command hcommand => (of_mem_commands_act hcommand).elim (h command) (hact command)
      simp only [List.map_cons, Machine.acts, act_after past h hsound.idle act, ih hnext (hsound.act act) hrest]

end Machine

section Since

/-- An act, as it is called without the past. -/
def Act.before : Act → Act
  | .memory operation => .memory (operation.before past)
  | .search rule budget seen => .search rule budget (seen.before past)
  | .fact ref => .fact (ref.before past)
  | act => act

/-- Is an act about no fact and no snapshot of the past? -/
def Act.IsSince : Act → Prop
  | memory operation => operation.IsSince past
  | search _ _ seen => seen.IsSince past
  | fact ref => ref.IsSince past
  | _ => True

variable {past}

theorem Act.after_before {act : Act} (h : act.IsSince past) : (act.before past).after past = act := by
  cases act with
  | memory operation => exact congrArg Act.memory (Operation.after_before h)
  | search rule budget seen => exact congrArg (Act.search rule budget) (Snapshot.after_before h)
  | fact ref => exact congrArg Act.fact (FactRef.after_before h)
  | _ => rfl

theorem Act.brings_before {act : Act} {command : Command} : (act.before past).Brings command ↔ act.Brings command := by
  cases act <;> exact Iff.rfl

/-- An act that is about nothing of the past is answered like the same act in a machine without it. -/
theorem Machine.acts_before {config : Config} {machine : Machine} (h : machine.Oblivious)
    (hsound : machine.Sound config) {acts : List Act} (hsince : ∀ act ∈ acts, act.IsSince past)
    (hacts : ∀ act ∈ acts, ∀ command, act.Brings command → command.Oblivious) :
    (machine.after past).acts acts =
      let twin := machine.acts (acts.map (Act.before past))
      (twin.1.map (Reply.after past), twin.2.after past) := by
  have hbefore : (acts.map (Act.before past)).map (Act.after past) = acts := by
    rw [List.map_map]
    exact (List.map_congr_left fun act hact => Act.after_before (hsince act hact)).trans (List.map_id' acts)
  have htwins : ∀ twin ∈ acts.map (Act.before past), ∀ command, twin.Brings command → command.Oblivious :=
    List.forall_mem_map.2 fun act hact command hbrings => hacts act hact command (Act.brings_before.1 hbrings)
  have hafter := acts_after past h hsound htwins
  rw [hbefore] at hafter
  exact hafter

end Since

end ProductionSystem
