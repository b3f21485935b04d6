import ProductionSystem.Proofs.FixedPoint
import ProductionSystem.Proofs.LeastSolutions
import ProductionSystem.Proofs.Scoping

/-!
Rules that consume. Count the facts that are live or wait to become live. Only a make adds to them, and the removal of a
live fact takes one away. A rule that makes nothing, and that is sure to remove one of the facts that it matches, fires
no more often than there are facts; and where no fact is left it does not match. So a run of such rules comes to its
end, whatever else their actions do.
-/

namespace ProductionSystem

/-- How many facts are live is told by the lists of the types. -/
theorem LiveIndex.count_congr {live other : LiveIndex} (h : ∀ type, live.of type = other.of type) :
    live.count = other.count := by
  let filled (index : LiveIndex) := index.entries.filter fun entry => !entry.2.isEmpty
  have hmem (index : LiveIndex) (entry : String × List FactRef) :
      entry ∈ filled index ↔ index.of entry.1 = entry.2 ∧ entry.2 ≠ [] := by
    rw [List.mem_filter, ← Dictionary.get?_eq_some_iff_mem index.ordered, of, Dictionary.get?]
    cases Slots.get? entry.1 index.entries with
    | none =>
        refine iff_of_false ?_ fun h => h.2 h.1.symm
        rintro ⟨⟨⟩, -⟩
    | some refs => simp
  have hfilled : filled live = filled other := by
    refine Dictionary.eq_of_mem_iff (live.ordered.filter _) (other.ordered.filter _) fun entry => ?_
    rw [hmem, hmem, h]
  have hflat (entries : List (String × List FactRef)) :
      (entries.filter fun entry => !entry.2.isEmpty).flatMap (·.2) = entries.flatMap (·.2) := by
    induction entries with
    | nil => rfl
    | cons entry entries ih =>
        rw [List.filter_cons, List.flatMap_cons, ← ih]
        cases hrefs : entry.2 with
        | nil => rfl
        | cons ref refs => rw [if_pos (by rfl), List.flatMap_cons, hrefs]
  rw [count, count, ← hflat live.entries, ← hflat other.entries]
  exact congrArg (fun entries : List (String × List FactRef) => (entries.flatMap (·.2)).length) hfilled

namespace Store

variable {store after : Store} {ref : FactRef}

/-- How many facts are live or wait to become live. -/
def stock (store : Store) : Nat := store.size + store.pending.length

/-- Is the fact among the live ones of its type? -/
def Lives (store : Store) (ref : FactRef) : Prop := ∃ fact, store.fact? ref = some fact ∧ ref ∈ store.get fact.type

theorem stock_drain_le (store : Store) : store.drain.stock ≤ store.stock := by
  have hcount (live : LiveIndex) (refs : List FactRef) :
      LiveIndex.count (refs.foldl store.enliven live) ≤ live.count + refs.length := by
    induction refs generalizing live with
    | nil => exact Nat.le_refl _
    | cons ref refs ih =>
        have hone : (store.enliven live ref).count ≤ live.count + 1 := by
          unfold enliven
          split
          · exact Nat.le_of_eq (LiveIndex.count_add ..)
          · exact Nat.le_succ _
        have hrest := ih (store.enliven live ref)
        rw [List.foldl_cons, List.length_cons]
        omega
  exact hcount store.live store.pending

/-- A removal that finds a live fact of the type and the id takes one away. -/
theorem stock_remove_lt_of_any {fact : Fact} (hfact : store.fact? ref = some fact)
    (hany : (store.get fact.type).any (store.hasId fact.id) = true) : (store.remove ref).2.stock < store.stock := by
  let peers := store.live.of fact.type
  have hcount : LiveIndex.count (store.live.insert fact.type (peers.eraseP (store.hasId fact.id))) + peers.length =
      store.live.count + (peers.eraseP (store.hasId fact.id)).length := store.live.count_insert _ _
  have hlength : (peers.eraseP (store.hasId fact.id)).length = peers.length - 1 := by
    rw [List.length_eraseP]
    exact if_pos hany
  have hpositive : 0 < peers.length := by
    obtain ⟨other, hother, -⟩ := List.any_eq_true.1 hany
    exact List.length_pos_of_mem hother
  have hless : LiveIndex.count (store.live.insert fact.type (peers.eraseP (store.hasId fact.id))) <
      store.live.count := by omega
  simp only [remove, hfact, if_pos hany]
  exact Nat.add_lt_add_right hless store.pending.length

theorem stock_remove_lt (h : store.Lives ref) : (store.remove ref).2.stock < store.stock := by
  obtain ⟨fact, hfact, hlive⟩ := h
  refine stock_remove_lt_of_any hfact (List.any_eq_true.2 ⟨ref, hlive, ?_⟩)
  rw [hasId, hfact]
  exact decide_eq_true rfl

/-- A removal that takes nothing away changes nothing. -/
theorem remove_eq_or_stock_lt (store : Store) (ref : FactRef) :
    (store.remove ref).2 = store ∨ (store.remove ref).2.stock < store.stock := by
  cases hfact : store.fact? ref with
  | none =>
      left
      simp only [remove, hfact]
  | some fact =>
      by_cases hany : (store.get fact.type).any (store.hasId fact.id) = true
      · exact .inr (stock_remove_lt_of_any hfact hany)
      · left
        simp only [remove, hfact, if_neg hany]

/-- Nothing is added to the live and the pending facts, and unless something is taken away a live fact stays live. -/
structure Spends (ref : FactRef) (store after : Store) : Prop where
  stock : after.stock ≤ store.stock
  lives : store.Lives ref → after.stock < store.stock ∨ after.Lives ref

namespace Spends

theorem refl (ref : FactRef) (store : Store) : Spends ref store store := ⟨Nat.le_refl _, .inr⟩

theorem trans {last : Store} (h : Spends ref store after) (h' : Spends ref after last) : Spends ref store last where
  stock := Nat.le_trans h'.stock h.stock
  lives hlives := by
    rcases h.lives hlives with hless | hstays
    · exact .inl (Nat.lt_of_le_of_lt h'.stock hless)
    · exact (h'.lives hstays).imp_left fun hless => Nat.lt_of_lt_of_le hless h.stock

/-- Whether it is still live or something else was taken away before: once the fact is taken away, there are fewer. -/
theorem stock_lt {last : Store} (h : Spends ref store after) (hlives : store.Lives ref)
    (hle : last.stock ≤ after.stock) (hless : after.Lives ref → last.stock < after.stock) :
    last.stock < store.stock := by
  rcases h.lives hlives with hgone | hstill
  · exact Nat.lt_of_le_of_lt hle hgone
  · exact Nat.lt_of_lt_of_le (hless hstill) h.stock

theorem remove (ref : FactRef) (store : Store) (other : FactRef) : Spends ref store (store.remove other).2 := by
  rcases store.remove_eq_or_stock_lt other with hsame | hless
  · rw [hsame]
    exact .refl ref store
  · exact ⟨Nat.le_of_lt hless, fun _ => .inl hless⟩

theorem removeAll (ref : FactRef) (store : Store) (others : List FactRef) :
    Spends ref store (others.foldl (fun store other => (store.remove other).2) store) := by
  induction others generalizing store with
  | nil => exact .refl ref store
  | cons other others ih => exact (remove ref store other).trans (ih _)

/-- Writes leave the lists as they are. -/
theorem of_changed {writes : List Write} (h : store.Changed after [] [] writes) : Spends ref store after := by
  have hget (type : String) : after.get type = store.get type := by
    rw [h.live]
    exact List.filter_eq_self.2 fun _ _ => decide_eq_true List.not_mem_nil
  have hstock : after.stock = store.stock := by
    rw [Store.stock, Store.stock, h.pending, List.append_nil, Store.size, Store.size, LiveIndex.count_congr hget]
  refine ⟨Nat.le_of_eq hstock, ?_⟩
  rintro ⟨fact, hfact, hlive⟩
  obtain ⟨kept, hkept, -, htype, -⟩ := h.facts ref fact hfact
  exact .inr ⟨kept, hkept, by rwa [htype, hget]⟩

end Spends

end Store

namespace Action

/-- Is the action a removal of the fact of one of the first so many conditions? -/
def Takes (kind : Command → Option Builtin) (count : Nat) (action : Action) : Prop :=
  kind action.command = some .remove ∧
    ∃ index rest, action.params = .literal (.int index) :: rest ∧ 0 ≤ index.toInt ∧ index.toInt.toNat < count

end Action

namespace Rule

/-- Are all actions of the rule done on the loop, by built-in commands that make no facts or by commands that only
fail? -/
def MakesNothing (kind : Command → Option Builtin) (rule : Rule) : Prop :=
  ∀ action ∈ rule.actions,
    action.command.mode = .sync ∧ action.command.Is (kind action.command) ∧ kind action.command ≠ some .make

/-- Is the rule sure to remove a fact that it matches? Whatever its conditions bind, one of its actions is such a
removal, and the parameters of the removal stand for values when it is dispatched. -/
def Consumes (kind : Command → Option Builtin) (rule : Rule) : Prop :=
  ∀ bindings : Bindings, (∀ name, bindings.contains name = true ↔ name ∈ rule.variableNames) →
    ∃ earlier action later, rule.actions = earlier ++ action :: later ∧ action.Takes kind rule.conditions.length ∧
      ∃ args, Param.resolveAll (earlier.foldl (Action.bound kind) bindings) action.params = .ok args

/-- It is enough that the variables of such a removal are variables of the conditions. -/
theorem consumes_of_mem {kind : Command → Option Builtin} {rule : Rule} {action : Action} (hmem : action ∈ rule.actions)
    (htakes : action.Takes kind rule.conditions.length)
    (hknown : ∀ name, .variable name ∈ action.params → name ∈ rule.variableNames) : rule.Consumes kind := by
  intro bindings hbound
  obtain ⟨earlier, later, hactions⟩ := List.append_of_mem hmem
  refine ⟨earlier, action, later, hactions, htakes, Param.exists_resolveAll_eq_ok fun name hname => ?_⟩
  have hcontains : bindings.contains name = true := (hbound name).2 (hknown name hname)
  clear hactions hbound
  induction earlier generalizing bindings with
  | nil => exact hcontains
  | cons first earlier ih => exact ih _ (Action.contains_bound hcontains)

end Rule

/-- Is the firing on the loop, with the given facts, and between two actions? -/
structure Firing.Between (facts : List FactRef) (firing : Firing) : Prop where
  facts : firing.facts = facts
  onLoop : firing.onLoop = true
  removals : firing.removals = []

namespace Engine

variable {kind : Command → Option Builtin} {engine : Engine} {firing : Firing} {action : Action} {ref : FactRef}

/-- The fact that a match takes for a condition is live. -/
theorem lives_of_choose (hidle : ∀ pool ∈ engine.matchers, pool.queue = []) {found : Match}
    (hchoose : engine.choose = some found) {index : Nat} (hindex : index < found.source.rule.conditions.length) :
    ∃ ref, found.facts[index]? = some ref ∧ engine.store.Lives ref := by
  obtain ⟨picks, hanswers, hfacts, -⟩ := Goal.exists_answer_of_solve_eq_some (solve_of_choose hidle hchoose).2
  have hfound := ((hanswers _).1 found.bindings.agreesWith_toAssignment).2
  have hgoal : index < (found.source.rule.goals engine.view).length := by
    rw [Rule.goals, List.length_map]
    exact hindex
  have hpick : index < picks.length := hfound.offered.length_eq ▸ hgoal
  have hoffers := (List.forall₂_iff_get.1 hfound.offered).2 index hgoal hpick
  have hholds := (List.forall₂_iff_get.1 hfound.fulfilled).2 index hgoal hpick
  refine ⟨picks[index].candidate.ref, ?_, ?_⟩
  · have hrefs : found.facts = picks.map (·.candidate.ref) := hfacts
    rw [hrefs, List.getElem?_map, List.getElem?_eq_getElem hpick]
    rfl
  · simp only [Rule.goals, List.get_eq_getElem, List.getElem_map] at hoffers hholds
    obtain ⟨ref, href, hcandidate⟩ := List.mem_filterMap.1 (List.mem_of_getElem? hoffers)
    obtain ⟨fact, hfact, hpicked⟩ := Option.map_eq_some_iff.1 hcandidate
    rw [← hpicked] at hholds ⊢
    exact ⟨fact, hfact, hholds.1 ▸ href⟩

/-- What is removed is never added again by an action that makes nothing. -/
theorem spends_dispatch {facts : List FactRef} (hkind : action.command.Is (kind action.command))
    (hplain : kind action.command ≠ some .make) (hbetween : firing.Between facts) (ref : FactRef) :
    let after := engine.dispatch firing action
    engine.store.Spends ref after.2.store ∧ after.1.Between facts := by
  intro after
  cases hfate : (Happening.dispatch engine firing action).fate with
  | executed command args failure? =>
      obtain ⟨⟨written, hchanged, hstore⟩, hfacts, honLoop, hremovals⟩ :=
        engine.store_dispatch_of_executed hkind hbetween.onLoop hbetween.removals hfate
      rw [Happening.made?_of_ne hplain] at hchanged
      refine ⟨?_, hfacts.trans hbetween.facts, honLoop, hremovals⟩
      rw [show after.2.store = _ from hstore]
      exact (Store.Spends.of_changed hchanged).trans (.removeAll ref written _)
  | unresolved cause | handedOver job | turnedAway cause =>
      obtain ⟨hfiring, hworkspace⟩ := (engine.dispatch_meets_fate firing action).2.2 (by rw [hfate]; rfl)
      rw [show after.1 = firing from hfiring]
      refine ⟨?_, hbetween⟩
      rcases hworkspace with hworkspace | hworkspace
      · rw [show after.2.store = engine.store from congrArg Workspace.store hworkspace]
        exact .refl ref _
      · rw [show after.2.store = engine.store.wake from congrArg Workspace.store hworkspace]
        exact .of_changed (changed_wake _)

/-- A removal whose parameters stand for values takes away the fact that its first parameter names, if it is live. -/
theorem stock_dispatch_lt {facts : List FactRef} {index : Int64} {rest : List Param} {args : List Value}
    (hsync : action.command.mode = .sync) (hkind : action.command.Is (kind action.command))
    (hremove : kind action.command = some .remove) (hparams : action.params = .literal (.int index) :: rest)
    (hindex : 0 ≤ index.toInt) (hargs : Param.resolveAll firing.bindings action.params = .ok args)
    (hbetween : firing.Between facts) (hfact : facts[index.toInt.toNat]? = some ref) (hlives : engine.store.Lives ref) :
    (engine.dispatch firing action).2.store.stock < engine.store.stock := by
  have hfate : (Happening.dispatch engine firing action).fate = .executed action.command args _ :=
    Happening.fate_of_sync hsync hargs
  obtain ⟨⟨written, hchanged, hstore⟩, -⟩ :=
    engine.store_dispatch_of_executed hkind hbetween.onLoop hbetween.removals hfate
  have hplain : kind action.command ≠ some .make := by rw [hremove]; nofun
  rw [Happening.made?_of_ne hplain] at hchanged
  have hwritten : Store.Spends ref engine.store written := .of_changed hchanged
  -- the fact is the first to be removed
  obtain ⟨others, hremoved⟩ : ∃ others, (Happening.dispatch engine firing action).removed kind = ref :: others := by
    rw [hparams, Param.resolveAll_eq_ok_iff, List.forall₂_cons_left_iff] at hargs
    obtain ⟨value, values, hvalue, -, rfl⟩ := hargs
    have hnamed : Builtin.named? firing.facts value = some ref := by
      obtain rfl : Value.int index = value := hvalue
      rw [Builtin.named?, Arguments.index, if_pos hindex, hbetween.facts]
      exact hfact
    refine ⟨Builtin.namedFirst firing.facts values, ?_⟩
    rw [Happening.removed, hfate]
    show Builtin.queued (kind action.command) firing.facts (value :: values) = _
    rw [hremove, Builtin.queued, Builtin.namedFirst_cons, hnamed]
  rw [hstore, hremoved, List.foldl_cons]
  have hrest := (Store.Spends.removeAll ref (written.remove ref).2 others).stock
  refine hwritten.stock_lt hlives (hrest.trans (Store.Spends.remove ref written ref).stock) fun hstill => ?_
  exact hrest.trans_lt (Store.stock_remove_lt hstill)

/-- The actions of a firing, one after the other. -/
theorem spends_foldl {facts : List FactRef} {actions : List Action}
    (hactions : ∀ action ∈ actions, action.command.Is (kind action.command) ∧ kind action.command ≠ some .make)
    (hbetween : firing.Between facts) (ref : FactRef) :
    let after := actions.foldl (fun state action => dispatch state.1 state.2 action) (firing, engine)
    engine.store.Spends ref after.2.store ∧ after.1.Between facts ∧
      after.1.bindings = actions.foldl (Action.bound kind) firing.bindings := by
  induction actions generalizing firing engine with
  | nil => exact ⟨.refl ref engine.store, hbetween, rfl⟩
  | cons action actions ih =>
      obtain ⟨⟨hkind, hplain⟩, hlater⟩ := List.forall_mem_cons.1 hactions
      obtain ⟨hspends, hnext⟩ := engine.spends_dispatch hkind hplain hbetween ref
      obtain ⟨hrest, hlast, hbindings⟩ := ih hlater hnext
      refine ⟨hspends.trans hrest, hlast, hbindings.trans ?_⟩
      rw [bindings_dispatch hkind, List.foldl_cons]

/-- **Each firing takes a fact away.** -/
theorem stock_fire_lt (hidle : ∀ pool ∈ engine.matchers, pool.queue = []) {found : Match}
    (hchoose : engine.choose = some found) (hplain : found.source.rule.MakesNothing kind)
    (hconsumes : found.source.rule.Consumes kind) : (engine.fire found).store.stock < engine.store.stock := by
  obtain ⟨earlier, action, later, hactions, ⟨hremove, index, rest, hparams, hindex, hcount⟩, args, hargs⟩ :=
    hconsumes found.bindings (contains_of_choose hidle hchoose)
  obtain ⟨ref, hfact, hlives⟩ := lives_of_choose hidle hchoose hcount
  obtain ⟨hearlier, haction, hlater⟩ : (∀ action ∈ earlier, _) ∧ _ ∧ ∀ action ∈ later, _ := by
    rw [Rule.MakesNothing, hactions, List.forall_mem_append, List.forall_mem_cons] at hplain
    exact hplain
  let step (state : Firing × Engine) (action : Action) := dispatch state.1 state.2 action
  let begun : Firing × Engine :=
    ({ rule := found.source.rule.name, facts := found.facts, bindings := found.bindings },
      { engine with lastFired := some found.source, firings := engine.firings + 1 })
  let before := earlier.foldl step begun
  let taken := step before action
  let after := later.foldl step taken
  have hfire : engine.fire found = after.2 := by
    show (found.source.rule.actions.foldl step begun).2 = _
    rw [hactions, List.foldl_append, List.foldl_cons]
  have hbegun : begun.1.Between found.facts := ⟨rfl, rfl, rfl⟩
  obtain ⟨hspent, hbetween, hbindings⟩ : begun.2.store.Spends ref before.2.store ∧ before.1.Between found.facts ∧
      before.1.bindings = earlier.foldl (Action.bound kind) found.bindings :=
    spends_foldl (fun action h => (hearlier action h).2) hbegun ref
  obtain ⟨hspends, hnext⟩ : before.2.store.Spends ref taken.2.store ∧ taken.1.Between found.facts :=
    spends_dispatch haction.2.1 haction.2.2 hbetween ref
  have hrest : after.2.store.stock ≤ taken.2.store.stock :=
    (spends_foldl (fun action h => (hlater action h).2) hnext ref).1.stock
  have htaken (hstill : before.2.store.Lives ref) : taken.2.store.stock < before.2.store.stock :=
    stock_dispatch_lt haction.1 haction.2.1 hremove hparams hindex (hbindings ▸ hargs) hbetween hfact hstill
  calc (engine.fire found).store.stock
    _ = after.2.store.stock := by rw [hfire]
    _ ≤ taken.2.store.stock := hrest
    _ < begun.2.store.stock := hspent.stock_lt hlives hspends.stock htaken
    _ = engine.store.stock := rfl

end Engine

namespace Run

variable {kind : Command → Option Builtin} {bound limit : Nat} {run : Run}

/-- A run of rules that consume, to which nothing comes from outside. It has not fired more rules than there are facts
gone of so many. -/
structure Consuming (kind : Command → Option Builtin) (bound : Nat) (run : Run) : Prop where
  synchronous : run.engine.Synchronous
  nothing : run.arrivals = []
  rules : ∀ source ∈ run.engine.rules, source.rule.MakesNothing kind ∧ source.rule.Consumes kind
  spent : run.fired + run.engine.store.stock ≤ bound

namespace Consuming

/-- The run fires a rule and has a fact less, or it is over. -/
theorem cycle_cases (h : run.Consuming kind bound) :
    (∃ found next, run.cycle = .fired found next ∧ next.fired = run.fired + 1 ∧ next.Consuming kind bound) ∨
      ∃ next, run.cycle = .quiet next ∧ next.Consuming kind bound := by
  have hdrained := run.engine.store.stock_drain_le
  have hsynchronous := h.synchronous.cycle
  have hspent := h.spent
  cases hchoose : run.engine.drain.choose with
  | none =>
      obtain ⟨clock, hcycle⟩ := exists_cycle_eq_quiet h.synchronous.queue_eq_nil h.nothing hchoose
      rw [hcycle] at hsynchronous
      refine .inr ⟨_, hcycle, hsynchronous, h.nothing, h.rules, ?_⟩
      exact Nat.le_trans (Nat.add_le_add_left hdrained _) hspent
  | some found =>
      have hcycle := cycle_of_some hchoose
      obtain ⟨fired, hsound⟩ := h.synchronous.sound
      have hidle : ∀ pool ∈ run.engine.drain.matchers, pool.queue = [] := hsound.idle
      obtain ⟨hplain, hconsumes⟩ := h.rules found.source (Engine.solve_of_choose hidle hchoose).1
      have hless := Engine.stock_fire_lt hidle hchoose hplain hconsumes
      have hrules : (run.engine.drain.fire found).rules = run.engine.rules :=
        (Engine.Worked.fire run.engine.drain found).rules_eq
      rw [hcycle] at hsynchronous
      refine .inl ⟨found, _, hcycle, rfl, hsynchronous, h.nothing, fun source hsource => ?_, ?_⟩
      · exact h.rules source (hrules ▸ hsource)
      · show run.fired + 1 + (run.engine.drain.fire found).store.stock ≤ bound
        have hstock : run.engine.drain.store.stock = run.engine.store.drain.stock := rfl
        omega

theorem steps (h : run.Consuming kind bound) (limit : Nat) : (run.steps limit).2.Consuming kind bound := by
  refine of_steps (P := Consuming kind bound) (fun run h => ?_) h limit
  rcases h.cycle_cases with ⟨found, next, hcycle, -, hnext⟩ | ⟨next, hcycle, hnext⟩
  · rw [hcycle]
    exact hnext
  · rw [hcycle]
    exact hnext

/-- The run does not reach a limit beyond the number of facts. -/
theorem steps_ne_stepLimit (h : run.Consuming kind bound) (hlimit : bound < run.fired + limit) :
    (run.steps limit).1 ≠ .stepLimit := by
  induction limit generalizing run with
  | zero =>
      have hspent := h.spent
      omega
  | succ limit ih =>
      by_cases hhalted : run.engine.workspace.halted = true
      · rw [steps_of_halted hhalted]
        nofun
      · rcases h.cycle_cases with ⟨found, next, hcycle, hfired, hnext⟩ | ⟨next, hcycle, -⟩
        · rw [steps_eq_of_fired hhalted hcycle]
          exact ih hnext (by omega)
        · rw [steps_eq_of_quiet hhalted hcycle]
          nofun

end Consuming

theorem store_close (hqueue : run.engine.executor.pool.queue = []) (outcome : Outcome) :
    (run.close outcome).2.store = run.engine.store := by
  cases outcome with
  | stepLimit => rfl
  | halted | quiescent =>
      simp only [close, Engine.settle_of_queue_eq_nil hqueue]
      rfl

end Run

/-- **Rules that consume come to an end.** Take an engine, however it is configured, with any history in which the
workers got their jobs from it alone. Let all actions of its rules be done on the loop, by built-in commands that make
no facts or by commands that only fail, and let each rule be sure to remove a fact that it matches. Then a run without
a limit is over after no more firings than there are live and pending facts, and each firing has taken at least one of
them away; and so it is up to any limit. -/
theorem consuming_rules_end {kind : Command → Option Builtin} (config : Config) (events : List EngineEvent)
    (hjobs : (Chronicle.new config).OwnJobs events) (engine : Engine)
    (hengine : ((Chronicle.new config).after events).engine = engine)
    (hrules : ∀ source ∈ engine.rules, source.rule.MakesNothing kind ∧ source.rule.Consumes kind) :
    (∃ report after, (∀ answer, engine.RunsTo answer ↔ answer = (report, after)) ∧
        report.firings + after.store.stock ≤ engine.store.stock) ∧
      ∀ limit, (engine.runSteps limit).1.firings + (engine.runSteps limit).2.store.stock ≤ engine.store.stock := by
  have hnew : (Chronicle.new config).engine.agenda.Sound (Chronicle.new config).fired := .new config
  have hsynchronous : engine.Synchronous := by
    rw [← hengine] at hrules ⊢
    exact ⟨fun source hsource action haction => ((hrules source hsource).1 action haction).1,
      Chronicle.jobsOfRules_after (.of_queue_eq_nil rfl) hnew hjobs, _, Chronicle.sound_after hnew events⟩
  have hbegun : (engine.begin []).Consuming kind engine.store.stock :=
    ⟨hsynchronous.begin, rfl, hrules, Nat.le_of_eq (Nat.zero_add _)⟩
  have hlimited (limit : Nat) :
      (engine.runSteps limit).1.firings + (engine.runSteps limit).2.store.stock ≤ engine.store.stock := by
    have hsteps := hbegun.steps limit
    have hstore : (engine.runSteps limit).2.store = ((engine.begin []).steps limit).2.engine.store :=
      Run.store_close hsteps.synchronous.queue_eq_nil _
    rw [hstore]
    exact hsteps.spent
  refine ⟨⟨_, _, fun answer => Engine.runsTo_iff_of_ended (m := engine.store.stock + 1) ?_, hlimited _⟩, hlimited⟩
  exact hbegun.steps_ne_stepLimit (by omega)

/-- A rule that takes parts away, although most of its actions fail. -/
def clearing : Rule where
  name := "clear"
  conditions := [⟨"part", [("size", .variable "$size")]⟩]
  actions := [
    ⟨Builtin.modify.command, [.literal (.int 0), .literal (.str "size"), .literal (.int 7)]⟩,
    ⟨Machine.explode, []⟩,
    ⟨Builtin.remove.command, [.literal (.int 0), .variable "$size", .literal (.str "lid")]⟩]

def clearingHistory : List EngineEvent := [
  .register ⟨"part", [("size", .nil)]⟩, .addRule clearing, .make "part" [("size", .int 3)],
  .make "part" [("size", .int 5)]]

theorem consuming_rules_end_clearing :
    let chronicle := Chronicle.new .sequential
    let engine := (chronicle.after clearingHistory).engine
    chronicle.OwnJobs clearingHistory ∧
      (∀ source ∈ engine.rules,
        source.rule.MakesNothing Machine.builtinOf? ∧ source.rule.Consumes Machine.builtinOf?) ∧
      engine.store.stock = 2 ∧ ∃ report after, engine.RunsTo (report, after) ∧ report.firings ≤ 2 := by
  intro chronicle engine
  have hjobs : chronicle.OwnJobs clearingHistory := ⟨trivial, trivial, trivial, trivial, trivial⟩
  have hstock : engine.store.stock = 2 := rfl
  have hplain : clearing.MakesNothing Machine.builtinOf? := by
    simp only [Rule.MakesNothing, clearing, List.forall_mem_cons]
    exact ⟨⟨rfl, Machine.is_builtinOf? .modify .sync, nofun⟩, ⟨rfl, .failing fun _ _ => ⟨_, rfl⟩, nofun⟩,
      ⟨rfl, Machine.is_builtinOf? .remove .sync, nofun⟩, nofun⟩
  have hconsumes : clearing.Consumes Machine.builtinOf? := by
    refine Rule.consumes_of_mem (List.mem_cons_of_mem _ (List.mem_cons_of_mem _ List.mem_cons_self))
      ⟨rfl, 0, _, rfl, by decide, by decide⟩ fun name hname => ?_
    have hnames : clearing.variableNames = ["$size"] := by decide
    simp only [List.mem_cons, reduceCtorEq, List.not_mem_nil, Param.variable.injEq, false_or, or_false] at hname
    rw [hnames, hname]
    exact List.mem_cons_self
  have hrules : ∀ source ∈ engine.rules,
      source.rule.MakesNothing Machine.builtinOf? ∧ source.rule.Consumes Machine.builtinOf? := by
    have hall : engine.rules = [⟨0, clearing⟩] := rfl
    rw [hall]
    exact List.forall_mem_singleton.2 ⟨hplain, hconsumes⟩
  obtain ⟨⟨report, after, hruns, hfew⟩, -⟩ := consuming_rules_end .sequential clearingHistory hjobs engine rfl hrules
  exact ⟨hjobs, hrules, hstock, report, after, (hruns _).2 rfl, by omega⟩

/-- A rule whose removal never happens, as nothing binds its last parameter. -/
def clinging : Rule where
  name := "cling"
  conditions := [⟨"part", []⟩]
  actions := [⟨Builtin.remove.command, [.literal (.int 0), .variable "$missing"]⟩]

def clingingHistory : List EngineEvent := [.register ⟨"part", []⟩, .addRule clinging, .make "part" []]

def clingingEngine : Engine := ((Chronicle.new .sequential).after clingingHistory).engine

/-- A run in which nothing has changed but what is counted and reported. -/
structure Run.Clings (run : Run) : Prop where
  rules : run.engine.rules = [⟨0, clinging⟩]
  matchers : run.engine.matchers = none
  unlimited : run.engine.config.maxMatchFrames = none
  going : run.engine.workspace.halted = false
  store : run.engine.drain.store = clingingEngine.drain.store

namespace Run.Clings

variable {run : Run}

theorem cycle (h : run.Clings) :
    ∃ found next, run.cycle = .fired found next ∧ next.fired = run.fired + 1 ∧ next.Clings := by
  let found : Match := ⟨⟨0, clinging⟩, [⟨0⟩], Dictionary.empty⟩
  have hview : run.engine.drain.view = clingingEngine.drain.view := by
    rw [Engine.view, h.store]
    rfl
  have hall : run.engine.drain.matchAll = Match.all none run.engine.drain.view [⟨0, clinging⟩] := by
    show Match.allBy run.engine.matchers run.engine.config.maxMatchFrames _ run.engine.rules = _
    rw [h.matchers, h.unlimited, h.rules]
    rfl
  have hchoose : run.engine.drain.choose = some found := by
    rw [Engine.choose_of_matchAll hall, hview]
    rfl
  have hstore : (run.engine.drain.fire found).store = clingingEngine.drain.store := h.store
  refine ⟨found, _, Run.cycle_of_some hchoose, rfl, h.rules, h.matchers, h.unlimited, h.going, ?_⟩
  show (run.engine.drain.fire found).store.drain = _
  rw [hstore]
  rfl

theorem steps (h : run.Clings) (limit : Nat) :
    (run.steps limit).1 = .stepLimit ∧ (run.steps limit).2.fired = run.fired + limit := by
  have hgoing : ¬run.engine.workspace.halted = true := by rw [h.going]; exact Bool.false_ne_true
  induction limit generalizing run with
  | zero =>
      rw [steps_zero hgoing]
      exact ⟨rfl, rfl⟩
  | succ limit ih =>
      obtain ⟨found, next, hcycle, hfired, hnext⟩ := h.cycle
      obtain ⟨hpaused, hcount⟩ := ih hnext (by rw [hnext.going]; exact Bool.false_ne_true)
      rw [steps_eq_of_fired hgoing hcycle]
      exact ⟨hpaused, by omega⟩

end Run.Clings

/-- It is not enough that an action is a removal of a matched fact: where another parameter of it stands for no value,
the action fails as a whole, and the rule fires for the one part that there is without end. -/
theorem unbound_removal_fires_without_end :
    (Chronicle.new .sequential).OwnJobs clingingHistory ∧
      (∀ source ∈ clingingEngine.rules, source.rule.MakesNothing Machine.builtinOf? ∧
        ∃ action ∈ source.rule.actions, action.Takes Machine.builtinOf? source.rule.conditions.length) ∧
      clingingEngine.store.stock = 1 ∧ (∀ limit, (clingingEngine.runSteps limit).1 = ⟨limit, .stepLimit⟩) ∧
      ¬∃ answer, clingingEngine.RunsTo answer := by
  have hplain : clinging.MakesNothing Machine.builtinOf? :=
    List.forall_mem_singleton.2 ⟨rfl, Machine.is_builtinOf? .remove .sync, nofun⟩
  have hrules : clingingEngine.rules = [⟨0, clinging⟩] := rfl
  have hclings : (clingingEngine.begin []).Clings := ⟨rfl, rfl, rfl, rfl, rfl⟩
  have hsteps (limit : Nat) : (clingingEngine.runSteps limit).1 = ⟨limit, .stepLimit⟩ := by
    obtain ⟨hpaused, hcount⟩ := hclings.steps limit
    show Report.mk _ _ = _
    rw [hpaused, hcount]
    exact congrArg (Report.mk · _) (Nat.zero_add limit)
  refine ⟨⟨trivial, trivial, trivial, trivial⟩, ?_, rfl, hsteps, ?_⟩
  · rw [hrules]
    refine List.forall_mem_singleton.2 ⟨hplain, _, List.mem_cons_self, rfl, 0, _, rfl, by decide, by decide⟩
  · rintro ⟨answer, hruns⟩
    obtain ⟨limit, rfl, hover⟩ := Engine.runsTo_iff.1 hruns
    rw [hsteps] at hover
    exact hover rfl

end ProductionSystem
