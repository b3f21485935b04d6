import ProductionSystem.Proofs.PartialChoices
import ProductionSystem.Proofs.SnapshotMatch

/-!
Memory to which facts are only added. A fact that is there stays as it is, and each list of live facts goes on where it
ended, so facts that match a rule go on matching it, at the same positions. New facts may make the search find another
match first; but as it finds the least one in the lexicographic order of the positions, it is never a later one.
-/

namespace ProductionSystem

/-- Does an operation leave alone the facts that are there? -/
def Operation.onlyAdds : Operation → Bool
  | remove _ | set _ _ _ | setMany _ _ | reset => false
  | _ => true

namespace Store

/-- Every fact is as it was, and each list of live facts goes on where it ended. -/
structure ExtendedBy (store later : Store) : Prop where
  facts : ∀ ref fact, store.fact? ref = some fact → later.fact? ref = some fact
  live : ∀ type, store.get type <+: later.get type

namespace ExtendedBy

variable {store later : Store}

theorem of_same (hfacts : later.facts = store.facts) (hlive : later.live = store.live) : store.ExtendedBy later where
  facts ref fact hfact := by rwa [fact?, hfacts]
  live type := by
    have hget : later.get type = store.get type := congrArg (LiveIndex.of · type) hlive
    exact hget ▸ List.prefix_rfl

theorem refl (store : Store) : store.ExtendedBy store := of_same rfl rfl

theorem trans {last : Store} (h : store.ExtendedBy later) (h' : later.ExtendedBy last) : store.ExtendedBy last where
  facts ref fact hfact := h'.facts ref fact (h.facts ref fact hfact)
  live type := (h.live type).trans (h'.live type)

theorem enter (store : Store) (fact : Fact) : store.ExtendedBy (store.enter fact).2 where
  facts _ _ hknown := fact?_enter_of_some hknown fact
  live _ := List.prefix_rfl

theorem make (store : Store) (type : String) (overrides : List (String × Value)) :
    store.ExtendedBy (store.make type overrides).2 := by
  unfold Store.make
  split
  · exact refl store
  · dsimp only [takeId]
    split
    · exact of_same rfl rfl
    · exact (enter store _).trans (of_same rfl rfl)

/-- A drain puts the pending facts of a type behind the live ones. -/
theorem drain (store : Store) : store.ExtendedBy store.drain where
  facts _ _ hfact := hfact
  live type := by
    rw [get_drain]
    exact List.prefix_append _ _

theorem receive (workspace : Workspace) (signal : Signal) :
    workspace.store.ExtendedBy (workspace.receive signal).store := by
  cases signal with
  | make type overrides => exact make workspace.store type overrides
  | wake => exact of_same rfl rfl
  | halt => exact of_same rfl rfl

theorem await (workspace : Workspace) (seen : UInt64) (deadline : Option Nat) (arrivals : List Arrival) :
    workspace.store.ExtendedBy (workspace.await seen deadline arrivals).workspace.store :=
  Workspace.await_induction (P := fun later => workspace.store.ExtendedBy later.store)
    (fun arrival _ later h => h.trans (receive later arrival.signal)) (refl _)

theorem drainSince (store : Store) (seen : UInt64) (timeout : Option Nat) (arrivals : List Arrival) :
    store.ExtendedBy (store.drainSince seen timeout arrivals).2 := by
  have hwaited := await { store } seen timeout arrivals
  rw [Store.drainSince_eq]
  dsimp only
  split
  · split
    · exact hwaited.trans (drain _)
    · exact hwaited
  · exact drain store

theorem perform (session : Session) {operation : Operation} (hadds : operation.onlyAdds = true) :
    session.store.ExtendedBy (session.perform operation).2.store := by
  cases operation with
  | register template => exact of_same rfl rfl
  | make type overrides => exact make session.store type overrides
  | create id type fields => exact enter session.store _
  | enqueue ref => exact of_same rfl rfl
  | wake => exact of_same rfl rfl
  | drain => exact drain session.store
  | drainSince seen timeout arrivals => exact drainSince session.store seen timeout arrivals
  | drainBlocking timeout arrivals => exact drainSince session.store session.store.epoch timeout arrivals
  | snapshot => exact refl _
  | remove ref => cases hadds
  | set ref field value => cases hadds
  | setMany ref values => cases hadds
  | reset => cases hadds

theorem step (session : Session) {operation : Operation} (hadds : operation.onlyAdds = true) :
    session.store.ExtendedBy (session.step operation).2.store := by
  unfold Session.step
  split
  · exact perform session hadds
  · exact refl _

theorem run (session : Session) {operations : List Operation}
    (hadds : ∀ operation ∈ operations, operation.onlyAdds = true) :
    session.store.ExtendedBy (session.run operations).2.store := by
  induction operations generalizing session with
  | nil => exact refl _
  | cons operation operations ih =>
      obtain ⟨hfirst, hlater⟩ := List.forall_mem_cons.1 hadds
      exact (step session hfirst).trans (ih _ hlater)

end ExtendedBy

end Store

/-- What is nowhere behind comes first. -/
theorem positions_le_of_forall₂ {positions others : List Nat} (h : List.Forall₂ (· ≤ ·) positions others) :
    positions ≤ others := by
  induction h with
  | nil => exact le_rfl
  | cons hposition _ ih =>
      rw [positions_cons_le_cons_iff]
      exact (Nat.lt_or_eq_of_le hposition).imp_right fun heq => ⟨heq, ih⟩

namespace Snapshot

/-- The position at which a snapshot lists a fact under a type first. -/
def position (snapshot : Snapshot) (type : String) (ref : FactRef) : Nat := (snapshot.get type).idxOf ref

theorem getElem?_position {snapshot : Snapshot} {type : String} {ref : FactRef} {position : Nat}
    (hlisted : (snapshot.get type)[position]? = some ref) :
    (snapshot.get type)[snapshot.position type ref]? = some ref :=
  List.getElem?_idxOf (List.mem_of_getElem? hlisted)

theorem position_le {snapshot : Snapshot} {type : String} {ref : FactRef} {position : Nat}
    (hlisted : (snapshot.get type)[position]? = some ref) : snapshot.position type ref ≤ position := by
  obtain ⟨hlt, hat⟩ := List.getElem?_eq_some_iff.1 hlisted
  by_contra hbehind
  have hother := List.not_of_lt_findIdx (Nat.lt_of_not_le hbehind)
  rw [hat] at hother
  simp at hother

/-- Does the snapshot list the fact that is taken for a condition, at the position of the pick? -/
def Lists (snapshot : Snapshot) (store : Store) (condition : Condition) (pick : Pick) : Prop :=
  (snapshot.get condition.type)[pick.position]? = some pick.candidate.ref ∧
    store.fact? pick.candidate.ref = some pick.candidate.fact

end Snapshot

namespace Rule

/-- The positions of facts, one for each condition, in the lists of a snapshot. -/
def positions (rule : Rule) (snapshot : Snapshot) (facts : List FactRef) : List Nat :=
  rule.conditions.zipWith (fun condition ref => snapshot.position condition.type ref) facts

theorem exists_listed_first {store : Store} {snapshot : Snapshot} {conditions : List Condition} {picks : List Pick}
    (h : List.Forall₂ (snapshot.Lists store) conditions picks) :
    ∃ others : List Pick, others.map (·.candidate) = picks.map (·.candidate) ∧
      List.Forall₂ (snapshot.Lists store) conditions others ∧
      others.map (·.position) =
        conditions.zipWith (fun condition ref => snapshot.position condition.type ref) (picks.map (·.candidate.ref)) ∧
      List.Forall₂ (· ≤ ·) (others.map (·.position)) (picks.map (·.position)) := by
  induction h with
  | nil => exact ⟨[], rfl, .nil, rfl, .nil⟩
  | @cons condition pick _ _ hpick _ ih =>
      obtain ⟨others, hsame, hlisted, hpositions, hle⟩ := ih
      refine ⟨⟨snapshot.position condition.type pick.candidate.ref, pick.candidate⟩ :: others, ?_, ?_, ?_, ?_⟩
      · rw [List.map_cons, List.map_cons, hsame]
      · exact .cons ⟨Snapshot.getElem?_position hpick.1, hpick.2⟩ hlisted
      · rw [List.map_cons, hpositions, List.map_cons, List.zipWith_cons_cons]
      · exact .cons (Snapshot.position_le hpick.1) hle

namespace MatchedBy

variable {rule : Rule} {store : Store} {snapshot : Snapshot} {assignment : Assignment} {picks : List Pick}

/-- The same facts at other positions that list them match as well. -/
theorem relocate {others : List Pick} (h : rule.MatchedBy store snapshot assignment picks)
    (hsame : others.map (·.candidate) = picks.map (·.candidate))
    (hlisted : List.Forall₂ (snapshot.Lists store) rule.conditions others) :
    rule.MatchedBy store snapshot assignment others where
  listed := hlisted
  unretracted pick hpick := by
    have hmem : pick.candidate ∈ picks.map (·.candidate) := hsame ▸ List.mem_map_of_mem hpick
    obtain ⟨other, hother, heq⟩ := List.mem_map.1 hmem
    rw [← heq]
    exact h.unretracted other hother
  distinct := by
    have hdistinct : (picks.map (·.candidate)).Pairwise fun a b => a.fact.id ≠ b.fact.id :=
      List.pairwise_map.2 h.distinct
    rwa [← hsame, List.pairwise_map] at hdistinct
  passed := by
    have hpassed : List.Forall₂ (fun (condition : Condition) (candidate : Candidate) =>
        ∀ test ∈ condition.tests, test.2.Holds assignment (candidate.fact.get test.1))
        rule.conditions (picks.map (·.candidate)) :=
      List.forall₂_map_right_iff.2 h.passed
    rw [← hsame] at hpassed
    exact List.forall₂_map_right_iff.1 hpassed

/-- The facts of the first match stand where they are listed first. -/
theorem positions_eq (h : rule.MatchedBy store snapshot assignment picks)
    (hleast : ∀ others, rule.MatchedBy store snapshot assignment others →
      picks.map (·.position) ≤ others.map (·.position)) :
    picks.map (·.position) = rule.positions snapshot (picks.map (·.candidate.ref)) := by
  obtain ⟨others, hsame, hlisted, hpositions, hle⟩ := exists_listed_first h.listed
  have hothers := h.relocate hsame hlisted
  rw [positions, ← hpositions]
  exact le_antisymm (hleast others hothers) (positions_le_of_forall₂ hle)

/-- What matches in a store matches in one that extends it, at the same positions. -/
theorem extended {later : Store} (h : rule.MatchedBy store store.snapshot assignment picks)
    (hextended : store.ExtendedBy later) : rule.MatchedBy later later.snapshot assignment picks where
  listed := h.listed.imp fun condition pick hpick => by
    refine ⟨?_, hextended.facts _ _ hpick.2⟩
    obtain ⟨rest, hrest⟩ : store.snapshot.get condition.type <+: later.snapshot.get condition.type :=
      hextended.live condition.type
    obtain ⟨hlt, -⟩ := List.getElem?_eq_some_iff.1 hpick.1
    rw [← hrest, List.getElem?_append_left hlt]
    exact hpick.1
  unretracted := h.unretracted
  distinct := h.distinct
  passed := h.passed

end MatchedBy

end Rule

/-- The match found on a snapshot, as positions: no other match is at earlier ones. -/
theorem RuleInstance.exists_matchedBy_of_match?_eq_some {source : RuleInstance} {store : Store} {snapshot : Snapshot}
    {found : Match} (htyped : snapshot.Typed store) (h : source.match? none (store.view snapshot) = some found) :
    ∃ picks assignment, source.rule.MatchedBy store snapshot assignment picks ∧
      picks.map (·.position) = source.rule.positions snapshot found.facts ∧
      ∀ others assignment, source.rule.MatchedBy store snapshot assignment others →
        picks.map (·.position) ≤ others.map (·.position) := by
  obtain ⟨picks, hanswers, hfacts, -, hleast⟩ := exists_answer_of_match?_eq_some h
  have hmatched := (Rule.answers_iff_matchedBy htyped _ _).1 hanswers
  have hfirst : ∀ others assignment, source.rule.MatchedBy store snapshot assignment others →
      picks.map (·.position) ≤ others.map (·.position) :=
    fun others assignment hothers => hleast assignment others ((Rule.answers_iff_matchedBy htyped _ _).2 hothers)
  refine ⟨picks, _, hmatched, ?_, hfirst⟩
  rw [hfacts, hmatched.positions_eq fun others hothers => hfirst others _ hothers]

/-- **A match does not go away while facts are only added.** Take working memory after any history, and after any
further operations none of which removes a fact, writes to one or resets memory: makes, drains, and whatever others
make during a wait. If a rule has a match on a snapshot taken before, it has one on a snapshot taken afterwards, and in
the lexicographic order of the positions at which the snapshots list the facts, it is the same or an earlier one. -/
theorem matching_is_monotone (before after : List Operation)
    (hadds : ∀ operation ∈ after, operation.onlyAdds = true) (source : RuleInstance) :
    let earlier := (({} : Session).run before).2.store
    let later := (({} : Session).run (before ++ after)).2.store
    ∀ found, source.match? none (earlier.view earlier.snapshot) = some found →
      ∃ found', source.match? none (later.view later.snapshot) = some found' ∧
        source.rule.positions later.snapshot found'.facts ≤ source.rule.positions earlier.snapshot found.facts := by
  intro earlier later found hfound
  have hearlier : earlier.snapshot.Typed earlier := by simpa using Session.typed_snapshot before []
  have hlater : later.snapshot.Typed later := by simpa using Session.typed_snapshot (before ++ after) []
  have hextended : earlier.ExtendedBy later := by
    show Store.ExtendedBy _ (({} : Session).run (before ++ after)).2.store
    rw [Session.run_append]
    exact .run _ hadds
  obtain ⟨picks, assignment, hmatched, hpositions, -⟩ :=
    RuleInstance.exists_matchedBy_of_match?_eq_some hearlier hfound
  have hstays := hmatched.extended hextended
  obtain ⟨found', hfound'⟩ := Option.isSome_iff_exists.1
    (RuleInstance.isSome_match?_iff.2 ⟨assignment, picks, (Rule.answers_iff_matchedBy hlater _ _).2 hstays⟩)
  obtain ⟨picks', -, -, hpositions', hleast⟩ := RuleInstance.exists_matchedBy_of_match?_eq_some hlater hfound'
  refine ⟨found', hfound', ?_⟩
  rw [← hpositions', ← hpositions]
  exact hleast picks assignment hstays

/-- An order is filled from the stock of its part. -/
def fillOrder : RuleInstance where
  serial := 0
  rule :=
    { name := "fill"
      conditions := [⟨"order", [("part", .variable "$part")]⟩, ⟨"stock", [("part", .variable "$part")]⟩] }

/-- Orders for a bolt and for a nut, and a nut in stock. -/
def nutInStock : List Operation :=
  [.register ⟨"order", [("part", .nil)]⟩, .register ⟨"stock", [("part", .nil)]⟩,
    .make "order" [("part", .str "bolt")], .make "order" [("part", .str "nut")], .make "stock" [("part", .str "nut")],
    .drain]

/-- When a bolt comes in, the first order can be filled, from the end of the stock: the match at the positions 1 and 0
gives way to the one at the positions 0 and 1. -/
theorem matching_is_monotone_fillOrder :
    let more : List Operation := [.make "stock" [("part", .str "bolt")], .drain]
    let earlier := (({} : Session).run nutInStock).2.store
    let later := (({} : Session).run (nutInStock ++ more)).2.store
    (∀ operation ∈ more, operation.onlyAdds = true) ∧
      ∃ found found', fillOrder.match? none (earlier.view earlier.snapshot) = some found ∧
        fillOrder.match? none (later.view later.snapshot) = some found' ∧
        fillOrder.rule.positions earlier.snapshot found.facts = [1, 0] ∧
        fillOrder.rule.positions later.snapshot found'.facts = [0, 1] ∧
        fillOrder.rule.positions later.snapshot found'.facts ≤
          fillOrder.rule.positions earlier.snapshot found.facts := by
  intro more earlier later
  have hadds : ∀ operation ∈ more, operation.onlyAdds = true := by simp [more, Operation.onlyAdds]
  have hsolve : Goal.solve (fillOrder.rule.goals (earlier.view earlier.snapshot)) [] Dictionary.empty =
      some ⟨[⟨1⟩, ⟨2⟩], Dictionary.empty.insert "$part" (.str "nut")⟩ := by decide +kernel
  have hsolve' : Goal.solve (fillOrder.rule.goals (later.view later.snapshot)) [] Dictionary.empty =
      some ⟨[⟨0⟩, ⟨3⟩], Dictionary.empty.insert "$part" (.str "bolt")⟩ := by decide +kernel
  have hfound : fillOrder.match? none (earlier.view earlier.snapshot) =
      some ⟨fillOrder, [⟨1⟩, ⟨2⟩], Dictionary.empty.insert "$part" (.str "nut")⟩ := by
    rw [RuleInstance.match?_none, hsolve, Option.map_some]
  have hfound' : fillOrder.match? none (later.view later.snapshot) =
      some ⟨fillOrder, [⟨0⟩, ⟨3⟩], Dictionary.empty.insert "$part" (.str "bolt")⟩ := by
    rw [RuleInstance.match?_none, hsolve', Option.map_some]
  obtain ⟨found', hsame, hle⟩ := matching_is_monotone nutInStock more hadds fillOrder _ hfound
  obtain rfl := Option.some.inj (hfound'.symm.trans hsame)
  exact ⟨hadds, _, _, hfound, hfound', rfl, rfl, hle⟩

end ProductionSystem
