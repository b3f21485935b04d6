import ProductionSystem.Proofs.FactLifetime
import ProductionSystem.Proofs.SnapshotMatch

/-!
Snapshots that are held while facts are removed and written to. A held snapshot still lists the facts that have been
removed since, and a fresh one does not. But a removed fact is marked as retracted, and the search passes over what is
retracted without popping a frame for it: so it takes the same course on the candidates with the retracted ones and
without them. Where ids are not used twice, a removal marks the very fact that it takes off its list, so the two
snapshots list the same facts that are not retracted, in the same order.
-/

namespace ProductionSystem

/-- Is the fact still there? -/
def Candidate.present (candidate : Candidate) : Bool := !candidate.fact.retracted

namespace Goal

variable {condition : Condition} {committed : List Candidate} {bindings : Bindings}

theorem fit_of_not_present {candidate : Candidate} (h : candidate.present = false) :
    fit condition committed bindings candidate = none := by
  rw [fit, if_neg]
  simp only [Candidate.present, Bool.not_eq_false'] at h
  simp [admits, h]

/-- What is retracted is passed over. -/
theorem firstFit_present (untried : List Candidate) :
    firstFit condition committed bindings (untried.filter Candidate.present) =
      (firstFit condition committed bindings untried).map fun taken =>
        (taken.1, taken.2.1, taken.2.2.filter Candidate.present) := by
  induction untried with
  | nil => rfl
  | cons first others ih =>
      cases hpresent : first.present with
      | false =>
          rw [List.filter_cons_of_neg (by rw [hpresent]; decide), firstFit_cons first others,
            fit_of_not_present hpresent, ih]
      | true =>
          rw [List.filter_cons_of_pos hpresent, firstFit_cons, firstFit_cons]
          cases fit condition committed bindings first with
          | none => exact ih
          | some extended => rfl

/-- The goal with the candidates that are still there. -/
def present (goal : Goal) : Goal := { goal with candidates := goal.candidates.filter Candidate.present }

end Goal

namespace Frame

/-- The frame with the candidates that are still there. -/
def present (frame : Frame) : Frame :=
  { frame with goals := frame.goals.map Goal.present, untried := frame.untried.filter Candidate.present }

theorem present_enter (goals : List Goal) (committed : List Candidate) (bindings : Bindings) :
    (enter goals committed bindings).present = enter (goals.map Goal.present) committed bindings := by
  cases goals <;> rfl

/-- A frame without the retracted candidates expands in lockstep with the whole one. -/
theorem lockstep_present (frame : Frame) :
    frame.present.expand.Lockstep (fun pruned whole => pruned = whole.present) frame.expand := by
  obtain ⟨goals, untried, committed, bindings⟩ := frame
  cases goals with
  | nil => exact .complete _
  | cons goal goals =>
      simp only [expand, present, List.map_cons, Goal.present, Goal.firstFit_present]
      cases Goal.firstFit goal.condition committed bindings untried with
      | none => exact .exhausted
      | some taken => exact .extended rfl (present_enter goals _ _).symm

end Frame

/-- The candidates that are still there. -/
def View.present (view : View) : View := fun type => (view type).filter Candidate.present

/-- **What is retracted costs no frame.** The search comes to the same end without the retracted candidates. -/
theorem Rule.search_present (rule : Rule) (budget : Option Nat) (view : View) :
    rule.search budget view.present = rule.search budget view := by
  have hgoals : rule.goals view.present = (rule.goals view).map Goal.present := by
    rw [goals, goals, List.map_map]
    rfl
  rw [search, search, Search.start, Search.start, hgoals, ← Frame.present_enter]
  refine Search.run_lockstep (R := fun pruned whole => pruned = whole.present) ?_ budget 0 (.cons rfl .nil)
  rintro _ whole rfl
  exact whole.lockstep_present

/-- Does an operation neither bring facts to life nor empty memory? -/
def Operation.neitherDrainsNorResets : Operation → Bool
  | drain | drainSince _ _ _ | drainBlocking _ _ | reset => false
  | _ => true

namespace FlatMemory

/-- Is the instance not retracted? -/
def isPresent (memory : FlatMemory) (ref : FactRef) : Bool := !memory.isRetracted ref

variable {memory : FlatMemory}

theorem isPresent_of_run {operations : List Operation} {ref : FactRef}
    (h : (memory.run operations).2.isPresent ref = true) : memory.isPresent ref = true := by
  rw [isPresent, Bool.not_eq_true'] at h ⊢
  rw [Bool.eq_false_iff] at h ⊢
  exact fun hretracted => h ((memory.isRetracted_run operations ref).2 (.inl hretracted))

theorem live_make (memory : FlatMemory) (type : String) (overrides : List (String × Value)) :
    (memory.make type overrides).2.live = memory.live := by
  unfold make
  split
  · rfl
  · dsimp only
    split <;> rfl

theorem live_writeTo (memory : FlatMemory) (ref : FactRef) (write : Fact → Except ErrorKind Fact) :
    (memory.writeTo ref write).2.live = memory.live := by
  unfold writeTo
  split
  · rfl
  · split <;> rfl

/-- A removal marks the fact that it takes off the list of live facts, so those that are not retracted stay. -/
theorem Orderly.filter_remove (h : memory.Orderly) (ref : FactRef) :
    (memory.remove ref).2.live.filter (memory.remove ref).2.isPresent =
      memory.live.filter (memory.remove ref).2.isPresent := by
  have hmarks := memory.isRetracted_remove ref
  cases hfact : memory.fact? ref with
  | none =>
      have hsame : (memory.remove ref).2 = memory := by rw [remove, hfact]
      rw [hsame]
  | some fact =>
      rw [h.remove_eq hfact] at hmarks ⊢
      split
      · rename_i hlive
        rw [if_pos hlive] at hmarks
        show (memory.live.erase ref).filter _ = memory.live.filter _
        rw [List.erase_eq_eraseP]
        refine filter_eraseP_of_disjoint (fun other hother => ?_) memory.live
        rw [isPresent, Bool.not_eq_false']
        exact (hmarks other).2 (.inr ⟨beq_iff_eq.1 hother, rfl⟩)
      · rfl

theorem Orderly.filter_step (h : memory.Orderly) {operation : Operation}
    (hquiet : operation.neitherDrainsNorResets = true) :
    (memory.step operation).2.live.filter (memory.step operation).2.isPresent =
      memory.live.filter (memory.step operation).2.isPresent := by
  unfold FlatMemory.step
  split
  · cases operation with
    | remove ref => exact h.filter_remove ref
    | make type overrides => exact congrArg (List.filter _) (memory.live_make type overrides)
    | set ref field value => exact congrArg (List.filter _) (memory.live_writeTo ref _)
    | setMany ref values => exact congrArg (List.filter _) (memory.live_writeTo ref _)
    | drain | drainSince seen timeout arrivals | drainBlocking timeout arrivals | reset => cases hquiet
    | register template | create id type fields | enqueue ref | wake | snapshot => rfl
  · rfl

theorem Orderly.filter_run (h : memory.Orderly) {operations : List Operation}
    (hmade : ∀ operation ∈ operations, operation.entersByMake = true)
    (hfew : memory.issued + (operations.map Operation.makes).sum < 2 ^ 64)
    (hquiet : ∀ operation ∈ operations, operation.neitherDrainsNorResets = true) :
    (memory.run operations).2.live.filter (memory.run operations).2.isPresent =
      memory.live.filter (memory.run operations).2.isPresent := by
  induction operations generalizing memory with
  | nil => rfl
  | cons operation operations ih =>
      obtain ⟨hfirst, hrest⟩ := List.forall_mem_cons.1 hmade
      obtain ⟨hquiet, hquiets⟩ := List.forall_mem_cons.1 hquiet
      obtain ⟨horderly, hfew⟩ := h.step hfirst hfew
      set next := (memory.step operation).2
      set last := (next.run operations).2
      -- what is there at the end was there after the first operation
      have hnarrow (refs : List FactRef) :
          (refs.filter next.isPresent).filter last.isPresent = refs.filter last.isPresent := by
        rw [List.filter_filter]
        refine List.filter_congr fun ref _ => ?_
        rw [Bool.and_eq_left_iff_imp]
        exact isPresent_of_run
      calc last.live.filter last.isPresent
          _ = next.live.filter last.isPresent := ih horderly hrest hfew hquiets
          _ = (next.live.filter next.isPresent).filter last.isPresent := (hnarrow _).symm
          _ = (memory.live.filter next.isPresent).filter last.isPresent := by rw [h.filter_step hquiet]
          _ = memory.live.filter last.isPresent := hnarrow _

end FlatMemory

namespace Store

/-- The candidates that are still there stand for the facts that are not retracted. -/
theorem candidates_filter_present (store : Store) (refs : List FactRef) :
    (store.candidates refs).filter Candidate.present =
      store.candidates (refs.filter fun ref => !(store.fact? ref).any (·.retracted)) := by
  rw [candidates, candidates, List.filter_filterMap, List.filterMap_filter]
  refine List.filterMap_congr fun ref _ => ?_
  cases store.fact? ref with
  | none => rfl
  | some fact => cases hretracted : fact.retracted <;> simp [Option.filter, Candidate.present, hretracted]

theorem present_view (store : Store) (snapshot : Snapshot) (type : String) :
    (store.view snapshot).present type =
      store.candidates ((snapshot.get type).filter fun ref => !(store.fact? ref).any (·.retracted)) :=
  store.candidates_filter_present _

end Store

/-- A held snapshot and a fresh one list the same facts that are not retracted, in the same order. -/
theorem Session.present_view_held (before after : List Operation)
    (hmade : ∀ operation ∈ before ++ after, operation.entersByMake = true)
    (hfew : ((before ++ after).map Operation.makes).sum < 2 ^ 64)
    (hquiet : ∀ operation ∈ after, operation.neitherDrainsNorResets = true) :
    let held := (({} : Session).run before).2.store.snapshot
    let store := (({} : Session).run (before ++ after)).2.store
    (store.view held).present = (store.view store.snapshot).present := by
  intro held store
  obtain ⟨hmade, hmade'⟩ := List.forall_mem_append.1 hmade
  rw [List.map_append, List.sum_append] at hfew
  obtain ⟨horderly, hissued⟩ := FlatMemory.orderly_run hmade (by omega)
  have htaken := (SessionRepresents.empty.run before).2.store
  have hnow := (SessionRepresents.empty.run (before ++ after)).2.store
  have hkept := FlatMemory.keepsIdentity_run (({} : FlatMemory).run before).2 after
  have hlive := horderly.filter_run hmade' (by omega) hquiet
  rw [FlatMemory.run_append] at hnow
  set memory := (({} : FlatMemory).run before).2
  set changed := (memory.run after).2
  have hlisted (type : String) : held.get type = memory.live.filter (changed.hasType type) := by
    rw [FlatMemory.filter_hasType_of_keepsIdentity hkept
      fun ref href => htaken.known ref (List.mem_append_right _ href)]
    exact htaken.live type
  have hfresh (type : String) : store.snapshot.get type = changed.live.filter (changed.hasType type) := hnow.live type
  have hpresent : (fun ref => !(store.fact? ref).any (·.retracted)) = changed.isPresent := by
    funext ref
    rw [hnow.fact?_eq]
    rfl
  funext type
  rw [Store.present_view, Store.present_view, hpresent, hlisted, hfresh, List.filter_comm, ← hlive, List.filter_comm]

/-- **A held snapshot matches like a fresh one.** Take a snapshot of working memory whose facts were all made there, and
let facts be removed and written to, but none come to life: no drain and no reset. Then on the held snapshot, which
still lists the removed facts, every rule is searched as on a snapshot taken now, under every budget: the same facts and
bindings are found, or none, and the same number of frames is popped. Less than `2 ^ 64` facts may be asked for. -/
theorem held_snapshot_matches_like_fresh (before after : List Operation)
    (hmade : ∀ operation ∈ before ++ after, operation.entersByMake = true)
    (hfew : ((before ++ after).map Operation.makes).sum < 2 ^ 64)
    (hquiet : ∀ operation ∈ after, operation.neitherDrainsNorResets = true)
    (source : RuleInstance) (budget : Option Nat) :
    let held := (({} : Session).run before).2.store.snapshot
    let store := (({} : Session).run (before ++ after)).2.store
    source.rule.search budget (store.view held) = source.rule.search budget (store.view store.snapshot) ∧
      source.match? budget (store.view held) = source.match? budget (store.view store.snapshot) := by
  intro held store
  have hsearch : source.rule.search budget (store.view held) =
      source.rule.search budget (store.view store.snapshot) := by
    rw [← Rule.search_present, Session.present_view_held before after hmade hfew hquiet, Rule.search_present]
  exact ⟨hsearch, by rw [RuleInstance.match?, RuleInstance.match?, hsearch]⟩

/-- Two parts of one kind. -/
def likeParts : RuleInstance where
  serial := 0
  rule :=
    { name := "like"
      conditions := [⟨"part", [("kind", .variable "$kind")]⟩, ⟨"part", [("kind", .variable "$kind")]⟩] }

/-- Four live parts of different kinds. -/
def fourParts : List Operation :=
  .register ⟨"part", [("kind", .nil)]⟩ ::
    (["bolt", "nut", "pin", "rod"].map fun kind => .make "part" [("kind", .str kind)]) ++ [.drain]

/-- The first part is removed and the last one becomes of the kind of the third. The held snapshot lists four parts, a
fresh one three, and on both the third and the last part are found, in the same number of frames. -/
theorem held_snapshot_matches_like_fresh_fourParts :
    let changes : List Operation := [.remove ⟨0⟩, .set ⟨3⟩ "kind" (.str "pin")]
    let held := (({} : Session).run fourParts).2.store.snapshot
    let store := (({} : Session).run (fourParts ++ changes)).2.store
    (∀ operation ∈ fourParts ++ changes, operation.entersByMake = true) ∧
      ((fourParts ++ changes).map Operation.makes).sum < 2 ^ 64 ∧
      (∀ operation ∈ changes, operation.neitherDrainsNorResets = true) ∧
      held.get "part" = [⟨0⟩, ⟨1⟩, ⟨2⟩, ⟨3⟩] ∧ store.snapshot.get "part" = [⟨1⟩, ⟨2⟩, ⟨3⟩] ∧
      (∀ budget, likeParts.rule.search budget (store.view held) =
        likeParts.rule.search budget (store.view store.snapshot)) ∧
      (likeParts.rule.search none (store.view held)).finding? =
        some ⟨[⟨2⟩, ⟨3⟩], Dictionary.empty.insert "$kind" (.str "pin")⟩ := by
  intro changes held store
  have hmade : ∀ operation ∈ fourParts ++ changes, operation.entersByMake = true := by
    simp [changes, fourParts, Operation.entersByMake]
  have hfew : ((fourParts ++ changes).map Operation.makes).sum < 2 ^ 64 := by decide
  have hquiet : ∀ operation ∈ changes, operation.neitherDrainsNorResets = true := by
    simp [changes, Operation.neitherDrainsNorResets]
  have hfound : Goal.solve (likeParts.rule.goals (store.view held)) [] Dictionary.empty =
      some ⟨[⟨2⟩, ⟨3⟩], Dictionary.empty.insert "$kind" (.str "pin")⟩ := by decide +kernel
  refine ⟨hmade, hfew, hquiet, by decide +kernel, by decide +kernel, fun budget => ?_, ?_⟩
  · exact (held_snapshot_matches_like_fresh fourParts changes hmade hfew hquiet likeParts budget).1
  · rw [Rule.search, Search.finding?_start_none]
    exact hfound

end ProductionSystem
