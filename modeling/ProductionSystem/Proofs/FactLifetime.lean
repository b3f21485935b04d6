import ProductionSystem.Proofs.FactProgress

/-!
The life of a fact. In a history each operation stands beside its answer, so it can be told which removals
have succeeded: an instance is retracted exactly if one of it has, one succeeds exactly while the instance is
live, and none succeeds twice.
-/

namespace ProductionSystem

/-- The fact that a program was given for a make. -/
def Answer.made? : Answer → Option FactRef
  | made (.ok ref) => some ref
  | _ => none

/-- Is the instance at a stage, and nowhere else? A pending one stands in the queue once, a live one once in
the list of its own type. -/
def Store.IsAt (store : Store) (ref : FactRef) : Stage → Prop
  | .pending => store.pending.count ref = 1 ∧ ∀ type, ref ∉ store.get type
  | .live =>
    ref ∉ store.pending ∧ ∃ fact, store.fact? ref = some fact ∧
      (store.get fact.type).count ref = 1 ∧ ∀ type, type ≠ fact.type → ref ∉ store.get type
  | .gone => ref ∉ store.pending ∧ ∀ type, ref ∉ store.get type

namespace FlatMemory

def isRetracted (memory : FlatMemory) (ref : FactRef) : Bool := (memory.fact? ref).any (·.retracted)

/-- A removal marks the instance that it is given, exactly if it succeeds, and no other. -/
theorem isRetracted_remove (memory : FlatMemory) (removed ref : FactRef) :
    (memory.remove removed).2.isRetracted ref = true ↔
      memory.isRetracted ref = true ∨ removed = ref ∧ (memory.remove removed).1 = true := by
  unfold remove
  split
  · simp
  · rename_i fact hfact
    split
    · have hlt : removed.index < memory.instances.size := (Array.getElem?_eq_some_iff.1 hfact).1
      simp only [isRetracted, fact?, update, Array.getElem?_setIfInBounds, and_true]
      by_cases hself : removed = ref
      · subst hself
        simp [hlt]
      · have hindex : removed.index ≠ ref.index := fun heq => hself (congrArg FactRef.mk heq)
        simp [hindex, hself]
    · simp

variable {memory : FlatMemory}

/-- A removal that has succeeded is one of a live fact, which is gone afterwards. -/
theorem of_step_remove {ref : FactRef} (hanswer : (memory.step (.remove ref)).1 = .flag true) :
    (memory.fact? ref).isSome = true ∧ (memory.remove ref).1 = true ∧
      (memory.step (.remove ref)).2 = (memory.remove ref).2 := by
  unfold step at hanswer ⊢
  split at hanswer
  · rename_i hknown
    rw [if_pos hknown]
    exact ⟨hknown, Answer.flag.inj hanswer, rfl⟩
  · cases hanswer

/-- Only a removal marks. -/
theorem keepsMarks_perform (memory : FlatMemory) {operation : Operation}
    (hspares : ∀ ref, operation ≠ .remove ref) :
    KeepsMarks memory.instances (memory.perform operation).2.instances := by
  by_cases hmade : operation.entersByMake = true
  · by_cases hreset : operation = .reset
    · subst hreset
      exact .refl _
    · exact (Carries.perform memory hmade hreset hspares).marks
  · cases operation with
    | create id type fields => exact .push _ rfl
    | enqueue ref => exact .refl _
    | _ => exact absurd rfl hmade

theorem isRetracted_step (memory : FlatMemory) (operation : Operation) (ref : FactRef) :
    (memory.step operation).2.isRetracted ref = true ↔
      memory.isRetracted ref = true ∨ (.remove ref, .flag true) = (operation, (memory.step operation).1) := by
  unfold step
  split
  · by_cases hremove : ∃ removed, operation = .remove removed
    · obtain ⟨removed, rfl⟩ := hremove
      refine (memory.isRetracted_remove removed ref).trans (or_congr_right ?_)
      rw [Prod.mk.injEq, Operation.remove.injEq, eq_comm]
      refine and_congr_right fun _ => ⟨fun h => congrArg Answer.flag h.symm, fun h => ?_⟩
      exact (Answer.flag.inj h).symm
    · have hmark : (memory.perform operation).2.isRetracted ref = memory.isRetracted ref :=
        memory.keepsMarks_perform (fun removed heq => hremove ⟨removed, heq⟩) ref.index
      rw [hmark]
      exact ⟨.inl, fun h => h.resolve_right fun heq => hremove ⟨ref, (Prod.mk.inj heq).1.symm⟩⟩
  · exact ⟨.inl, fun h => h.resolve_right fun heq => nomatch (Prod.mk.inj heq).2⟩

/-- An instance is retracted exactly if it was, or if a removal of it has succeeded since. -/
theorem isRetracted_run (memory : FlatMemory) (operations : List Operation) (ref : FactRef) :
    (memory.run operations).2.isRetracted ref = true ↔
      memory.isRetracted ref = true ∨ (.remove ref, .flag true) ∈ operations.zip (memory.run operations).1 := by
  induction operations generalizing memory with
  | nil => simp [run]
  | cons operation operations ih =>
      rw [run, List.zip_cons_cons, List.mem_cons, ← or_assoc, ← isRetracted_step memory operation]
      exact ih _

/-- A fact leaves memory only by being removed or by a reset. -/
theorem place_step (h : memory.Orderly) {operation : Operation} (hmade : operation.entersByMake = true)
    {ref : FactRef} (hplace : ref ∈ memory.places) :
    ref ∈ (memory.step operation).2.places ∨ operation = .reset ∨
      (.remove ref, .flag true) = (operation, (memory.step operation).1) := by
  unfold step
  split
  · by_cases hreset : operation = .reset
    · exact .inr (.inl hreset)
    · by_cases hremove : ∃ removed, operation = .remove removed
      · obtain ⟨removed, rfl⟩ := hremove
        rcases h.place_remove hplace removed with hkept | ⟨rfl, hremoved⟩
        · exact .inl hkept
        · exact .inr (.inr (congrArg (Operation.remove ref, Answer.flag ·) hremoved.symm))
      · exact .inl ((Carries.perform memory hmade hreset fun removed heq => hremove ⟨removed, heq⟩).kept hplace)
  · exact .inl hplace

/-- An operation keeps memory orderly, and leaves enough ids for those that come after it. -/
theorem Orderly.step (h : memory.Orderly) {operation : Operation} {operations : List Operation}
    (hmade : operation.entersByMake = true)
    (hfew : memory.issued + ((operation :: operations).map Operation.makes).sum < 2 ^ 64) :
    (memory.step operation).2.Orderly ∧
      (memory.step operation).2.issued + (operations.map Operation.makes).sum < 2 ^ 64 := by
  have hstep := memory.proceeds_step hmade
  have hissued := hstep.issued
  rw [List.map_cons, List.sum_cons] at hfew
  exact ⟨hstep.orderly h (by omega), by omega⟩

theorem place_run (h : memory.Orderly) {operations : List Operation}
    (hmade : ∀ operation ∈ operations, operation.entersByMake = true)
    (hfew : memory.issued + (operations.map Operation.makes).sum < 2 ^ 64) {ref : FactRef}
    (hplace : ref ∈ memory.places) :
    ref ∈ (memory.run operations).2.places ∨ .reset ∈ operations ∨
      (.remove ref, .flag true) ∈ operations.zip (memory.run operations).1 := by
  induction operations generalizing memory with
  | nil => exact .inl hplace
  | cons operation operations ih =>
      rw [List.forall_mem_cons] at hmade
      obtain ⟨horderly, hfew⟩ := h.step hmade.1 hfew
      rw [run, List.zip_cons_cons, List.mem_cons, List.mem_cons]
      rcases place_step h hmade.1 hplace with hkept | rfl | hremoved
      · rcases ih horderly hmade.2 hfew hkept with hlast | hreset | hremoved
        · exact .inl hlast
        · exact .inr (.inl (.inr hreset))
        · exact .inr (.inr (.inr hremoved))
      · exact .inr (.inl (.inl rfl))
      · exact .inr (.inr (.inl hremoved))

/-- A fact that is gone is not removed again. -/
theorem not_removed_of_gone (h : memory.Orderly) {operations : List Operation}
    (hmade : ∀ operation ∈ operations, operation.entersByMake = true)
    (hfew : memory.issued + (operations.map Operation.makes).sum < 2 ^ 64) {ref : FactRef}
    (hknown : (memory.fact? ref).isSome = true) (hgone : memory.stage ref = .gone) :
    (.remove ref, .flag true) ∉ operations.zip (memory.run operations).1 := by
  induction operations generalizing memory with
  | nil => simp [run]
  | cons operation operations ih =>
      rw [List.forall_mem_cons] at hmade
      obtain ⟨horderly, hfew⟩ := h.step hmade.1 hfew
      rw [run, List.zip_cons_cons, List.mem_cons, not_or]
      constructor
      · intro heq
        obtain ⟨rfl, hanswer⟩ := Prod.mk.inj heq
        have hlive := (h.remove_fst_iff hknown).1 (of_step_remove hanswer.symm).2.1
        rw [← h.stage_eq_live_iff, hgone] at hlive
        cases hlive
      · have hstill := isSome_fact?_of_keepsIdentity (memory.keepsIdentity_step operation) hknown
        refine ih horderly hmade.2 hfew hstill ?_
        exact (memory.proceeds_step hmade.1).stage_eq_gone (lt_size_of_isSome hknown) hgone

/-- No fact is removed twice. -/
theorem pairwise_removed (h : memory.Orderly) {operations : List Operation}
    (hmade : ∀ operation ∈ operations, operation.entersByMake = true)
    (hfew : memory.issued + (operations.map Operation.makes).sum < 2 ^ 64) (ref : FactRef) :
    (operations.zip (memory.run operations).1).Pairwise fun a b =>
      ¬(a = (.remove ref, .flag true) ∧ b = (.remove ref, .flag true)) := by
  induction operations generalizing memory with
  | nil => exact .nil
  | cons operation operations ih =>
      rw [List.forall_mem_cons] at hmade
      obtain ⟨horderly, hfew⟩ := h.step hmade.1 hfew
      rw [run, List.zip_cons_cons, List.pairwise_cons]
      refine ⟨?_, ih horderly hmade.2 hfew⟩
      rintro later hlater ⟨heq, rfl⟩
      obtain ⟨rfl, hanswer⟩ := Prod.mk.inj heq
      obtain ⟨hknown, hremoved, hafter⟩ := of_step_remove hanswer
      have hgone : (memory.step (.remove ref)).2.stage ref = .gone := by
        rw [hafter]
        exact h.stage_remove hknown hremoved
      have hstill := isSome_fact?_of_keepsIdentity (memory.keepsIdentity_step (.remove ref)) hknown
      exact not_removed_of_gone horderly hmade.2 hfew hstill hgone hlater

/-- A fact that a make has returned is the newest instance, and is queued. -/
theorem of_made_step (memory : FlatMemory) {operation : Operation} {ref : FactRef}
    (h : (memory.step operation).1.made? = some ref) :
    ref.index = memory.instances.size ∧ memory.instances.size < (memory.step operation).2.instances.size ∧
      ref ∈ (memory.step operation).2.queue := by
  unfold step at h ⊢
  split at h
  · rename_i hsubject
    rw [if_pos hsubject]
    cases operation with
    | make type overrides =>
        simp only [perform, make] at h ⊢
        split at h
        · cases h
        · split at h
          · cases h
          · obtain rfl := Option.some.inj h
            exact ⟨rfl, Array.size_push _ ▸ Nat.lt_succ_self _, List.mem_concat_self⟩
    | drainSince seen timeout arrivals | drainBlocking timeout arrivals =>
        simp only [perform, drainSince] at h
        split at h
        · split at h <;> cases h
        · cases h
    | _ => cases h
  · cases h

/-- What a make returned last is queued. -/
theorem mem_queue_of_made (memory : FlatMemory) {operations : List Operation} {ref : FactRef}
    (hlast : (memory.run operations).1.getLast? = some (.made (.ok ref))) : ref ∈ (memory.run operations).2.queue := by
  induction operations generalizing memory with
  | nil => cases hlast
  | cons operation operations ih =>
      cases operations with
      | nil => exact (memory.of_made_step (congrArg Answer.made? (Option.some.inj hlast))).2.2
      | cons next operations => exact ih _ hlast

/-- The facts that makes return are new ones, each entered after the one before. -/
theorem made_run (memory : FlatMemory) {operations : List Operation}
    (hmade : ∀ operation ∈ operations, operation.entersByMake = true) :
    let made := (memory.run operations).1.filterMap Answer.made?
    made.Pairwise (fun a b => a.index < b.index) ∧
      ∀ ref ∈ made, memory.instances.size ≤ ref.index ∧ ref.index < (memory.run operations).2.instances.size := by
  induction operations generalizing memory with
  | nil => simp [run]
  | cons operation operations ih =>
      rw [List.forall_mem_cons] at hmade
      obtain ⟨hpairwise, hbounds⟩ := ih (memory.step operation).2 hmade.2
      have hsize := (memory.proceeds_step hmade.1).size
      have hlast := ((memory.step operation).2.proceeds_run hmade.2).size
      have hwider : ∀ ref ∈ (((memory.step operation).2.run operations).1.filterMap Answer.made?),
          memory.instances.size ≤ ref.index ∧
            ref.index < ((memory.step operation).2.run operations).2.instances.size :=
        fun ref href => ⟨Nat.le_trans hsize (hbounds ref href).1, (hbounds ref href).2⟩
      rw [run]
      cases hanswer : (memory.step operation).1.made? with
      | none =>
          rw [List.filterMap_cons_none hanswer]
          exact ⟨hpairwise, hwider⟩
      | some ref =>
          obtain ⟨hindex, hgrown, -⟩ := memory.of_made_step hanswer
          rw [List.filterMap_cons_some hanswer]
          refine ⟨List.pairwise_cons.2 ⟨fun other hother => ?_, hpairwise⟩, List.forall_mem_cons.2 ⟨?_, hwider⟩⟩
          · rw [hindex]
            exact Nat.lt_of_lt_of_le hgrown (hbounds other hother).1
          · rw [hindex]
            exact ⟨Nat.le_refl _, Nat.lt_of_lt_of_le hgrown hlast⟩

theorem isSome_fact?_of_made (memory : FlatMemory) {operations : List Operation}
    (hmade : ∀ operation ∈ operations, operation.entersByMake = true) {ref : FactRef}
    (href : .made (.ok ref) ∈ (memory.run operations).1) :
    ((memory.run operations).2.fact? ref).isSome = true := by
  have hmem : ref ∈ (memory.run operations).1.filterMap Answer.made? := List.mem_filterMap.2 ⟨_, href, rfl⟩
  have hlt := ((memory.made_run hmade).2 ref hmem).2
  rw [fact?, Array.getElem?_eq_getElem hlt, Option.isSome_some]

/-- In orderly memory the ids ascend from instance to instance. -/
theorem Orderly.pairwise_instances (h : memory.Orderly) :
    memory.instances.toList.Pairwise fun a b => a.id.number < b.id.number := by
  rw [List.pairwise_iff_getElem]
  intro i j hi hj hij
  refine UInt64.lt_iff_toNat_lt.2 (h.ascending i j _ _ hij ?_ ?_)
  · exact Array.getElem?_eq_getElem hi
  · exact Array.getElem?_eq_getElem hj

/-- The ids of the facts that makes return ascend in the order of the makes. -/
theorem Orderly.pairwise_made {operations : List Operation} (h : (memory.run operations).2.Orderly)
    (hmade : ∀ operation ∈ operations, operation.entersByMake = true) :
    ((memory.run operations).1.filterMap Answer.made?).Pairwise fun a b => ∃ fact other,
      (memory.run operations).2.fact? a = some fact ∧ (memory.run operations).2.fact? b = some other ∧
        fact.id.number < other.id.number := by
  obtain ⟨hpairwise, hbounds⟩ := memory.made_run hmade
  refine hpairwise.imp_of_mem fun {a b} ha hb hlt => ?_
  have hfact := Array.getElem?_eq_getElem (hbounds a ha).2
  have hother := Array.getElem?_eq_getElem (hbounds b hb).2
  exact ⟨_, _, hfact, hother, UInt64.lt_iff_toNat_lt.2 (h.ascending _ _ _ _ hlt hfact hother)⟩

/-- Memory that began empty is orderly, and has issued no more ids than it was asked for. -/
theorem orderly_run {operations : List Operation}
    (hmade : ∀ operation ∈ operations, operation.entersByMake = true)
    (hfew : (operations.map Operation.makes).sum < 2 ^ 64) :
    (({} : FlatMemory).run operations).2.Orderly ∧
      (({} : FlatMemory).run operations).2.issued ≤ (operations.map Operation.makes).sum := by
  obtain ⟨-, -, -, hissued, horderly⟩ := proceeds_run {} hmade
  rw [show ({} : FlatMemory).issued = 0 from rfl, Nat.zero_add] at hissued horderly
  exact ⟨horderly .empty hfew, hissued⟩

end FlatMemory

/-- A store shows at which stage a fact instance is. -/
theorem Represents.isAt_iff {store : Store} {memory : FlatMemory} (h : Represents store memory)
    (horderly : memory.Orderly) {ref : FactRef} (hknown : (memory.fact? ref).isSome = true) (stage : Stage) :
    store.IsAt ref stage ↔ memory.stage ref = stage := by
  obtain ⟨fact, hfact⟩ := Option.isSome_iff_exists.1 hknown
  have hlisted : ∀ type, ref ∈ store.get type ↔ ref ∈ memory.live ∧ fact.type = type := by
    intro type
    rw [h.live, FlatMemory.get, List.mem_filter, FlatMemory.hasType, hfact, Option.any_some, decide_eq_true_iff]
  have hqueue : memory.queue.Nodup := (List.nodup_append.1 horderly.once).1
  have hlive : memory.live.Nodup := (List.nodup_append.1 horderly.once).2.1
  cases stage with
  | pending =>
      rw [memory.stage_eq_pending_iff, Store.IsAt, h.pending]
      constructor
      · rintro ⟨hcount, -⟩
        exact List.count_pos_iff.1 (hcount ▸ Nat.one_pos)
      · intro hmem
        refine ⟨List.count_eq_one_of_mem hqueue hmem, fun type hget => ?_⟩
        exact horderly.not_live_of_pending hmem ((hlisted type).1 hget).1
  | live =>
      rw [horderly.stage_eq_live_iff, Store.IsAt, h.pending, h.fact?_eq]
      constructor
      · rintro ⟨-, other, -, hcount, -⟩
        exact ((hlisted other.type).1 (List.count_pos_iff.1 (hcount ▸ Nat.one_pos))).1
      · intro hmem
        refine ⟨fun hpending => horderly.not_live_of_pending hpending hmem, fact, hfact, ?_, ?_⟩
        · have honce : (store.get fact.type).Nodup := by
            rw [h.live]
            exact hlive.filter _
          exact List.count_eq_one_of_mem honce ((hlisted fact.type).2 ⟨hmem, rfl⟩)
        · intro type htype hget
          exact htype ((hlisted type).1 hget).2.symm
  | gone =>
      rw [memory.stage_eq_gone_iff, FlatMemory.places, List.mem_append, not_or, Store.IsAt, h.pending]
      refine and_congr_right fun _ => ⟨fun hnowhere hmem => ?_, fun hdead type hget => ?_⟩
      · exact hnowhere fact.type ((hlisted fact.type).2 ⟨hmem, rfl⟩)
      · exact hdead ((hlisted type).1 hget).1

/-- **No fact is lost, duplicated or revived.** Take any history of a new store in which facts enter only by
being made, fewer than 2 ^ 64 of them, and any moment of it. What makes have returned are known instances, and
the one returned last is pending; ids increase in the order of the makes, from instance to instance. Each instance
is pending, live or gone, and in one place only; it never turns back, and it goes only by its removal or a reset. It
is retracted exactly if a removal of it has succeeded. That happens exactly if it is live, and so at most once. -/
theorem facts_move_forward (before after : List Operation)
    (hmade : ∀ operation ∈ before ++ after, operation.entersByMake = true)
    (hfew : ((before ++ after).map Operation.makes).sum < 2 ^ 64) :
    let answers := (({} : Session).run before).1
    let earlier := (({} : Session).run before).2
    let allAnswers := (({} : Session).run (before ++ after)).1
    let later := (({} : Session).run (before ++ after)).2
    (∀ ref, .made (.ok ref) ∈ answers → (earlier.store.fact? ref).isSome = true) ∧
    (∀ ref, answers.getLast? = some (.made (.ok ref)) → earlier.store.IsAt ref .pending) ∧
    ((allAnswers.filterMap Answer.made?).Pairwise fun a b => ∃ fact other,
      later.store.fact? a = some fact ∧ later.store.fact? b = some other ∧ fact.id.number < other.id.number) ∧
    (later.store.facts.toList.Pairwise fun a b => a.id.number < b.id.number) ∧
    ∀ ref, (earlier.store.fact? ref).isSome = true →
      (∃! stage, earlier.store.IsAt ref stage) ∧
      (∀ stage stage', earlier.store.IsAt ref stage → later.store.IsAt ref stage' → stage.rank ≤ stage'.rank) ∧
      (later.store.IsAt ref .gone → earlier.store.IsAt ref .gone ∨ .reset ∈ after ∨
        (.remove ref, .flag true) ∈ after.zip (earlier.run after).1) ∧
      ((earlier.store.fact? ref).any (·.retracted) = true ↔ (.remove ref, .flag true) ∈ before.zip answers) ∧
      ((earlier.store.remove ref).1 = true ↔ earlier.store.IsAt ref .live) ∧
      (before.zip answers).Pairwise fun a b =>
        ¬(a = (.remove ref, .flag true) ∧ b = (.remove ref, .flag true)) := by
  let memory : FlatMemory := (({} : FlatMemory).run before).2
  obtain ⟨hanswers, hsession⟩ := SessionRepresents.empty.run before
  obtain ⟨hallAnswers, hsession'⟩ := SessionRepresents.empty.run (before ++ after)
  have hlast : (({} : FlatMemory).run (before ++ after)).2 = (memory.run after).2 := FlatMemory.run_append _ _ _
  obtain ⟨hbefore, hafter⟩ := List.forall_mem_append.1 hmade
  have hsum : (before.map Operation.makes).sum + (after.map Operation.makes).sum < 2 ^ 64 := by
    rw [← List.sum_append, ← List.map_append]
    exact hfew
  obtain ⟨horderly, hissued⟩ := FlatMemory.orderly_run hbefore (by omega)
  have horderly' := (FlatMemory.orderly_run hmade hfew).1
  have hstore : Represents (({} : Session).run before).2.store memory := hsession.store
  have hstore' := hsession'.store
  refine ⟨fun ref href => ?_, fun ref hlast => ?_, ?_, ?_, fun ref hknown => ?_⟩
  · rw [hanswers] at href
    rw [hstore.fact?_eq]
    exact FlatMemory.isSome_fact?_of_made {} hbefore href
  · have hlast : (({} : FlatMemory).run before).1.getLast? = some (.made (.ok ref)) := hanswers ▸ hlast
    have hknown := FlatMemory.isSome_fact?_of_made {} hbefore (List.mem_of_getLast? hlast)
    refine (hstore.isAt_iff horderly hknown .pending).2 ((memory.stage_eq_pending_iff ref).2 ?_)
    exact FlatMemory.mem_queue_of_made {} hlast
  · show List.Pairwise _ ((({} : Session).run (before ++ after)).1.filterMap Answer.made?)
    rw [hallAnswers]
    simp only [hstore'.fact?_eq]
    exact horderly'.pairwise_made hmade
  · show List.Pairwise _ (({} : Session).run (before ++ after)).2.store.facts.toList
    rw [hstore'.facts]
    exact horderly'.pairwise_instances
  · have hknown' : (memory.fact? ref).isSome = true := hstore.fact?_eq ref ▸ hknown
    have hstill : ((({} : FlatMemory).run (before ++ after)).2.fact? ref).isSome = true := by
      rw [hlast]
      exact FlatMemory.isSome_fact?_of_keepsIdentity (memory.keepsIdentity_run after) hknown'
    have hat := hstore.isAt_iff horderly hknown'
    have hat' := hstore'.isAt_iff horderly' hstill
    refine ⟨⟨memory.stage ref, (hat _).2 rfl, fun stage hstage => ((hat stage).1 hstage).symm⟩, ?_, ?_, ?_, ?_, ?_⟩
    · intro stage stage' hstage hstage'
      rw [← (hat stage).1 hstage, ← (hat' stage').1 hstage', hlast]
      exact (memory.proceeds_run hafter).rank_stage_le (FlatMemory.lt_size_of_isSome hknown')
    · intro hgone
      rw [hat', hlast, FlatMemory.stage_eq_gone_iff] at hgone
      rw [hat, FlatMemory.stage_eq_gone_iff, (hsession.run after).1]
      by_cases hplace : ref ∈ memory.places
      · exact .inr ((FlatMemory.place_run horderly hafter (by omega) hplace).resolve_left hgone)
      · exact .inl hplace
    · show Option.any _ ((({} : Session).run before).2.store.fact? ref) = true ↔
        _ ∈ before.zip (({} : Session).run before).1
      rw [hstore.fact?_eq, hanswers]
      refine (FlatMemory.isRetracted_run {} before ref).trans ⟨fun h => ?_, .inr⟩
      exact h.resolve_left Bool.false_ne_true
    · rw [(hstore.remove ref).1, horderly.remove_fst_iff hknown', hat, horderly.stage_eq_live_iff]
    · show List.Pairwise _ (before.zip (({} : Session).run before).1)
      rw [hanswers]
      exact FlatMemory.pairwise_removed .empty hbefore (by show 0 + _ < _; omega) ref

/-- A block that is removed, and another one beside it. -/
def blockHistory : List Operation :=
  [.register ⟨"block", []⟩, .make "block" [], .drain, .make "block" [], .remove ⟨0⟩]

/-- The theorem applies to that history, also if a reset follows. The second block is pending when it has been made. -/
theorem facts_move_forward_blockHistory :
    let answers := (({} : Session).run blockHistory).1
    let session := (({} : Session).run blockHistory).2
    (∀ operation ∈ blockHistory ++ [Operation.reset], operation.entersByMake = true) ∧
      ((blockHistory ++ [Operation.reset]).map Operation.makes).sum < 2 ^ 64 ∧
      (({} : Session).run (blockHistory.take 4)).2.store.IsAt ⟨1⟩ .pending ∧
      (.remove ⟨0⟩, .flag true) ∈ blockHistory.zip answers ∧
      (session.store.fact? ⟨0⟩).any (·.retracted) = true := by
  have hmade : ∀ operation ∈ blockHistory ++ [Operation.reset], operation.entersByMake = true := by
    simp [blockHistory, Operation.entersByMake]
  have hfew : ((blockHistory ++ [Operation.reset]).map Operation.makes).sum < 2 ^ 64 := by decide
  have hremoved : (.remove ⟨0⟩, .flag true) ∈ blockHistory.zip (({} : Session).run blockHistory).1 :=
    List.mem_of_getElem? (i := 4) rfl
  obtain ⟨-, hpending, -⟩ := facts_move_forward (blockHistory.take 4) [.remove ⟨0⟩, .reset] hmade hfew
  obtain ⟨-, -, -, -, hfacts⟩ := facts_move_forward blockHistory [.reset] hmade hfew
  obtain ⟨-, -, -, hretracted, -⟩ := hfacts ⟨0⟩ rfl
  exact ⟨hmade, hfew, hpending ⟨1⟩ rfl, hremoved, hretracted.2 hremoved⟩

end ProductionSystem
