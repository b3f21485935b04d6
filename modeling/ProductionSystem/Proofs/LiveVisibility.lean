import ProductionSystem.Proofs.FactLifetime
import ProductionSystem.Proofs.SnapshotMatch

/-!
Which live facts a rule sees. A removal takes a fact off the list of its type and marks it, and the search asks for
both: a candidate is listed and not marked. A mark is for good, but a list is not: an instance that is enqueued again
after its removal, or was enqueued twice before it, is listed as live and seen by no rule. Where facts enter only by
being made, nothing in memory is marked, and what is live is seen.
-/

namespace ProductionSystem

namespace FlatMemory

variable {memory : FlatMemory}

/-- Is nothing that is pending or live retracted? -/
def Unmarked (memory : FlatMemory) : Prop := ∀ ref ∈ memory.places, memory.isRetracted ref = false

theorem lt_size_of_isRetracted {ref : FactRef} (h : memory.isRetracted ref = true) :
    ref.index < memory.instances.size := by
  obtain ⟨fact, hfact, -⟩ := (Option.any_eq_true _ _).1 h
  exact (Array.getElem?_eq_some_iff.1 hfact).1

/-- What an operation marks is gone from memory, and what was marked does not come back. -/
theorem Unmarked.step (hunmarked : memory.Unmarked) (h : memory.Orderly) {operation : Operation}
    (hmade : operation.entersByMake = true) : (memory.step operation).2.Unmarked := by
  intro ref hplace
  rw [Bool.eq_false_iff]
  intro hretracted
  rcases (memory.isRetracted_step operation ref).1 hretracted with hbefore | hremoved
  · have hmem := (memory.proceeds_step hmade).places ref hplace (lt_size_of_isRetracted hbefore)
    rw [hunmarked ref hmem] at hbefore
    cases hbefore
  · obtain ⟨rfl, hanswer⟩ := Prod.mk.inj hremoved
    obtain ⟨hknown, hlive, hafter⟩ := of_step_remove hanswer.symm
    rw [hafter] at hplace
    exact (stage_eq_gone_iff _ _).1 (h.stage_remove hknown hlive) hplace

theorem Unmarked.run (hunmarked : memory.Unmarked) (h : memory.Orderly) {operations : List Operation}
    (hmade : ∀ operation ∈ operations, operation.entersByMake = true)
    (hfew : memory.issued + (operations.map Operation.makes).sum < 2 ^ 64) :
    (memory.run operations).2.Unmarked := by
  induction operations generalizing memory with
  | nil => exact hunmarked
  | cons operation operations ih =>
      rw [List.forall_mem_cons] at hmade
      obtain ⟨horderly, hfew⟩ := h.step hmade.1 hfew
      exact ih (hunmarked.step h hmade.1) horderly hmade.2 hfew

end FlatMemory

/-- A rule with one condition and no test matches exactly if a fact is listed that is not retracted. -/
theorem RuleInstance.isSome_match?_iff_of_asks {source : RuleInstance} {store : Store} {snapshot : Snapshot}
    {type : String} (hasks : source.rule.conditions = [⟨type, []⟩]) (htyped : snapshot.Typed store) :
    (source.match? none (store.view snapshot)).isSome = true ↔
      ∃ ref ∈ snapshot.get type, (store.fact? ref).any (·.retracted) = false := by
  simp only [isSome_match?_iff_of_condition hasks, Store.view, Store.mem_candidates_iff]
  constructor
  · rintro ⟨candidate, ⟨href, hfact⟩, hunretracted, -⟩
    exact ⟨candidate.ref, href, by rw [hfact, Option.any_some, hunretracted]⟩
  · rintro ⟨ref, href, hpresent⟩
    obtain ⟨fact, hfact, htype⟩ := htyped type ref href
    rw [hfact, Option.any_some] at hpresent
    exact ⟨⟨ref, fact⟩, ⟨href, hfact⟩, hpresent, fun _ => .nil, htype, fun _ htest => (List.not_mem_nil htest).elim⟩

/-- **What a rule sees of the live facts.** Take any history of a new store, and a rule whose only condition names a
type and tests nothing. On a snapshot taken at the end it matches if and only if the store lists a fact of the type
that no removal has succeeded on: it never matches if nothing is listed, and it passes over what is listed exactly if
removals of all of it have succeeded before. Where facts enter only by being made, fewer than `2 ^ 64` of them, it
matches if and only if anything of the type is live. -/
theorem live_type_matches_iff (operations : List Operation) (type : String) {source : RuleInstance}
    (hasks : source.rule.conditions = [⟨type, []⟩]) :
    let answers := (({} : Session).run operations).1
    let store := (({} : Session).run operations).2.store
    ((source.match? none (store.view store.snapshot)).isSome = true ↔
      ∃ ref ∈ store.get type, (.remove ref, .flag true) ∉ operations.zip answers) ∧
    ((∀ operation ∈ operations, operation.entersByMake = true) → (operations.map Operation.makes).sum < 2 ^ 64 →
      ((source.match? none (store.view store.snapshot)).isSome = true ↔ store.get type ≠ [])) := by
  intro answers store
  obtain ⟨hanswers, hsession⟩ := SessionRepresents.empty.run operations
  have hstore := hsession.store
  have htyped : store.snapshot.Typed store := by simpa using Session.typed_snapshot operations []
  have hsees := RuleInstance.isSome_match?_iff_of_asks hasks htyped
  have hmarked (ref : FactRef) :
      (store.fact? ref).any (·.retracted) = (({} : FlatMemory).run operations).2.isRetracted ref := by
    rw [hstore.fact?_eq]
    rfl
  simp only [hmarked] at hsees
  refine ⟨hsees.trans (exists_congr fun ref => and_congr_right fun _ => ?_), fun hmade hfew => hsees.trans ?_⟩
  · rw [Bool.eq_false_iff, ne_eq, FlatMemory.isRetracted_run]
    refine not_congr ⟨fun h => ?_, fun h => .inr ?_⟩
    · show _ ∈ operations.zip (({} : Session).run operations).1
      rw [hanswers]
      exact h.resolve_left Bool.false_ne_true
    · rw [← hanswers]
      exact h
  · have hunmarked : (({} : FlatMemory).run operations).2.Unmarked :=
      FlatMemory.Unmarked.run (fun _ href => (List.not_mem_nil href).elim) .empty hmade (by show 0 + _ < _; omega)
    rw [ne_eq, List.eq_nil_iff_forall_not_mem, not_forall_not]
    refine exists_congr fun ref => and_iff_left_of_imp fun href => hunmarked ref ?_
    have hlive : ref ∈ (({} : FlatMemory).run operations).2.get type := hstore.live type ▸ href
    exact List.mem_append_right _ (List.mem_filter.1 hlive).1

/-- A rule that asks for a part. -/
def anyPart : RuleInstance where
  serial := 0
  rule := { name := "any", conditions := [⟨"part", []⟩] }

/-- A part that is removed, and another one that comes in its place. -/
def replacedPart : List Operation :=
  [.register ⟨"part", []⟩, .make "part" [], .drain, .remove ⟨0⟩, .make "part" [], .drain]

/-- The new part is live, and seen. -/
theorem live_type_matches_iff_replacedPart :
    let answers := (({} : Session).run replacedPart).1
    let store := (({} : Session).run replacedPart).2.store
    anyPart.rule.conditions = [⟨"part", []⟩] ∧ (.remove ⟨0⟩, .flag true) ∈ replacedPart.zip answers ∧
      (∀ operation ∈ replacedPart, operation.entersByMake = true) ∧
      (replacedPart.map Operation.makes).sum < 2 ^ 64 ∧ store.get "part" = [⟨1⟩] ∧
      (anyPart.match? none (store.view store.snapshot)).isSome = true := by
  intro answers store
  have hmade : ∀ operation ∈ replacedPart, operation.entersByMake = true := by
    simp [replacedPart, Operation.entersByMake]
  have hfew : (replacedPart.map Operation.makes).sum < 2 ^ 64 := by decide
  have hlive : store.get "part" = [⟨1⟩] := rfl
  have hmatches := (@live_type_matches_iff replacedPart "part" anyPart rfl).2 hmade hfew
  exact ⟨rfl, List.mem_of_getElem? (i := 3) rfl, hmade, hfew, hlive, hmatches.2 (hlive ▸ List.cons_ne_nil _ _)⟩

/-- The part that was removed is enqueued again. -/
def returnedPart : List Operation :=
  [.register ⟨"part", []⟩, .make "part" [], .drain, .remove ⟨0⟩, .enqueue ⟨0⟩, .drain]

/-- A part is enqueued twice and removed once. -/
def doubledPart : List Operation :=
  [.register ⟨"part", []⟩, .make "part" [], .enqueue ⟨0⟩, .drain, .remove ⟨0⟩]

/-- **A fact that comes back is live and not seen.** The store lists it, and would tell its next removal that it is live,
but the rule that asks for any fact of the type does not match: it is retracted for good. The same goes for a fact that
is listed twice and was removed once. -/
theorem returned_fact_is_not_matched :
    let returned := (({} : Session).run returnedPart).2.store
    let doubled := (({} : Session).run doubledPart).2.store
    (returned.get "part" = [⟨0⟩] ∧ (returned.remove ⟨0⟩).1 = true ∧
      ¬((anyPart.match? none (returned.view returned.snapshot)).isSome = true ↔ returned.get "part" ≠ [])) ∧
    doubled.get "part" = [⟨0⟩] ∧ (doubled.remove ⟨0⟩).1 = true ∧
      ¬((anyPart.match? none (doubled.view doubled.snapshot)).isSome = true ↔ doubled.get "part" ≠ []) := by
  intro returned doubled
  have hreturned : anyPart.match? none (returned.view returned.snapshot) = none := by
    rw [RuleInstance.match?_none]
    rfl
  have hdoubled : anyPart.match? none (doubled.view doubled.snapshot) = none := by
    rw [RuleInstance.match?_none]
    rfl
  refine ⟨⟨rfl, rfl, ?_⟩, rfl, rfl, ?_⟩
  · rw [hreturned]
    decide
  · rw [hdoubled]
    decide

end ProductionSystem
