import ProductionSystem.Proofs.FactOrder

/-!
The progress of facts. Where facts enter memory only by being made, an instance is first pending, then live and
at last gone: it may skip a stage, but never turns back, since no operation brings a known instance to the queue.
Order is kept as long as ids are not used up; only a removal or a reset takes a fact out of memory.
-/

namespace ProductionSystem

/-- How many facts a signal asks for. -/
def Signal.makes : Signal → Nat
  | make _ _ => 1
  | wake | halt => 0

namespace Operation

/-- Does the operation bring no fact into memory other than by making it? -/
def entersByMake : Operation → Bool
  | create _ _ _ | enqueue _ => false
  | _ => true

/-- How many facts an operation asks for, those that others make during a wait included. -/
def makes : Operation → Nat
  | make _ _ => 1
  | drainSince _ _ arrivals | drainBlocking _ arrivals => (arrivals.map (·.signal.makes)).sum
  | _ => 0

end Operation

namespace Fact

theorem retracted_of_set {fact changed : Fact} {field : String} {value : Value}
    (h : fact.set field value = .ok changed) : changed.retracted = fact.retracted := by
  unfold set at h
  split at h
  · rw [← Except.ok.inj h]
  · cases h

theorem retracted_of_setMany {fact changed : Fact} {values : List (String × Value)}
    (h : fact.setMany values = .ok changed) : changed.retracted = fact.retracted := by
  unfold setMany at h
  split at h
  · cases h
  · rw [← Except.ok.inj h]

end Fact

/-- A new fact has the id that it is given, and is not retracted. -/
theorem Template.of_instantiate {template : Template} {id : FactId} {overrides : List (String × Value)}
    {fact : Fact} (h : template.instantiate id overrides = .ok fact) :
    fact.id = id ∧ fact.retracted = false := by
  unfold instantiate at h
  cases hfields : override template.type template.defaults overrides with
  | error e =>
      rw [hfields] at h
      cases h
  | ok fields =>
      rw [hfields] at h
      rw [← Except.ok.inj h]
      exact ⟨rfl, rfl⟩

namespace FlatMemory

/-- What becomes of memory while nothing enters it but so many facts that are asked for: no known instance
comes back to the queue or to the live facts, and order is kept. -/
structure Proceeds (memory changed : FlatMemory) (makes : Nat) : Prop where
  size : memory.instances.size ≤ changed.instances.size
  queue : ∀ ref ∈ changed.queue, ref.index < memory.instances.size → ref ∈ memory.queue
  places : ∀ ref ∈ changed.places, ref.index < memory.instances.size → ref ∈ memory.places
  issued : changed.issued ≤ memory.issued + makes
  orderly : memory.Orderly → memory.issued + makes < 2 ^ 64 → changed.Orderly

namespace Proceeds

variable {memory changed : FlatMemory} {makes : Nat}

theorem refl (memory : FlatMemory) (makes : Nat) : Proceeds memory memory makes where
  size := Nat.le_refl _
  queue := fun _ href _ => href
  places := fun _ href _ => href
  issued := Nat.le_add_right _ _
  orderly := fun h _ => h

theorem trans {next : FlatMemory} {makes' : Nat} (h : Proceeds memory changed makes)
    (h' : Proceeds changed next makes') : Proceeds memory next (makes + makes') where
  size := Nat.le_trans h.size h'.size
  queue := fun ref href hknown => h.queue ref (h'.queue ref href (Nat.lt_of_lt_of_le hknown h.size)) hknown
  places := fun ref href hknown => h.places ref (h'.places ref href (Nat.lt_of_lt_of_le hknown h.size)) hknown
  issued := by
    have := h.issued
    have := h'.issued
    omega
  orderly := fun horderly hfew => by
    have := h.issued
    exact h'.orderly (h.orderly horderly (by omega)) (by omega)

/-- Without new instances it is enough that the places are some of the old ones. -/
theorem of_subperm (hinstances : changed.instances = memory.instances) (hissued : changed.issued = memory.issued)
    (hqueue : changed.queue ⊆ memory.queue) (hplaces : changed.places.Subperm memory.places) :
    Proceeds memory changed 0 where
  size := Nat.le_of_eq (congrArg Array.size hinstances.symm)
  queue := fun _ href _ => hqueue href
  places := fun _ href _ => hplaces.subset href
  issued := Nat.le_of_eq hissued
  orderly := fun h _ => h.of_subperm hinstances hissued hplaces

theorem update {ref : FactRef} {fact written : Fact} (hfact : memory.fact? ref = some fact)
    (hid : written.id = fact.id) (htype : written.type = fact.type) :
    Proceeds memory (memory.update ref written) 0 where
  size := Nat.le_of_eq Array.size_setIfInBounds.symm
  queue := fun _ href _ => href
  places := fun _ href _ => href
  issued := Nat.le_refl _
  orderly := fun h _ => h.withInstances (.setIfInBounds hfact hid htype) Array.size_setIfInBounds

/-- A known instance never turns back. -/
theorem rank_stage_le (h : Proceeds memory changed makes) {ref : FactRef}
    (hknown : ref.index < memory.instances.size) : (memory.stage ref).rank ≤ (changed.stage ref).rank := by
  by_cases hqueue : ref ∈ memory.queue
  · rw [stage, if_pos hqueue]
    exact Nat.zero_le _
  · have hnever : ref ∉ changed.queue := fun hback => hqueue (h.queue ref hback hknown)
    by_cases hlive : ref ∈ memory.live
    · rw [stage, if_neg hqueue, if_pos hlive, stage, if_neg hnever]
      split
      · exact Nat.le_refl _
      · exact Nat.le_succ _
    · have hgone : ref ∉ changed.live := by
        intro hback
        rcases List.mem_append.1 (h.places ref (List.mem_append_right _ hback) hknown) with hmem | hmem
        · exact hqueue hmem
        · exact hlive hmem
      refine Nat.le_of_eq ?_
      rw [stage, if_neg hqueue, if_neg hlive, stage, if_neg hnever, if_neg hgone]

theorem stage_eq_gone (h : Proceeds memory changed makes) {ref : FactRef}
    (hknown : ref.index < memory.instances.size) (hgone : memory.stage ref = .gone) :
    changed.stage ref = .gone := by
  have hrank := h.rank_stage_le hknown
  rw [hgone] at hrank
  cases hstage : changed.stage ref with
  | gone => rfl
  | pending | live =>
      rw [hstage] at hrank
      simp [Stage.rank] at hrank

end Proceeds

theorem lt_size_of_isSome {memory : FlatMemory} {ref : FactRef} (hknown : (memory.fact? ref).isSome = true) :
    ref.index < memory.instances.size := by
  obtain ⟨fact, hfact⟩ := Option.isSome_iff_exists.1 hknown
  exact (Array.getElem?_eq_some_iff.1 hfact).1

end FlatMemory

/-- Is every instance retracted or not as it was? -/
def KeepsMarks (before after : Array Fact) : Prop :=
  ∀ index : Nat, after[index]?.any (·.retracted) = before[index]?.any (·.retracted)

namespace KeepsMarks

theorem refl (facts : Array Fact) : KeepsMarks facts facts := fun _ => rfl

theorem trans {first second third : Array Fact} (h : KeepsMarks first second)
    (h' : KeepsMarks second third) : KeepsMarks first third := fun index => (h' index).trans (h index)

theorem push (facts : Array Fact) {new : Fact} (hnew : new.retracted = false) :
    KeepsMarks facts (facts.push new) := by
  intro index
  rw [Array.getElem?_push]
  split
  · rename_i hindex
    rw [hindex, Array.getElem?_eq_none (Nat.le_refl _), Option.any_some, Option.any_none]
    exact hnew
  · rfl

theorem setIfInBounds {facts : Array Fact} {index : Nat} {fact changed : Fact}
    (hfact : facts[index]? = some fact) (hmark : changed.retracted = fact.retracted) :
    KeepsMarks facts (facts.setIfInBounds index changed) := by
  intro other
  rw [Array.getElem?_setIfInBounds]
  split
  · rename_i heq
    subst heq
    rw [if_pos (Array.getElem?_eq_some_iff.1 hfact).1, hfact, Option.any_some, Option.any_some]
    exact hmark
  · rfl

end KeepsMarks

namespace FlatMemory

/-- Memory proceeds, and no fact leaves it or is marked. -/
structure Carries (memory changed : FlatMemory) (makes : Nat) : Prop extends Proceeds memory changed makes where
  kept : memory.places ⊆ changed.places
  marks : KeepsMarks memory.instances changed.instances

namespace Carries

theorem refl (memory : FlatMemory) (makes : Nat) : Carries memory memory makes :=
  ⟨.refl memory makes, List.Subset.refl _, .refl _⟩

theorem trans {first second third : FlatMemory} {makes makes' : Nat} (h : Carries first second makes)
    (h' : Carries second third makes') : Carries first third (makes + makes') :=
  ⟨h.toProceeds.trans h'.toProceeds, List.Subset.trans h.kept h'.kept, h.marks.trans h'.marks⟩

theorem make (memory : FlatMemory) (type : String) (overrides : List (String × Value)) :
    Carries memory (memory.make type overrides).2 1 := by
  unfold FlatMemory.make
  split
  · exact refl memory 1
  · dsimp only
    split
    · have hissued : Proceeds memory { memory with issued := memory.issued + 1 } 1 :=
        { Proceeds.refl memory 1 with
          issued := Nat.le_refl _
          orderly := fun h _ => { h with
            issued := fun index fact hfact => Nat.lt_succ_of_lt (h.issued index fact hfact) } }
      exact ⟨hissued, List.Subset.refl _, .refl _⟩
    · rename_i fact hfact
      obtain ⟨hid, hmark⟩ := Template.of_instantiate hfact
      have hqueue : ∀ ref ∈ memory.queue ++ [⟨memory.instances.size⟩], ref.index < memory.instances.size →
          ref ∈ memory.queue := by
        intro ref href hknown
        rcases List.mem_append.1 href with hmem | hmem
        · exact hmem
        · rw [List.mem_singleton.1 hmem] at hknown
          exact (Nat.lt_irrefl _ hknown).elim
      refine ⟨⟨?_, hqueue, fun ref href hknown => ?_, Nat.le_refl _, fun h hfew => h.made hfew hid⟩,
        fun ref href => ?_, .push _ hmark⟩
      · show _ ≤ (memory.instances.push fact).size
        rw [Array.size_push]
        exact Nat.le_succ _
      · exact List.mem_append.2 ((List.mem_append.1 href).imp_left fun hmem => hqueue ref hmem hknown)
      · exact List.mem_append.2 ((List.mem_append.1 href).imp_left (List.mem_append_left _))

theorem signal (memory : FlatMemory) : Carries memory memory.wake 0 :=
  ⟨.of_subperm rfl rfl (List.Subset.refl _) (.refl _), List.Subset.refl _, .refl _⟩

theorem drain (memory : FlatMemory) : Carries memory memory.drain.2 0 := by
  have hplaces : memory.drain.2.places.Perm memory.places := by
    show (memory.live ++ memory.queue).Perm (memory.queue ++ memory.live)
    exact List.perm_append_comm
  exact ⟨.of_subperm rfl rfl (List.nil_subset _) hplaces.subperm, hplaces.symm.subset, .refl _⟩

theorem writeTo (memory : FlatMemory) (ref : FactRef) {write : Fact → Except ErrorKind Fact}
    (hwrite : ∀ fact written, write fact = .ok written →
      (written.id = fact.id ∧ written.type = fact.type) ∧ written.retracted = fact.retracted) :
    Carries memory (memory.writeTo ref write).2 0 := by
  unfold FlatMemory.writeTo
  split
  · exact refl memory 0
  · rename_i fact hfact
    split
    · rename_i written hwritten
      obtain ⟨⟨hid, htype⟩, hmark⟩ := hwrite fact written hwritten
      exact ⟨.update hfact hid htype, List.Subset.refl _, .setIfInBounds hfact hmark⟩
    · exact refl memory 0

theorem receive (memory : FlatMemory) (signal : Signal) :
    Carries memory (memory.receive signal) signal.makes := by
  cases signal with
  | make type overrides => exact make memory type overrides
  | wake => exact Carries.signal memory
  | halt => exact Carries.signal memory

theorem await (memory : FlatMemory) (seen : UInt64) (deadline : Option Nat) (arrivals : List Arrival) :
    Carries memory (memory.await seen deadline arrivals).2 (arrivals.map (·.signal.makes)).sum := by
  induction arrivals generalizing memory with
  | nil => exact refl memory 0
  | cons arrival later ih =>
      have hreceived := receive memory arrival.signal
      rw [List.map_cons, List.sum_cons]
      simp only [FlatMemory.await]
      split
      · split
        · exact hreceived.trans (ih _)
        · exact hreceived.trans (refl _ _)
      · exact refl memory _

theorem drainSince (memory : FlatMemory) (seen : UInt64) (timeout : Option Nat) (arrivals : List Arrival) :
    Carries memory (memory.drainSince seen timeout arrivals).2 (arrivals.map (·.signal.makes)).sum := by
  have hwaited := await memory seen timeout arrivals
  simp only [FlatMemory.drainSince]
  split
  · split
    · exact hwaited.trans (drain _)
    · exact hwaited
  · exact (refl memory _).trans (drain memory)

/-- Only a removal or a reset can take a fact out of memory, and only a removal marks. -/
theorem perform (memory : FlatMemory) {operation : Operation} (hmade : operation.entersByMake = true)
    (hkeeps : operation ≠ .reset) (hspares : ∀ ref, operation ≠ .remove ref) :
    Carries memory (memory.perform operation).2 operation.makes := by
  cases operation with
  | register template => exact ⟨.of_subperm rfl rfl (List.Subset.refl _) (.refl _), List.Subset.refl _, .refl _⟩
  | make type overrides => exact make memory type overrides
  | create id type fields => cases hmade
  | enqueue ref => cases hmade
  | wake => exact signal memory
  | drain => exact drain memory
  | drainSince seen timeout arrivals => exact drainSince memory seen timeout arrivals
  | drainBlocking timeout arrivals => exact drainSince memory memory.epoch timeout arrivals
  | remove ref => exact absurd rfl (hspares ref)
  | set ref field value =>
      exact writeTo memory ref fun _ _ h => ⟨Fact.identity_of_set h, Fact.retracted_of_set h⟩
  | setMany ref values =>
      exact writeTo memory ref fun _ _ h => ⟨Fact.identity_of_setMany h, Fact.retracted_of_setMany h⟩
  | snapshot => exact ⟨.of_subperm rfl rfl (List.Subset.refl _) (.refl _), List.Subset.refl _, .refl _⟩
  | reset => exact absurd rfl hkeeps

end Carries

theorem proceeds_remove (memory : FlatMemory) (ref : FactRef) : Proceeds memory (memory.remove ref).2 0 := by
  unfold remove
  split
  · exact .refl memory 0
  · rename_i fact hfact
    split
    · have herased : Proceeds memory { memory with live := memory.live.eraseP (memory.isTwin fact) } 0 :=
        .of_subperm rfl rfl (List.Subset.refl _) (List.eraseP_sublist.append_left memory.queue).subperm
      have hmarked : Proceeds { memory with live := memory.live.eraseP (memory.isTwin fact) }
          ({ memory with live := memory.live.eraseP (memory.isTwin fact) }.update ref
            { fact with retracted := true }) 0 := .update hfact rfl rfl
      exact herased.trans hmarked
    · exact .refl memory 0

theorem proceeds_step (memory : FlatMemory) {operation : Operation} (hmade : operation.entersByMake = true) :
    Proceeds memory (memory.step operation).2 operation.makes := by
  unfold step
  split
  · by_cases hreset : operation = .reset
    · subst hreset
      exact .of_subperm rfl rfl (List.nil_subset _) List.nil_subperm
    · by_cases hremove : ∃ ref, operation = .remove ref
      · obtain ⟨ref, rfl⟩ := hremove
        exact proceeds_remove memory ref
      · exact (Carries.perform memory hmade hreset fun ref heq => hremove ⟨ref, heq⟩).toProceeds
  · exact .refl memory _

theorem proceeds_run (memory : FlatMemory) {operations : List Operation}
    (hmade : ∀ operation ∈ operations, operation.entersByMake = true) :
    Proceeds memory (memory.run operations).2 (operations.map Operation.makes).sum := by
  induction operations generalizing memory with
  | nil => exact .refl memory 0
  | cons operation operations ih =>
      rw [List.forall_mem_cons] at hmade
      rw [List.map_cons, List.sum_cons]
      exact (memory.proceeds_step hmade.1).trans (ih _ hmade.2)

end FlatMemory

end ProductionSystem
