import Mathlib.Algebra.GroupWithZero.Nat
import Mathlib.Data.List.Nodup
import Mathlib.Data.List.Perm.Subperm
import ProductionSystem.Proofs.MemoryRefinement

/-!
The order of facts in working memory. Memory is orderly if no instance stands in two places and the ids ascend
in the order in which the instances were entered. Then the first live fact of an id is the only one, so a
removal deletes the very instance that it marks.
-/

namespace ProductionSystem

/-- Where a fact instance is on its way through working memory. -/
inductive Stage where
  | pending
  | live
  | gone
  deriving DecidableEq

/-- How far a stage is on the way. -/
def Stage.rank : Stage → Nat
  | pending => 0
  | live => 1
  | gone => 2

/-- Only what a test says of the elements decides which one is deleted. -/
theorem eraseP_congr {α : Type} {p q : α → Bool} {l : List α} (h : ∀ a ∈ l, p a = q a) :
    l.eraseP p = l.eraseP q := by
  induction l with
  | nil => rfl
  | cons a l ih =>
      rw [List.forall_mem_cons] at h
      rw [List.eraseP_cons, List.eraseP_cons, h.1, ih h.2]

namespace FlatMemory

/-- The instances that stand in the queue or are live. -/
def places (memory : FlatMemory) : List FactRef := memory.queue ++ memory.live

def stage (memory : FlatMemory) (ref : FactRef) : Stage :=
  if ref ∈ memory.queue then .pending else if ref ∈ memory.live then .live else .gone

theorem stage_eq_pending_iff (memory : FlatMemory) (ref : FactRef) :
    memory.stage ref = .pending ↔ ref ∈ memory.queue := by
  unfold stage
  split
  · rename_i hqueue
    exact iff_of_true rfl hqueue
  · rename_i hqueue
    refine iff_of_false ?_ hqueue
    split <;> exact nofun

theorem stage_eq_gone_iff (memory : FlatMemory) (ref : FactRef) :
    memory.stage ref = .gone ↔ ref ∉ memory.places := by
  rw [places, List.mem_append, not_or]
  unfold stage
  split
  · rename_i hqueue
    exact iff_of_false nofun fun hneither => hneither.1 hqueue
  · rename_i hqueue
    split
    · rename_i hlive
      exact iff_of_false nofun fun hneither => hneither.2 hlive
    · rename_i hlive
      exact iff_of_true rfl ⟨hqueue, hlive⟩

/-- No instance stands in two places, and the ids ascend from instance to instance. -/
structure Orderly (memory : FlatMemory) : Prop where
  once : memory.places.Nodup
  known : ∀ ref ∈ memory.places, ref.index < memory.instances.size
  issued : ∀ (index : Nat) (fact : Fact), memory.instances[index]? = some fact →
    fact.id.number.toNat < memory.issued
  ascending : ∀ (i j : Nat) (a b : Fact), i < j → memory.instances[i]? = some a →
    memory.instances[j]? = some b → a.id.number.toNat < b.id.number.toNat

namespace Orderly

variable {memory : FlatMemory}

theorem empty : Orderly {} where
  once := .nil
  known := by simp [places]
  issued := by simp
  ascending := by simp

/-- Only queue and live facts have changed, and none of them is new. -/
theorem of_subperm (h : memory.Orderly) {changed : FlatMemory}
    (hinstances : changed.instances = memory.instances) (hissued : changed.issued = memory.issued)
    (hplaces : changed.places.Subperm memory.places) :
    changed.Orderly where
  once := by
    obtain ⟨places, hperm, hsublist⟩ := hplaces
    exact hperm.nodup_iff.1 (h.once.sublist hsublist)
  known := by
    rw [hinstances]
    exact fun ref href => h.known ref (hplaces.subset href)
  issued := by
    rw [hinstances, hissued]
    exact h.issued
  ascending := by
    rw [hinstances]
    exact h.ascending

/-- Instances have been written to, but kept their ids. -/
theorem withInstances (h : memory.Orderly) {instances : Array Fact}
    (hkept : KeepsIdentity memory.instances instances) (hsize : instances.size = memory.instances.size) :
    Orderly { memory with instances } := by
  have hbefore : ∀ (index : Nat) (kept : Fact), instances[index]? = some kept →
      ∃ fact, memory.instances[index]? = some fact ∧ fact.id = kept.id := by
    intro index kept hfact
    have hlt : index < memory.instances.size := hsize ▸ (Array.getElem?_eq_some_iff.1 hfact).1
    obtain ⟨other, hother, hid, -⟩ := hkept index _ (Array.getElem?_eq_getElem hlt)
    rw [hfact, Option.some.injEq] at hother
    exact ⟨_, Array.getElem?_eq_getElem hlt, hother ▸ hid.symm⟩
  refine ⟨h.once, fun ref href => ?_, fun index fact hfact => ?_, fun i j a b hij ha hb => ?_⟩
  · show ref.index < instances.size
    rw [hsize]
    exact h.known ref href
  · obtain ⟨old, hold, hid⟩ := hbefore index fact hfact
    rw [← hid]
    exact h.issued index old hold
  · obtain ⟨old, hold, hid⟩ := hbefore i a ha
    obtain ⟨old', hold', hid'⟩ := hbefore j b hb
    rw [← hid, ← hid']
    exact h.ascending i j old old' hij hold hold'

/-- A new instance has an id above all others, as long as the counter has not come round. -/
theorem made (h : memory.Orderly) (hfew : memory.issued + 1 < 2 ^ 64) {fact : Fact}
    (hid : fact.id = ⟨.ofNat memory.issued⟩) :
    Orderly
      { memory with
        instances := memory.instances.push fact
        queue := memory.queue ++ [⟨memory.instances.size⟩]
        issued := memory.issued + 1
        signals := memory.signals + 1 } := by
  have hnumber : fact.id.number.toNat = memory.issued := by
    rw [hid]
    exact UInt64.toNat_ofNat_of_lt' (Nat.lt_of_succ_lt hfew)
  have hsize : (memory.instances.push fact).size = memory.instances.size + 1 := Array.size_push _
  let new : FactRef := ⟨memory.instances.size⟩
  have hnew : new ∉ memory.places := fun hmem => Nat.lt_irrefl _ (h.known _ hmem)
  have hcases : ∀ (index : Nat) (other : Fact), (memory.instances.push fact)[index]? = some other →
      memory.instances[index]? = some other ∨ index = memory.instances.size ∧ other = fact := by
    intro index other hother
    rw [Array.getElem?_push] at hother
    split at hother
    · rename_i hindex
      exact .inr ⟨hindex, (Option.some.inj hother).symm⟩
    · exact .inl hother
  have hplaces : (memory.queue ++ [new] ++ memory.live).Perm (new :: memory.places) := by
    rw [List.append_assoc]
    exact List.perm_middle
  refine ⟨hplaces.nodup_iff.2 (List.nodup_cons.2 ⟨hnew, h.once⟩), fun ref href => ?_,
    fun index other hother => ?_, fun i j a b hij ha hb => ?_⟩
  · show ref.index < (memory.instances.push fact).size
    rw [hsize]
    rcases List.mem_cons.1 (hplaces.mem_iff.1 href) with rfl | hold
    · exact Nat.lt_succ_self _
    · exact Nat.lt_succ_of_lt (h.known ref hold)
  · rcases hcases index other hother with hold | ⟨-, rfl⟩
    · exact Nat.lt_succ_of_lt (h.issued index other hold)
    · rw [hnumber]
      exact Nat.lt_succ_self _
  · rcases hcases i a ha with hold | ⟨rfl, -⟩
    · rcases hcases j b hb with hold' | ⟨-, rfl⟩
      · exact h.ascending i j a b hij hold hold'
      · rw [hnumber]
        exact h.issued i a hold
    · have hj : j < (memory.instances.push fact).size := (Array.getElem?_eq_some_iff.1 hb).1
      omega

/-- No instance has a twin beside itself. -/
theorem isTwin_iff (h : memory.Orderly) {ref other : FactRef} {fact : Fact}
    (hfact : memory.fact? ref = some fact) (hknown : other.index < memory.instances.size) :
    memory.isTwin fact other = true ↔ other = ref := by
  have hother : memory.fact? other = some memory.instances[other.index] := Array.getElem?_eq_getElem hknown
  rw [isTwin, hother, Option.any_some, Bool.and_eq_true, decide_eq_true_iff, decide_eq_true_iff]
  constructor
  · rintro ⟨-, hid⟩
    rcases Nat.lt_trichotomy other.index ref.index with hlt | heq | hlt
    · have hless := h.ascending _ _ _ _ hlt hother hfact
      rw [hid] at hless
      exact (Nat.lt_irrefl _ hless).elim
    · obtain ⟨index⟩ := other
      obtain ⟨index'⟩ := ref
      exact congrArg FactRef.mk heq
    · have hless := h.ascending _ _ _ _ hlt hfact hother
      rw [hid] at hless
      exact (Nat.lt_irrefl _ hless).elim
  · rintro rfl
    rw [hfact, Option.some.injEq] at hother
    rw [hother]
    exact ⟨rfl, rfl⟩

theorem not_live_of_pending (h : memory.Orderly) {ref : FactRef} (hqueue : ref ∈ memory.queue) :
    ref ∉ memory.live :=
  fun hlive => (List.nodup_append.1 h.once).2.2 ref hqueue ref hlive rfl

theorem stage_eq_live_iff (h : memory.Orderly) (ref : FactRef) :
    memory.stage ref = .live ↔ ref ∈ memory.live := by
  unfold stage
  split
  · rename_i hqueue
    exact ⟨nofun, fun hlive => (h.not_live_of_pending hqueue hlive).elim⟩
  · split
    · rename_i hlive
      exact ⟨fun _ => hlive, fun _ => rfl⟩
    · rename_i hdead
      exact ⟨nofun, fun hlive => (hdead hlive).elim⟩

/-- A removal concerns the instance itself: if that is live, it is deleted and marked, else nothing changes. -/
theorem remove_eq (h : memory.Orderly) {ref : FactRef} {fact : Fact} (hfact : memory.fact? ref = some fact) :
    memory.remove ref =
      if ref ∈ memory.live then
        (true, { memory with live := memory.live.erase ref }.update ref { fact with retracted := true })
      else (false, memory) := by
  have htwin : ∀ peer ∈ memory.live, memory.isTwin fact peer = (peer == ref) := by
    intro peer hpeer
    rw [Bool.eq_iff_iff, h.isTwin_iff hfact (h.known peer (List.mem_append_right _ hpeer)), beq_iff_eq]
  have hany : memory.live.any (memory.isTwin fact) = true ↔ ref ∈ memory.live := by
    rw [List.any_eq_true]
    constructor
    · rintro ⟨peer, hpeer, hpeers⟩
      rw [htwin peer hpeer, beq_iff_eq] at hpeers
      rwa [hpeers] at hpeer
    · intro hlive
      exact ⟨ref, hlive, by rw [htwin ref hlive, beq_self_eq_true]⟩
  have herase : memory.live.eraseP (memory.isTwin fact) = memory.live.erase ref := by
    rw [List.erase_eq_eraseP', eraseP_congr htwin]
  unfold remove
  rw [hfact]
  dsimp only
  rw [herase]
  exact if_congr hany rfl rfl

/-- A removal succeeds exactly for live facts. -/
theorem remove_fst_iff (h : memory.Orderly) {ref : FactRef} (hknown : (memory.fact? ref).isSome = true) :
    (memory.remove ref).1 = true ↔ ref ∈ memory.live := by
  obtain ⟨fact, hfact⟩ := Option.isSome_iff_exists.1 hknown
  rw [h.remove_eq hfact]
  split
  · rename_i hlive
    exact iff_of_true rfl hlive
  · rename_i hdead
    exact iff_of_false nofun hdead

/-- A fact that was removed is gone. -/
theorem stage_remove (h : memory.Orderly) {ref : FactRef} (hknown : (memory.fact? ref).isSome = true)
    (hremoved : (memory.remove ref).1 = true) : (memory.remove ref).2.stage ref = .gone := by
  have hlive := (h.remove_fst_iff hknown).1 hremoved
  obtain ⟨fact, hfact⟩ := Option.isSome_iff_exists.1 hknown
  rw [h.remove_eq hfact, if_pos hlive]
  have hqueue : ref ∉ memory.queue := fun hqueue => h.not_live_of_pending hqueue hlive
  have hgone : ref ∉ memory.live.erase ref := (List.nodup_append.1 h.once).2.1.not_mem_erase
  exact (if_neg hqueue).trans (if_neg hgone)

/-- A removal takes no other fact out of memory than the one that it is given. -/
theorem place_remove (h : memory.Orderly) {ref : FactRef} (hplace : ref ∈ memory.places) (removed : FactRef) :
    ref ∈ (memory.remove removed).2.places ∨ ref = removed ∧ (memory.remove removed).1 = true := by
  cases hfact : memory.fact? removed with
  | none =>
      left
      unfold remove
      rw [hfact]
      exact hplace
  | some fact =>
      rw [h.remove_eq hfact]
      split
      · by_cases hself : ref = removed
        · exact .inr ⟨hself, rfl⟩
        · left
          refine List.mem_append.2 ((List.mem_append.1 hplace).imp_right fun hlive => ?_)
          exact (List.mem_erase_of_ne hself).2 hlive
      · exact .inl hplace

end Orderly

end FlatMemory

end ProductionSystem
