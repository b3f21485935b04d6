import ProductionSystem.Proofs.FactOrder
import ProductionSystem.Proofs.FactShapes

/-!
What has changed in working memory, told by three lists: the facts that were removed, those that were made, and the
writes to fields. Changes come one after the other by the lists of each. A removal removes the fact that it is given
as long as no other live fact has its id; and that stays so however many facts are made, as none of those is live.
-/

namespace ProductionSystem

/-- A write to the fields of a fact. -/
abbrev Write := FactRef × List (String × Value)

/-- Fields of a fact after writes to it and to other facts. -/
def Fact.rewritten (ref : FactRef) (writes : List Write) (fields : Fields) : Fields :=
  writes.foldl (fun fields write => if write.1 = ref then overwrite fields write.2 else fields) fields

theorem Fact.rewritten_append (ref : FactRef) (writes later : List Write) (fields : Fields) :
    rewritten ref (writes ++ later) fields = rewritten ref later (rewritten ref writes fields) := List.foldl_append

/-- Writes to other facts change nothing. -/
theorem Fact.rewritten_of_others {ref : FactRef} {writes : List Write} (h : ∀ write ∈ writes, write.1 ≠ ref)
    (fields : Fields) : rewritten ref writes fields = fields := by
  induction writes with
  | nil => rfl
  | cons write writes ih =>
      obtain ⟨hwrite, hwrites⟩ := List.forall_mem_cons.1 h
      rw [rewritten, List.foldl_cons, if_neg hwrite]
      exact ih hwrites

namespace Store

/-- The other store comes of the store by removals, makes and writes. What is removed leaves the live facts, which stay
in their order; what is made waits to become live; the templates stay, and so does everything about a fact but the
values of its fields and whether it is retracted. -/
structure Changed (store after : Store) (removed made : List FactRef) (writes : List Write) : Prop where
  live : ∀ type, after.get type = (store.get type).filter (· ∉ removed)
  pending : after.pending = store.pending ++ made
  fresh : ∀ ref ∈ made, store.facts.size ≤ ref.index
  size : store.facts.size ≤ after.facts.size
  templates : after.templates = store.templates
  facts : ∀ ref fact, store.fact? ref = some fact → ∃ kept, after.fact? ref = some kept ∧ kept.id = fact.id ∧
    kept.type = fact.type ∧ kept.fields = Fact.rewritten ref writes fact.fields

namespace Changed

variable {store after : Store}

/-- Facts, live facts, queue and templates are the same. -/
theorem of_same (hlive : after.live = store.live) (hpending : after.pending = store.pending)
    (htemplates : after.templates = store.templates) (hfacts : after.facts = store.facts) :
    store.Changed after [] [] [] where
  live type := by
    rw [get, hlive, ← get]
    simp only [List.not_mem_nil, not_false_eq_true, decide_true, List.filter_true]
  pending := by rw [hpending, List.append_nil]
  fresh := List.forall_mem_nil _
  size := Nat.le_of_eq (congrArg Array.size hfacts.symm)
  templates := htemplates
  facts ref fact hfact := by
    rw [fact?, hfacts]
    exact ⟨fact, hfact, rfl, rfl, rfl⟩

theorem refl (store : Store) : store.Changed store [] [] [] := of_same rfl rfl rfl rfl

theorem trans {last : Store} {removed made removed' made' : List FactRef} {writes writes' : List Write}
    (h : store.Changed after removed made writes) (h' : after.Changed last removed' made' writes') :
    store.Changed last (removed ++ removed') (made ++ made') (writes ++ writes') where
  live type := by
    rw [h'.live, h.live, List.filter_filter]
    refine List.filter_congr fun ref _ => ?_
    rw [← Bool.decide_and, decide_eq_decide, List.mem_append, not_or, and_comm]
  pending := by rw [h'.pending, h.pending, List.append_assoc]
  fresh := List.forall_mem_append.2 ⟨h.fresh, fun ref href => Nat.le_trans h.size (h'.fresh ref href)⟩
  size := Nat.le_trans h.size h'.size
  templates := h'.templates.trans h.templates
  facts ref fact hfact := by
    obtain ⟨kept, hkept, hid, htype, hfields⟩ := h.facts ref fact hfact
    obtain ⟨last, hlast, hid', htype', hfields'⟩ := h'.facts ref kept hkept
    refine ⟨last, hlast, hid'.trans hid, htype'.trans htype, ?_⟩
    rw [hfields', hfields, Fact.rewritten_append]

/-- A fact that is not live is in no list. -/
theorem of_not_live {ref : FactRef} (hdead : ∀ type, ref ∉ store.get type) : store.Changed store [ref] [] [] where
  __ := refl store
  live type := by
    refine (List.filter_eq_self.2 fun other hother => decide_eq_true ?_).symm
    exact fun hmem => hdead type (List.mem_singleton.1 hmem ▸ hother)

/-- One fact is written to, and keeps its id and its type. -/
theorem update {ref : FactRef} {fact changed : Fact} {writes : List Write} (hfact : store.fact? ref = some fact)
    (hid : changed.id = fact.id) (htype : changed.type = fact.type)
    (hfields : changed.fields = Fact.rewritten ref writes fact.fields) (hwrites : ∀ write ∈ writes, write.1 = ref) :
    store.Changed (store.update ref changed) [] [] writes where
  live := (refl store).live
  pending := (refl store).pending
  fresh := (refl store).fresh
  size := Nat.le_of_eq (Array.size_setIfInBounds ..).symm
  templates := rfl
  facts other kept hkept := by
    have hat : (store.update ref changed).fact? other =
        if ref = other then some changed else store.fact? other := by
      show (store.facts.setIfInBounds ref.index changed)[other.index]? = _
      have hlt : ref.index < store.facts.size := (Array.getElem?_eq_some_iff.1 hfact).1
      rw [Array.getElem?_setIfInBounds]
      by_cases hself : ref = other
      · rw [if_pos hself, if_pos (congrArg FactRef.index hself), if_pos hlt]
      · have hindex : ref.index ≠ other.index := fun heq => hself (congrArg FactRef.mk heq)
        rw [if_neg hself, if_neg hindex]
        rfl
    rw [hat]
    split
    · rename_i hself
      subst hself
      obtain rfl := Option.some.inj (hfact.symm.trans hkept)
      exact ⟨changed, rfl, hid, htype, hfields⟩
    · rename_i hself
      refine ⟨kept, hkept, rfl, rfl, (Fact.rewritten_of_others (fun write hwrite heq => ?_) _).symm⟩
      exact hself ((hwrites write hwrite).symm.trans heq)

/-- A write that is not refused. -/
theorem setMany {ref : FactRef} {values : List (String × Value)} (hwritten : (store.setMany ref values).1 = .ok ()) :
    store.Changed (store.setMany ref values).2 [] [] [(ref, values)] := by
  unfold Store.setMany at hwritten ⊢
  split
  · rename_i hunknown
    have hsame := refl store
    refine { hsame with facts := fun other fact hfact => ⟨fact, hfact, rfl, rfl, ?_⟩ }
    refine (Fact.rewritten_of_others (List.forall_mem_singleton.2 fun heq => ?_) _).symm
    rw [← heq, hunknown] at hfact
    cases hfact
  · rename_i fact hfact
    split
    · rename_i changed hchanged
      obtain ⟨hid, htype⟩ := Fact.identity_of_setMany hchanged
      refine update hfact hid htype ?_ (List.forall_mem_singleton.2 rfl)
      unfold Fact.setMany at hchanged
      split at hchanged
      · cases hchanged
      · rw [← Except.ok.inj hchanged, Fact.rewritten, List.foldl_cons, if_pos rfl]
        rfl
    · rename_i cause hrefused
      simp only [hfact, hrefused] at hwritten
      cases hwritten

/-- A make that succeeds adds the new fact to the queue, and one that fails none. -/
theorem make (store : Store) (type : String) (overrides : List (String × Value)) :
    store.Changed (store.make type overrides).2 [] (store.make type overrides).1.toOption.toList [] := by
  unfold Store.make
  split
  · exact refl store
  · dsimp only [takeId]
    split
    · exact of_same rfl rfl rfl rfl
    · rename_i new _
      have hsame : store.Changed { store with nextId := store.nextId + 1 } [] [] [] := of_same rfl rfl rfl rfl
      exact { hsame with
        pending := rfl
        fresh := List.forall_mem_singleton.2 (Nat.le_refl _)
        size := Nat.le_trans (Nat.le_succ _) (Nat.le_of_eq (Array.size_push _).symm)
        facts := fun ref fact hfact => ⟨fact, fact?_enter_of_some hfact new, rfl, rfl, rfl⟩ }

end Changed

theorem setMany_of_error {store : Store} {ref : FactRef} {values : List (String × Value)} {cause : ErrorKind}
    (hrefused : (store.setMany ref values).1 = .error cause) : (store.setMany ref values).2 = store := by
  unfold setMany at hrefused ⊢
  split
  · rfl
  · rename_i fact hfact
    split
    · rename_i changed hchanged
      simp only [hfact, hchanged] at hrefused
      cases hrefused
    · rfl

/-- Is every live fact of the type of its list, there once, and the only one with its id among the live facts and the
first instances? -/
structure Tidy (store : Store) (known : Nat) : Prop where
  within : known ≤ store.facts.size
  typed : ∀ type, ∀ ref ∈ store.get type, ∃ fact, store.fact? ref = some fact ∧ fact.type = type
  nodup : ∀ type, (store.get type).Nodup
  unique : ∀ type, ∀ ref ∈ store.get type, ∀ other, other.index < known → ∀ fact fact', store.fact? ref = some fact →
    store.fact? other = some fact' → fact.id = fact'.id → ref = other

namespace Tidy

variable {store after : Store} {known : Nat}

theorem of_changed (h : store.Tidy known) {removed made : List FactRef} {writes : List Write}
    (hchanged : store.Changed after removed made writes) : after.Tidy known where
  within := Nat.le_trans h.within hchanged.size
  typed type ref href := by
    rw [hchanged.live] at href
    obtain ⟨fact, hfact, htype⟩ := h.typed type ref (List.mem_of_mem_filter href)
    obtain ⟨kept, hkept, -, hsame, -⟩ := hchanged.facts ref fact hfact
    exact ⟨kept, hkept, hsame.trans htype⟩
  nodup type := by
    rw [hchanged.live]
    exact (h.nodup type).filter _
  unique type ref href other hother fact fact' hfact hfact' hsame := by
    rw [hchanged.live] at href
    have hlive := List.mem_of_mem_filter href
    have hid {ref : FactRef} {old kept : Fact} (hold : store.fact? ref = some old)
        (hkept : after.fact? ref = some kept) : kept.id = old.id := by
      obtain ⟨same, hat, hid, -⟩ := hchanged.facts ref old hold
      rw [← Option.some.inj (hat.symm.trans hkept)]
      exact hid
    obtain ⟨old, hold, -⟩ := h.typed type ref hlive
    have hlt : other.index < store.facts.size := Nat.lt_of_lt_of_le hother h.within
    have hold' : store.fact? other = some store.facts[other.index] := Array.getElem?_eq_getElem hlt
    refine h.unique type ref hlive other hother old _ hold hold' ?_
    rw [← hid hold hfact, ← hid hold' hfact', hsame]

/-- Orderly memory is tidy. -/
theorem of_represents {memory : FlatMemory} (h : Represents store memory) (horderly : memory.Orderly) :
    store.Tidy store.facts.size where
  within := Nat.le_refl _
  typed type ref href := by
    rw [h.live, FlatMemory.get, List.mem_filter, FlatMemory.hasType, ← h.fact?_eq] at href
    obtain ⟨fact, hfact, htype⟩ := (Option.any_eq_true _ _).1 href.2
    exact ⟨fact, hfact, of_decide_eq_true htype⟩
  nodup type := by
    rw [h.live]
    exact (List.nodup_append.1 horderly.once).2.1.filter _
  unique type ref href other hother fact fact' hfact hfact' hsame := by
    rw [h.fact?_eq] at hfact hfact'
    have hnumber : fact.id.number.toNat = fact'.id.number.toNat := by rw [hsame]
    rcases Nat.lt_trichotomy ref.index other.index with hlt | heq | hlt
    · exact absurd hnumber (Nat.ne_of_lt (horderly.ascending _ _ _ _ hlt hfact hfact'))
    · exact congrArg FactRef.mk heq
    · exact absurd hnumber (Nat.ne_of_gt (horderly.ascending _ _ _ _ hlt hfact' hfact))

/-- The first live fact of its type with the id of a known one is that one, if it is live. -/
theorem eraseP_hasId (h : store.Tidy known) {ref : FactRef} (hknown : ref.index < known) {fact : Fact}
    (hfact : store.fact? ref = some fact) :
    (store.get fact.type).eraseP (store.hasId fact.id) = (store.get fact.type).filter (· ∉ [ref]) := by
  have hpeers : ∀ peer ∈ store.get fact.type, store.hasId fact.id peer = (peer == ref) := by
    intro peer hpeer
    obtain ⟨other, hother, -⟩ := h.typed fact.type peer hpeer
    rw [Bool.eq_iff_iff, beq_iff_eq, hasId, hother, decide_eq_true_iff]
    refine ⟨fun hid => h.unique _ peer hpeer ref hknown other fact hother hfact hid, ?_⟩
    rintro rfl
    rw [Option.some.inj (hother.symm.trans hfact)]
  rw [eraseP_congr hpeers, ← List.erase_eq_eraseP', (h.nodup _).erase_eq_filter]
  refine List.filter_congr fun peer _ => ?_
  rw [bne, Bool.eq_iff_iff, Bool.not_eq_true', beq_eq_false_iff_ne, decide_eq_true_iff, List.mem_singleton]

/-- A removal removes the fact that it is given, if it is live, and no other. -/
theorem remove (h : store.Tidy known) {ref : FactRef} (hknown : ref.index < known) :
    store.Changed (store.remove ref).2 [ref] [] [] := by
  unfold Store.remove
  split
  · rename_i hunknown
    refine .of_not_live fun type hlive => ?_
    obtain ⟨fact, hfact, -⟩ := h.typed type ref hlive
    rw [hunknown] at hfact
    cases hfact
  · rename_i fact hfact
    dsimp only
    split
    · let shortened : Store :=
        { store with live := store.live.insert fact.type ((store.get fact.type).eraseP (store.hasId fact.id)) }
      have hshortened : store.Changed shortened [ref] [] [] := by
        refine { Changed.refl store with live := fun type => ?_ }
        show LiveIndex.of (store.live.insert fact.type _) type = _
        rw [LiveIndex.of_insert, h.eraseP_hasId hknown hfact]
        split
        · rename_i htype
          rw [htype]
        · rename_i htype
          refine (List.filter_eq_self.2 fun other hother => decide_eq_true ?_).symm
          intro hmem
          obtain ⟨kept, hkept, hsame⟩ := h.typed type other hother
          rw [List.mem_singleton.1 hmem, hfact] at hkept
          exact htype (by rw [Option.some.inj hkept, hsame])
      exact hshortened.trans (Changed.update hfact rfl rfl rfl (List.forall_mem_nil _))
    · rename_i hnone
      refine .of_not_live fun type hlive => hnone ?_
      obtain ⟨other, hother, htype⟩ := h.typed type ref hlive
      obtain rfl := Option.some.inj (hfact.symm.trans hother)
      refine List.any_eq_true.2 ⟨ref, htype ▸ hlive, ?_⟩
      rw [hasId, hfact]
      exact decide_eq_true rfl

theorem removeAll (h : store.Tidy known) {refs : List FactRef} (hknown : ∀ ref ∈ refs, ref.index < known) :
    store.Changed (refs.foldl (fun store ref => (store.remove ref).2) store) refs [] [] := by
  induction refs generalizing store with
  | nil => exact .refl store
  | cons ref refs ih =>
      obtain ⟨href, hrefs⟩ := List.forall_mem_cons.1 hknown
      have hremoved := h.remove href
      exact hremoved.trans (ih (h.of_changed hremoved) hrefs)

end Tidy

end Store

end ProductionSystem
