import ProductionSystem.Store

/-!
The index of live facts, list by list. Inserting a list changes the list of one type, and the number of
live facts by the difference in length; draining appends to the list of each type the pending facts of
that type, in their order.
-/

namespace ProductionSystem

namespace Slots

variable {α : Type}

theorem get?_eq_none_of_forall_ne {name : String} {slots : Slots α} (h : ∀ entry ∈ slots, name ≠ entry.1) :
    get? name slots = none := by
  induction slots with
  | nil => rfl
  | cons first rest ih =>
      rw [List.forall_mem_cons] at h
      rw [get?, if_neg h.1]
      exact ih h.2

end Slots

namespace LiveIndex

theorem of_insert (live : LiveIndex) (type : String) (refs : List FactRef) (other : String) :
    of (live.insert type refs) other = if other = type then refs else live.of other := by
  rw [of, Dictionary.get?_insert]
  split <;> rfl

theorem length_place (type : String) (refs : List FactRef) {slots : Slots (List FactRef)}
    (hordered : slots.Pairwise fun a b => a.1 < b.1) :
    ((Dictionary.place type refs slots).flatMap (·.2)).length + ((Slots.get? type slots).getD []).length =
      (slots.flatMap (·.2)).length + refs.length := by
  induction slots with
  | nil => simp [Dictionary.place, Slots.get?]
  | cons first rest ih =>
      obtain ⟨hfirst, hrest⟩ := List.pairwise_cons.1 hordered
      simp only [Dictionary.place]
      split
      · rename_i hlt
        have hnone : Slots.get? type (first :: rest) = none := by
          refine Slots.get?_eq_none_of_forall_ne (List.forall_mem_cons.2 ⟨?_, fun entry hentry => ?_⟩)
          · exact String.ne_of_lt hlt
          · exact String.ne_of_lt (String.lt_trans hlt (hfirst entry hentry))
        rw [hnone]
        simp only [List.flatMap_cons, List.length_append, Option.getD_none, List.length_nil]
        omega
      · split
        · rename_i heq
          simp only [Slots.get?, if_pos heq, List.flatMap_cons, List.length_append, Option.getD_some]
          omega
        · rename_i hne
          have hrec := ih hrest
          simp only [Slots.get?, if_neg hne, List.flatMap_cons, List.length_append]
          omega

theorem count_insert (live : LiveIndex) (type : String) (refs : List FactRef) :
    count (live.insert type refs) + (live.of type).length = live.count + refs.length :=
  length_place type refs live.ordered

theorem of_add (live : LiveIndex) (type : String) (ref : FactRef) (other : String) :
    (live.add type ref).of other = if other = type then live.of other ++ [ref] else live.of other := by
  rw [add, of_insert]
  split
  · rename_i heq
    rw [heq]
  · rfl

theorem count_add (live : LiveIndex) (type : String) (ref : FactRef) :
    (live.add type ref).count = live.count + 1 := by
  have h := live.count_insert type (live.of type ++ [ref])
  rw [List.length_append, List.length_singleton] at h
  rw [add]
  omega

end LiveIndex

namespace Store

/-- A fact that is entered into the table leaves the others as they are. -/
theorem fact?_enter_of_some {store : Store} {ref : FactRef} {fact : Fact} (hfact : store.fact? ref = some fact)
    (new : Fact) : (store.enter new).2.fact? ref = some fact := by
  obtain ⟨hindex, hget⟩ := Array.getElem?_eq_some_iff.1 hfact
  show (store.facts.push new)[ref.index]? = some fact
  rw [Array.getElem?_push_lt hindex, hget]

/-- Does the reference stand for a fact of the type? -/
def hasType (store : Store) (type : String) (ref : FactRef) : Bool :=
  match store.fact? ref with
  | some fact => fact.type = type
  | none => false

theorem of_enliven (store : Store) (live : LiveIndex) (ref : FactRef) (type : String) :
    (store.enliven live ref).of type = live.of type ++ [ref].filter (store.hasType type) := by
  unfold enliven hasType
  cases hfact : store.fact? ref with
  | none => simp [hfact]
  | some fact =>
      rw [LiveIndex.of_add]
      by_cases htype : type = fact.type
      · simp [hfact, htype]
      · simp [hfact, htype, Ne.symm htype]

theorem of_foldl_enliven (store : Store) (live : LiveIndex) (refs : List FactRef) (type : String) :
    LiveIndex.of (refs.foldl store.enliven live) type = live.of type ++ refs.filter (store.hasType type) := by
  induction refs generalizing live with
  | nil => rw [List.foldl_nil, List.filter_nil, List.append_nil]
  | cons ref refs ih =>
      rw [List.foldl_cons, ih, of_enliven, List.append_assoc, ← List.filter_append, List.singleton_append]

/-- A drain makes live what is pending, behind what is live already. -/
theorem get_drain (store : Store) (type : String) :
    store.drain.get type = store.get type ++ store.pending.filter (store.hasType type) :=
  of_foldl_enliven store store.live store.pending type

theorem mem_get_drain {store : Store} {ref : FactRef} {fact : Fact} (hpending : ref ∈ store.pending)
    (hfact : store.fact? ref = some fact) : ref ∈ store.drain.get fact.type := by
  rw [get_drain]
  refine List.mem_append_right _ (List.mem_filter.2 ⟨hpending, ?_⟩)
  simp only [hasType, hfact, decide_true]

theorem count_foldl_enliven (store : Store) (live : LiveIndex) {refs : List FactRef}
    (hknown : ∀ ref ∈ refs, (store.fact? ref).isSome = true) :
    LiveIndex.count (refs.foldl store.enliven live) = live.count + refs.length := by
  induction refs generalizing live with
  | nil => rfl
  | cons ref refs ih =>
      rw [List.forall_mem_cons] at hknown
      obtain ⟨fact, hfact⟩ := Option.isSome_iff_exists.1 hknown.1
      rw [List.foldl_cons, ih _ hknown.2, enliven, hfact, LiveIndex.count_add, List.length_cons]
      omega

end Store

end ProductionSystem
