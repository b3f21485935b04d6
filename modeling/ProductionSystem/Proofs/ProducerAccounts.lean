import Mathlib.Algebra.Group.Nat.Defs
import Mathlib.Data.List.Nodup
import Mathlib.Data.List.Pairwise
import ProductionSystem.Proofs.Producers

/-!
What producers and the loop can rely on while they come between one another. Facts leave the queue in the order in
which they were enqueued, and each producer enqueues its own in the order of its calls. An id belongs to
the one call that has taken it, and a fact is live with its batch or not yet.
-/

namespace ProductionSystem

namespace Store

/-- Do the queue and the live lists hold known facts, and is every template registered under its own type? -/
structure Coherent (store : Store) : Prop where
  pending : ∀ ref ∈ store.pending, ref.index < store.facts.size
  live : ∀ type, ∀ ref ∈ store.get type, ref.index < store.facts.size
  templates : ∀ type template, store.template? type = some template → template.type = type

def id? (store : Store) (ref : FactRef) : Option FactId := (store.fact? ref).map (·.id)

theorem KeepsShapes.id?_eq {store after : Store} (h : store.KeepsShapes after) {ref : FactRef}
    (hknown : ref.index < store.facts.size) : after.id? ref = store.id? ref := by
  have hfact : store.fact? ref = some store.facts[ref.index] := Array.getElem?_eq_getElem hknown
  obtain ⟨kept, hkept, hshape⟩ := Option.map_eq_some_iff.1 (h ref _ hfact)
  rw [id?, id?, hkept, hfact]
  exact congrArg some (congrArg Fact.Shape.id hshape)

theorem fact?_enter (store : Store) (fact : Fact) : (store.enter fact).2.fact? (store.enter fact).1 = some fact :=
  Array.getElem?_push_size

end Store

namespace Supply

variable {supply : Supply}

/-- Every step keeps the shapes of the facts. -/
theorem keepsShapes_step (supply : Supply) (event : SupplyEvent) :
    supply.store.KeepsShapes (supply.step event).store := by
  cases event with
  | produce index =>
      simp only [step, produce]
      split
      · exact .of_facts rfl
      · rename_i producer hproducer
        refine Producer.step_cases (P := fun _ store _ _ => supply.store.KeepsShapes store) ?rests ?misses ?reads
          ?fails ?builds ?enqueues
        case enqueues => exact fun _ _ fact _ _ => .enter supply.store fact
        all_goals intros; exact .of_facts rfl
  | drain =>
      simp only [step, drain]
      split
      · exact .of_facts rfl
      · exact .of_facts rfl
  | remove ref =>
      simp only [step]
      split
      · exact .remove supply.store ref
      · exact .of_facts rfl
  | register template => exact .of_facts rfl
  | write ref values => exact .setMany supply.store ref values
  | wake => exact .of_facts rfl

theorem madeBy_set {after : Supply} {index : Nat} {producer next : Producer}
    (hproducer : supply.producers[index]? = some producer) (hafter : after.producers = supply.producers.set index next)
    (other : Nat) : after.madeBy other = if other = index then next.made else supply.madeBy other := by
  obtain ⟨hindex, -⟩ := List.getElem?_eq_some_iff.1 hproducer
  rw [madeBy, hafter]
  by_cases hother : other = index
  · rw [if_pos hother, hother, List.getElem?_set_self hindex]
  · rw [if_neg hother, List.getElem?_set_ne (Ne.symm hother), ← madeBy]

/-- A producer that goes on and makes nothing leaves what was made. -/
theorem madeBy_advance {index : Nat} {producer next : Producer} {store : Store} {taken : List FactId}
    {entered : List FactRef} (hproducer : supply.producers[index]? = some producer)
    (hnext : next.made = producer.made) (other : Nat) :
    (supply.advance index next store taken entered).madeBy other = supply.madeBy other := by
  rw [madeBy_set hproducer rfl, hnext]
  split
  · rename_i hother
    rw [hother, madeBy, hproducer]
  · rfl

/-- Are the facts in line? Everything went through the queue in the order in which it was enqueued. -/
structure InLine (initial : Store) (supply : Supply) : Prop where
  queue : supply.queued = initial.pending ++ supply.entered.map (·.2)
  refs : supply.entered.map (·.2) =
    (List.range supply.entered.length).map fun n => ⟨initial.facts.size + n⟩
  size : supply.store.facts.size = initial.facts.size + supply.entered.length
  made : ∀ index, (supply.entered.filter (·.1 = index)).map (·.2) = supply.madeBy index

namespace InLine

variable {initial : Store} {after : Supply}

/-- An event that enqueues nothing. -/
theorem aside (h : supply.InLine initial) (hentered : after.entered = supply.entered)
    (hqueue : after.queued = supply.queued) (hsize : after.store.facts.size = supply.store.facts.size)
    (hmade : ∀ index, after.madeBy index = supply.madeBy index) : after.InLine initial where
  queue := by rw [hqueue, hentered, h.queue]
  refs := by rw [hentered, h.refs]
  size := by rw [hsize, hentered, h.size]
  made := fun index => by rw [hentered, hmade, h.made]

theorem produce (h : supply.InLine initial) (index : Nat) : (supply.produce index).InLine initial := by
  unfold Supply.produce
  split
  · exact h
  · rename_i producer hproducer
    refine Producer.step_cases (P := fun next store taken entered =>
      (supply.advance index next store taken entered).InLine initial) ?rests ?misses ?reads ?fails ?builds ?enqueues
    case rests => exact h.aside (List.append_nil _) rfl rfl (madeBy_advance hproducer rfl)
    case misses =>
      intro call calls _ _
      refine h.aside (List.append_nil _) rfl rfl (madeBy_advance hproducer ?_)
      rw [Producer.made_finish]
      exact List.append_nil _
    case reads => exact fun _ _ _ _ _ _ => h.aside (List.append_nil _) rfl rfl (madeBy_advance hproducer rfl)
    case fails =>
      intro call calls template cause _ _
      refine h.aside (List.append_nil _) rfl rfl (madeBy_advance hproducer ?_)
      rw [Producer.made_finish]
      exact List.append_nil _
    case builds => exact fun _ _ _ _ _ _ _ => h.aside (List.append_nil _) rfl rfl (madeBy_advance hproducer rfl)
    case enqueues =>
      intro call calls fact _ _
      have hlength (n : Nat) : (supply.entered ++ [(index, (⟨n⟩ : FactRef))]).length = supply.entered.length + 1 :=
        List.length_append
      refine ⟨?_, ?_, ?_, fun other => ?_⟩
      · have hqueue := congrArg (· ++ [(supply.store.enter fact).1]) h.queue
        simpa only [queued, advance, Store.enqueue, Store.enter, List.map_append, List.map_cons, List.map_nil,
          List.append_assoc] using hqueue
      · simp only [advance, List.map_cons, List.map_nil, Store.enter, hlength, List.range_succ, List.map_append,
          h.refs, h.size]
      · simp only [advance, List.map_cons, List.map_nil, Store.enter, Store.enqueue, hlength, Array.size_push, h.size,
          Nat.add_assoc]
      · rw [madeBy_set hproducer rfl, Producer.made_finish]
        simp only [advance, List.map_cons, List.map_nil, List.filter_append, List.map_append, h.made]
        by_cases hother : other = index
        · rw [if_pos hother, hother, madeBy, hproducer, List.filter_cons_of_pos (by simp)]
          rfl
        · rw [if_neg hother, List.filter_cons_of_neg (by simpa using Ne.symm hother)]
          exact List.append_nil _

theorem step (h : supply.InLine initial) (event : SupplyEvent) : (supply.step event).InLine initial := by
  cases event with
  | produce index => exact h.produce index
  | drain =>
      simp only [Supply.step, drain]
      split
      · rename_i hhand
        refine h.aside rfl ?_ rfl fun _ => rfl
        simp only [queued, hhand, Option.getD_some, Option.getD_none, List.append_nil]
      · rename_i batch hhand
        refine h.aside rfl ?_ rfl fun _ => rfl
        simp only [queued, hhand, Option.getD_some, Option.getD_none, List.append_nil, List.flatten_append,
          List.flatten_cons, List.flatten_nil]
  | remove ref =>
      simp only [Supply.step]
      split
      · have hkeeps := Store.KeepsQueue.remove supply.store ref
        refine h.aside rfl ?_ hkeeps.size fun _ => rfl
        show _ ++ (supply.store.remove ref).2.pending = _
        rw [hkeeps.pending]
        rfl
      · exact h
  | register template => exact h.aside rfl rfl rfl fun _ => rfl
  | write ref values =>
      have hkeeps := Store.KeepsQueue.setMany supply.store ref values
      refine h.aside rfl ?_ hkeeps.size fun _ => rfl
      show _ ++ (supply.store.setMany ref values).2.pending = _
      rw [hkeeps.pending]
      rfl
  | wake => exact h.aside rfl rfl rfl fun _ => rfl

end InLine

/-- Does each producer work on its calls with facts of the right types? -/
structure Typed (supply : Supply) : Prop where
  templates : ∀ type template, supply.store.template? type = some template → template.type = type
  reading : ∀ producer ∈ supply.producers, ∀ call calls template, producer.calls = call :: calls →
    producer.stage = .reading template → template.type = call.type
  built : ∀ producer ∈ supply.producers, ∀ call calls fact, producer.calls = call :: calls →
    producer.stage = .built fact → fact.type = call.type
  made : ∀ producer ∈ supply.producers, ∀ call ref, (call, .ok ref) ∈ producer.ended →
    ∃ fact, supply.store.fact? ref = some fact ∧ fact.type = call.type

namespace Typed

variable {after : Supply}

theorem made_of_keepsShapes (h : supply.Typed) (hkept : supply.store.KeepsShapes after.store) {producer : Producer}
    (hproducer : producer ∈ supply.producers) {call : MakeCall} {ref : FactRef}
    (hended : (call, .ok ref) ∈ producer.ended) :
    ∃ fact, after.store.fact? ref = some fact ∧ fact.type = call.type := by
  obtain ⟨fact, hfact, htype⟩ := h.made producer hproducer call ref hended
  obtain ⟨kept, hstays, hshape⟩ := Option.map_eq_some_iff.1 (hkept ref fact hfact)
  exact ⟨kept, hstays, (congrArg Fact.Shape.type hshape).trans htype⟩

/-- An event that leaves the producers alone. -/
theorem aside (h : supply.Typed) (hkept : supply.store.KeepsShapes after.store)
    (hproducers : after.producers = supply.producers)
    (htemplates : ∀ type template, after.store.template? type = some template → template.type = type) :
    after.Typed where
  templates := htemplates
  reading := by
    rw [hproducers]
    exact h.reading
  built := by
    rw [hproducers]
    exact h.built
  made := by
    rw [hproducers]
    exact fun _ hproducer _ _ => h.made_of_keepsShapes hkept hproducer

/-- A producer goes on, and the others are as they were. -/
theorem advance (h : supply.Typed) {index : Nat} {producer next : Producer} {store : Store} {taken : List FactId}
    {entered : List FactRef} (hproducer : producer ∈ supply.producers) (hkept : supply.store.KeepsShapes store)
    (htemplates : store.templates = supply.store.templates)
    (hreading : ∀ call calls template, next.calls = call :: calls → next.stage = .reading template →
      template.type = call.type)
    (hbuilt : ∀ call calls fact, next.calls = call :: calls → next.stage = .built fact → fact.type = call.type)
    (hmade : ∀ call ref, (call, .ok ref) ∈ next.ended →
      (call, .ok ref) ∈ producer.ended ∨ ∃ fact, store.fact? ref = some fact ∧ fact.type = call.type) :
    (supply.advance index next store taken entered).Typed := by
  refine ⟨fun type template htemplate => ?_, fun other hother => ?_, fun other hother => ?_,
    fun other hother call ref hended => ?_⟩
  · have hthere : store.template? type = some template := htemplate
    rw [Store.template?, htemplates] at hthere
    exact h.templates type template hthere
  · rcases List.mem_or_eq_of_mem_set hother with hold | rfl
    · exact h.reading other hold
    · exact hreading
  · rcases List.mem_or_eq_of_mem_set hother with hold | rfl
    · exact h.built other hold
    · exact hbuilt
  · rcases List.mem_or_eq_of_mem_set hother with hold | rfl
    · exact h.made_of_keepsShapes hkept hold hended
    · rcases hmade call ref hended with hold | hnew
      · exact h.made_of_keepsShapes hkept hproducer hold
      · exact hnew

theorem produce (h : supply.Typed) (index : Nat) : (supply.produce index).Typed := by
  have hkept := supply.keepsShapes_step (.produce index)
  simp only [Supply.step] at hkept
  unfold Supply.produce at hkept ⊢
  split at hkept
  · exact h
  · rename_i producer hproducer
    have hmem := List.mem_of_getElem? hproducer
    have hfinish {call : MakeCall} {calls : List MakeCall} {cause : ErrorKind} {store : Store} (other : MakeCall)
        (ref : FactRef) (hended : (other, .ok ref) ∈ (producer.finish call calls (.error cause)).ended) :
        (other, .ok ref) ∈ producer.ended ∨ ∃ fact, store.fact? ref = some fact ∧ fact.type = other.type := by
      rcases List.mem_append.1 hended with hold | hnew
      · exact .inl hold
      · cases List.mem_singleton.1 hnew
    revert hkept
    refine Producer.step_cases (P := fun next store taken entered => supply.store.KeepsShapes store →
      (supply.advance index next store taken entered).Typed) ?rests ?misses ?reads ?fails ?builds ?enqueues
    case rests =>
      exact fun hkept => h.advance hmem hkept rfl (h.reading producer hmem) (h.built producer hmem) fun _ _ => .inl
    case misses => exact fun call calls _ _ hkept => h.advance hmem hkept rfl nofun nofun hfinish
    case reads =>
      intro call calls template hcalls _ htemplate hkept
      refine h.advance hmem hkept rfl ?_ nofun fun _ _ => .inl
      intro other others read hothers hstage
      obtain ⟨rfl, -⟩ := List.cons.inj (hcalls.symm.trans hothers)
      cases hstage
      exact h.templates _ _ htemplate
    case fails => exact fun call calls template cause _ _ hkept => h.advance hmem hkept rfl nofun nofun hfinish
    case builds =>
      intro call calls template fact hcalls hstage hfact hkept
      refine h.advance hmem hkept rfl nofun ?_ fun _ _ => .inl
      intro other others built hothers hbuilt
      obtain ⟨rfl, -⟩ := List.cons.inj (hcalls.symm.trans hothers)
      cases hbuilt
      exact (congrArg Fact.Shape.type (Template.shape_of_instantiate hfact)).trans
        (h.reading producer hmem call calls template hcalls hstage)
    case enqueues =>
      intro call calls fact hcalls hstage hkept
      refine h.advance hmem hkept rfl nofun nofun fun other ref hended => ?_
      rcases List.mem_append.1 hended with hold | hnew
      · exact .inl hold
      · obtain ⟨rfl, href⟩ := Prod.mk.inj (List.mem_singleton.1 hnew)
        obtain rfl := Except.ok.inj href
        exact .inr ⟨fact, supply.store.fact?_enter fact, h.built producer hmem _ calls fact hcalls hstage⟩

theorem step (h : supply.Typed) (event : SupplyEvent) : (supply.step event).Typed := by
  have hkept := supply.keepsShapes_step event
  cases event with
  | produce index => exact h.produce index
  | drain =>
      simp only [Supply.step, drain] at hkept ⊢
      split
      · exact h.aside (.of_facts rfl) rfl h.templates
      · exact h.aside (.of_facts rfl) rfl h.templates
  | remove ref =>
      simp only [Supply.step]
      split
      · refine h.aside (.remove supply.store ref) rfl fun type template htemplate => ?_
        rw [Store.template?_remove] at htemplate
        exact h.templates type template htemplate
      · exact h
  | register template =>
      refine h.aside hkept rfl fun type other hother => ?_
      simp only [Supply.step, Store.template?, Store.register, Dictionary.get?_insert] at hother
      split at hother
      · rename_i htype
        obtain rfl := Option.some.inj hother
        exact htype.symm
      · exact h.templates type other hother
  | write ref values =>
      refine h.aside hkept rfl fun type template htemplate => ?_
      rw [Supply.step, Store.template?_setMany] at htemplate
      exact h.templates type template htemplate
  | wake => exact h.aside hkept rfl h.templates

end Typed

/-- Is every live fact one that was live from the beginning, or one of a batch that is live, in their order? -/
def LiveInLine (initial : Store) (supply : Supply) : Prop :=
  ∀ type, (supply.store.get type).Sublist
    (initial.get type ++ supply.placed.flatten.filter (supply.store.hasType type))

/-- Outside the second step of a drain no fact becomes live. -/
theorem get_step_sublist (supply : Supply) (event : SupplyEvent) (h : supply.hand = none ∨ event ≠ .drain)
    (type : String) : ((supply.step event).store.get type).Sublist (supply.store.get type) := by
  cases event with
  | produce index =>
      simp only [step, produce]
      split
      · exact .refl _
      · rename_i producer hproducer
        refine Producer.step_cases (P := fun _ store _ _ => (store.get type).Sublist (supply.store.get type)) ?rests
          ?misses ?reads ?fails ?builds ?enqueues
        all_goals intros; exact .refl _
  | drain =>
      have hhand : supply.hand = none := h.resolve_right fun hother => hother rfl
      simp only [step, drain, hhand]
      exact .refl _
  | remove ref =>
      simp only [step]
      split
      · exact supply.store.get_remove_sublist ref type
      · exact .refl _
  | register template => exact .refl _
  | write ref values =>
      simp only [step, Store.setMany]
      split
      · exact .refl _
      · split <;> exact .refl _
  | wake => exact .refl _

theorem placed_step (supply : Supply) (event : SupplyEvent) (h : supply.hand = none ∨ event ≠ .drain) :
    (supply.step event).placed = supply.placed := by
  cases event with
  | produce index =>
      simp only [step, produce]
      split <;> rfl
  | drain =>
      have hhand : supply.hand = none := h.resolve_right fun hother => hother rfl
      simp only [step, drain, hhand]
  | remove ref =>
      simp only [step]
      split <;> rfl
  | register template => rfl
  | write ref values => rfl
  | wake => rfl

/-- The second step of a drain makes the whole batch live. -/
theorem get_drain {batch : List FactRef} (hhand : supply.hand = some batch) (type : String) :
    (supply.step .drain).store.get type = supply.store.get type ++ batch.filter (supply.store.hasType type) := by
  simp only [step, drain, hhand]
  exact supply.store.of_foldl_enliven supply.store.live batch type

theorem InLine.known {initial : Store} (h : supply.InLine initial)
    (hknown : ∀ ref ∈ initial.pending, ref.index < initial.facts.size) {ref : FactRef} (href : ref ∈ supply.queued) :
    ref.index < supply.store.facts.size := by
  rw [h.queue, h.refs] at href
  rw [h.size]
  rcases List.mem_append.1 href with hold | hnew
  · exact Nat.lt_of_lt_of_le (hknown ref hold) (Nat.le_add_right _ _)
  · obtain ⟨n, hn, rfl⟩ := List.mem_map.1 hnew
    exact Nat.add_lt_add_left (List.mem_range.1 hn) _

theorem LiveInLine.step {initial : Store} (h : supply.LiveInLine initial) (hline : supply.InLine initial)
    (hknown : ∀ ref ∈ initial.pending, ref.index < initial.facts.size) (event : SupplyEvent) :
    (supply.step event).LiveInLine initial := by
  intro type
  have hkept := supply.keepsShapes_step event
  have hfilter {refs : List FactRef} (hrefs : ∀ ref ∈ refs, ref ∈ supply.queued) :
      refs.filter ((supply.step event).store.hasType type) = refs.filter (supply.store.hasType type) :=
    List.filter_congr fun ref href => hkept.hasType_eq (hline.known hknown (hrefs ref href)) type
  have hplaced : ∀ ref ∈ supply.placed.flatten, ref ∈ supply.queued :=
    fun ref href => List.mem_append_left _ (List.mem_append_left _ href)
  by_cases hsecond : supply.hand = none ∨ event ≠ .drain
  · rw [placed_step supply event hsecond, hfilter hplaced]
    exact (supply.get_step_sublist event hsecond type).trans (h type)
  · obtain ⟨hhand, rfl⟩ : supply.hand ≠ none ∧ event = .drain := by
      rw [not_or, not_not] at hsecond
      exact hsecond
    obtain ⟨batch, hbatch⟩ := Option.ne_none_iff_exists'.1 hhand
    have hafter : (supply.step .drain).placed.flatten = supply.placed.flatten ++ batch := by
      simp only [Supply.step, drain, hbatch, List.flatten_append, List.flatten_cons, List.flatten_nil,
        List.append_nil]
    have htaken : ∀ ref ∈ batch, ref ∈ supply.queued := by
      intro ref href
      refine List.mem_append_left _ (List.mem_append_right _ ?_)
      rw [hbatch]
      exact href
    rw [get_drain hbatch, hafter, List.filter_append, hfilter hplaced, hfilter htaken, ← List.append_assoc]
    exact (h type).append (.refl _)

section Ids

theorem count_flatMap_set {α β : Type} [BEq β] {f : α → List β} {items : List α} {index : Nat} {old new : α}
    (h : items[index]? = some old) (b : β) :
    ((items.set index new).flatMap f).count b + (f old).count b =
      (items.flatMap f).count b + (f new).count b := by
  induction items generalizing index with
  | nil => cases h
  | cons first rest ih =>
      cases index with
      | zero =>
          obtain rfl := Option.some.inj h
          simp only [List.set_cons_zero, List.flatMap_cons, List.count_append]
          omega
      | succ index =>
          have hrest := ih h
          simp only [List.set_cons_succ, List.flatMap_cons, List.count_append]
          omega

/-- The ids of the facts that were enqueued. -/
def spent (supply : Supply) : List FactId := supply.entered.filterMap fun entry => supply.store.id? entry.2

/-- The ids of the facts that are built and not enqueued. -/
def held (supply : Supply) : List FactId := supply.producers.flatMap Producer.held

/-- Is the account of the ids right? They count up, and each that was given out is spent or held once at most. -/
structure IdsInOrder (initial : Store) (supply : Supply) : Prop where
  ids : supply.ids = (List.range supply.ids.length).map fun n => ⟨initial.nextId + .ofNat n⟩
  next : supply.store.nextId = initial.nextId + .ofNat supply.ids.length
  owners : ∀ id, supply.spent.count id + supply.held.count id ≤ supply.ids.count id

namespace IdsInOrder

variable {initial : Store} {after : Supply}

theorem spent_eq (hline : supply.InLine initial) (hkept : supply.store.KeepsShapes after.store)
    (hentered : after.entered = supply.entered) : after.spent = supply.spent := by
  rw [spent, spent, hentered]
  refine List.filterMap_congr fun entry hentry => hkept.id?_eq ?_
  have href : entry.2 ∈ supply.entered.map (·.2) := List.mem_map_of_mem hentry
  rw [hline.refs] at href
  obtain ⟨n, hn, hindex⟩ := List.mem_map.1 href
  rw [← hindex, hline.size]
  exact Nat.add_lt_add_left (List.mem_range.1 hn) _

/-- An event that takes no id. -/
theorem aside (h : supply.IdsInOrder initial) (hids : after.ids = supply.ids)
    (hnext : after.store.nextId = supply.store.nextId)
    (howners : ∀ id, after.spent.count id + after.held.count id ≤ supply.spent.count id + supply.held.count id) :
    after.IdsInOrder initial where
  ids := by
    rw [hids]
    exact h.ids
  next := by rw [hnext, hids, h.next]
  owners := fun id => by
    rw [hids]
    exact Nat.le_trans (howners id) (h.owners id)

/-- The next id is given out. -/
theorem take (h : supply.IdsInOrder initial) (hids : after.ids = supply.ids ++ [supply.store.takeId.1])
    (hnext : after.store.nextId = supply.store.takeId.2.nextId)
    (howners : ∀ id, after.spent.count id + after.held.count id ≤
      supply.spent.count id + supply.held.count id + [supply.store.takeId.1].count id) : after.IdsInOrder initial where
  ids := by
    simp only [hids, List.length_append, List.length_singleton, List.range_succ, List.map_append, List.map_singleton]
    rw [← h.ids, Store.takeId, h.next]
  next := by
    rw [hnext, hids, Store.takeId, h.next, List.length_append, List.length_singleton, UInt64.ofNat_add,
      UInt64.add_assoc]
    rfl
  owners := fun id => by
    rw [hids, List.count_append]
    exact Nat.le_trans (howners id) (Nat.add_le_add_right (h.owners id) _)

section Advance

variable {index : Nat} {producer next : Producer} {store : Store} {taken : List FactId} {entered : List FactRef}

theorem count_held_advance (hproducer : supply.producers[index]? = some producer) (id : FactId) :
    (supply.advance index next store taken entered).held.count id + producer.held.count id =
      supply.held.count id + next.held.count id := count_flatMap_set hproducer id

theorem spent_advance (hline : supply.InLine initial) (hkept : supply.store.KeepsShapes store) :
    (supply.advance index next store taken []).spent = supply.spent := spent_eq hline hkept (List.append_nil _)

/-- A producer goes on without an id. -/
theorem going (h : supply.IdsInOrder initial) (hline : supply.InLine initial)
    (hproducer : supply.producers[index]? = some producer) (hkept : supply.store.KeepsShapes store)
    (hnext : store.nextId = supply.store.nextId) (hheld : ∀ id, next.held.count id ≤ producer.held.count id) :
    (supply.advance index next store [] []).IdsInOrder initial := by
  refine h.aside (List.append_nil _) hnext fun id => ?_
  have hcount : (supply.advance index next store [] []).held.count id + _ = _ := count_held_advance hproducer id
  have hle := hheld id
  rw [spent_advance hline hkept]
  omega

/-- A producer goes on and takes the next id. -/
theorem taking (h : supply.IdsInOrder initial) (hline : supply.InLine initial)
    (hproducer : supply.producers[index]? = some producer)
    (hheld : ∀ id, next.held.count id ≤ producer.held.count id + [supply.store.takeId.1].count id) :
    (supply.advance index next supply.store.takeId.2 [supply.store.takeId.1] []).IdsInOrder initial := by
  refine h.take rfl rfl fun id => ?_
  have hcount : (supply.advance index next supply.store.takeId.2 [supply.store.takeId.1] []).held.count id + _ = _ :=
    count_held_advance hproducer id
  have hle := hheld id
  have hkept : supply.store.KeepsShapes supply.store.takeId.2 := .of_facts rfl
  rw [spent_advance hline hkept]
  omega

/-- A producer enqueues the fact whose id it has held. -/
theorem entering (h : supply.IdsInOrder initial) (hline : supply.InLine initial)
    (hproducer : supply.producers[index]? = some producer) {fact : Fact} (hbuilt : producer.held = [fact.id])
    (hnext : next.held = []) :
    let ref := (supply.store.enter fact).1
    (supply.advance index next ((supply.store.enter fact).2.enqueue ref) [] [ref]).IdsInOrder initial := by
  intro ref
  let store := (supply.store.enter fact).2.enqueue ref
  show (supply.advance index next store [] [ref]).IdsInOrder initial
  refine h.aside (List.append_nil _) rfl fun id => ?_
  have hcount : (supply.advance index next store [] [ref]).held.count id + _ = _ := count_held_advance hproducer id
  rw [hnext, hbuilt, List.count_nil] at hcount
  have hkept : supply.store.KeepsShapes store := .enter supply.store fact
  have hold : (supply.advance index next store [] []).spent = supply.spent := spent_advance hline hkept
  have hnew : ([(index, ref)].filterMap fun entry => store.id? entry.2) = [fact.id] := by
    have hid : store.id? ref = some fact.id := congrArg (Option.map Fact.id) (supply.store.fact?_enter fact)
    simp only [List.filterMap_cons, List.filterMap_nil, hid]
  have hspent : (supply.advance index next store [] [ref]).spent = supply.spent ++ [fact.id] := by
    rw [← hold, ← hnew]
    simp only [spent, advance, List.map_nil, List.append_nil, List.map_singleton, List.filterMap_append]
  rw [hspent, List.count_append]
  omega

end Advance

theorem produce (h : supply.IdsInOrder initial) (hline : supply.InLine initial) (index : Nat) :
    (supply.produce index).IdsInOrder initial := by
  unfold Supply.produce
  split
  · exact h
  · rename_i producer hproducer
    refine Producer.step_cases (P := fun next store taken entered =>
      (supply.advance index next store taken entered).IdsInOrder initial) ?rests ?misses ?reads ?fails ?builds ?enqueues
    case rests => exact h.going hline hproducer (.of_facts rfl) rfl fun _ => Nat.le_refl _
    case misses =>
      intro call calls _ _
      refine h.going hline hproducer (.of_facts rfl) rfl fun id => ?_
      rw [Producer.held_finish, List.count_nil]
      exact Nat.zero_le _
    case reads =>
      intro call calls template hcalls _ _
      refine h.going hline hproducer (.of_facts rfl) rfl fun id => ?_
      simp only [Producer.held, hcalls, List.count_nil, Nat.zero_le]
    case fails =>
      intro call calls template cause _ _
      refine h.taking hline hproducer fun id => ?_
      rw [Producer.held_finish, List.count_nil]
      exact Nat.zero_le _
    case builds =>
      intro call calls template fact hcalls hstage hfact
      refine h.taking hline hproducer fun id => ?_
      have hid : fact.id = supply.store.takeId.1 := congrArg Fact.Shape.id (Template.shape_of_instantiate hfact)
      simp only [Producer.held, hcalls, hstage, hid, List.count_nil, Nat.zero_add, Nat.le_refl]
    case enqueues =>
      intro call calls fact hcalls hstage
      exact h.entering hline hproducer (by simp only [Producer.held, hcalls, hstage]) (producer.held_finish _ _ _)

theorem step (h : supply.IdsInOrder initial) (hline : supply.InLine initial) (event : SupplyEvent) :
    (supply.step event).IdsInOrder initial := by
  have hkept := supply.keepsShapes_step event
  -- apart from the producers nobody spends, holds or takes an id
  have hother {after : Supply} (hkept : supply.store.KeepsShapes after.store) (hids : after.ids = supply.ids)
      (hentered : after.entered = supply.entered) (hproducers : after.producers = supply.producers)
      (hnext : after.store.nextId = supply.store.nextId) : after.IdsInOrder initial := by
    refine h.aside hids hnext fun id => ?_
    simp only [spent_eq hline hkept hentered, held, hproducers, Nat.le_refl]
  cases event with
  | produce index => exact h.produce hline index
  | drain =>
      simp only [Supply.step, drain] at hkept ⊢
      split
      · exact hother (.of_facts rfl) rfl rfl rfl rfl
      · exact hother (.of_facts rfl) rfl rfl rfl rfl
  | remove ref =>
      simp only [Supply.step]
      split
      · exact hother (.remove supply.store ref) rfl rfl rfl (supply.store.nextId_remove ref)
      · exact h
  | register template => exact hother hkept rfl rfl rfl rfl
  | write ref values => exact hother hkept rfl rfl rfl (supply.store.nextId_setMany ref values)
  | wake => exact hother hkept rfl rfl rfl rfl

/-- As long as the ids have not come round, no two facts that were enqueued have the same. -/
theorem pairwise_entered (h : supply.IdsInOrder initial) (hfew : supply.ids.length ≤ 2 ^ 64) :
    supply.entered.Pairwise fun entry other =>
      ∀ id, supply.store.id? entry.2 = some id → supply.store.id? other.2 ≠ some id := by
  have hids : supply.ids.Nodup := by
    rw [h.ids]
    refine List.Nodup.map_on (fun n hn m hm heq => ?_) List.nodup_range
    have hlt : n < 2 ^ 64 ∧ m < 2 ^ 64 :=
      ⟨Nat.lt_of_lt_of_le (List.mem_range.1 hn) hfew, Nat.lt_of_lt_of_le (List.mem_range.1 hm) hfew⟩
    have hnumber : UInt64.ofNat n = UInt64.ofNat m := (UInt64.add_right_inj _).1 (FactId.mk.inj heq)
    rw [← UInt64.toNat_inj, UInt64.toNat_ofNat', UInt64.toNat_ofNat', Nat.mod_eq_of_lt hlt.1,
      Nat.mod_eq_of_lt hlt.2] at hnumber
    exact hnumber
  have hspent : supply.spent.Nodup := List.nodup_iff_count_le_one.2 fun id => by
    have howners := h.owners id
    have honce := List.nodup_iff_count_le_one.1 hids id
    omega
  exact (List.pairwise_filterMap.1 hspent).imp fun hdiffer id hid hid' => hdiffer id hid id hid' rfl

end IdsInOrder

end Ids

/-- What holds at every moment. -/
structure Accounts (initial : Store) (calls : List (List MakeCall)) (supply : Supply) : Prop where
  line : supply.InLine initial
  typed : supply.Typed
  live : supply.LiveInLine initial
  ids : supply.IdsInOrder initial
  calls : supply.producers.map Producer.allCalls = calls

namespace Accounts

variable {initial : Store} {calls : List (List MakeCall)}

theorem start (hinitial : initial.Coherent) : (start initial calls).Accounts initial calls := by
  have hnew {producer : Producer} (hproducer : producer ∈ (Supply.start initial calls).producers) :
      ∃ list, producer = { calls := list } := by
    obtain ⟨list, -, rfl⟩ := List.mem_map.1 hproducer
    exact ⟨list, rfl⟩
  refine ⟨⟨?_, rfl, rfl, fun index => ?_⟩, ⟨hinitial.templates, ?_, ?_, ?_⟩, fun type => ?_,
    ⟨rfl, ?_, fun id => ?_⟩, ?_⟩
  · simp [queued, Supply.start]
  · rw [madeBy]
    split
    · rename_i producer hproducer
      obtain ⟨list, rfl⟩ := hnew (List.mem_of_getElem? hproducer)
      rfl
    · rfl
  · intro producer hproducer _ _ _ _ hstage
    obtain ⟨list, rfl⟩ := hnew hproducer
    cases hstage
  · intro producer hproducer _ _ _ _ hstage
    obtain ⟨list, rfl⟩ := hnew hproducer
    cases hstage
  · intro producer hproducer _ _ hended
    obtain ⟨list, rfl⟩ := hnew hproducer
    cases hended
  · exact (List.append_nil (initial.get type)).symm ▸ .refl _
  · exact (UInt64.add_zero _).symm
  · have hheld : (Supply.start initial calls).held = [] := by
      refine List.flatMap_eq_nil_iff.2 fun producer hproducer => ?_
      obtain ⟨list, rfl⟩ := hnew hproducer
      cases list <;> rfl
    rw [hheld]
    exact Nat.le_refl _
  · simp [Supply.start, Producer.allCalls, Function.comp_def]

theorem calls_step (supply : Supply) (event : SupplyEvent) :
    (supply.step event).producers.map Producer.allCalls = supply.producers.map Producer.allCalls := by
  cases event with
  | produce index =>
      simp only [Supply.step, produce]
      split
      · rfl
      · rename_i producer hproducer
        obtain ⟨hindex, hget⟩ := List.getElem?_eq_some_iff.1 hproducer
        have hlength : index < (supply.producers.map Producer.allCalls).length := by rwa [List.length_map]
        have hsame : (producer.step supply.store).1.allCalls = (supply.producers.map Producer.allCalls)[index] := by
          rw [Producer.allCalls_step, List.getElem_map, hget]
        rw [List.map_set, hsame, List.set_getElem_self]
  | drain =>
      simp only [Supply.step, drain]
      split <;> rfl
  | remove ref =>
      simp only [Supply.step]
      split <;> rfl
  | register _ | write _ _ | wake => rfl

theorem step (h : supply.Accounts initial calls) (hinitial : initial.Coherent) (event : SupplyEvent) :
    (supply.step event).Accounts initial calls where
  line := h.line.step event
  typed := h.typed.step event
  live := h.live.step h.line hinitial.pending event
  ids := h.ids.step h.line event
  calls := (calls_step supply event).trans h.calls

theorem run (h : supply.Accounts initial calls) (hinitial : initial.Coherent) (events : List SupplyEvent) :
    (supply.run events).Accounts initial calls :=
  List.foldlRecOn (motive := Accounts initial calls) events Supply.step h fun _ h event _ => h.step hinitial event

variable (h : supply.Accounts initial calls) (hinitial : initial.Coherent)
include h

theorem nodup_refs : (supply.entered.map (·.2)).Nodup := by
  rw [h.line.refs]
  refine List.Nodup.map_on (fun n _ m _ heq => ?_) List.nodup_range
  exact Nat.add_left_cancel (FactRef.mk.inj heq)

theorem mem_madeBy_iff {index : Nat} {ref : FactRef} : ref ∈ supply.madeBy index ↔ (index, ref) ∈ supply.entered := by
  rw [← h.line.made, List.mem_map]
  constructor
  · rintro ⟨⟨other, _⟩, hmem, rfl⟩
    obtain ⟨hentered, hindex⟩ := List.mem_filter.1 hmem
    obtain rfl : other = index := of_decide_eq_true hindex
    exact hentered
  · exact fun hentered => ⟨(index, ref), List.mem_filter.2 ⟨hentered, decide_eq_true rfl⟩, rfl⟩

theorem index_of_madeBy {index : Nat} {ref : FactRef} (href : ref ∈ supply.madeBy index) :
    initial.facts.size ≤ ref.index ∧ ref.index < supply.store.facts.size := by
  have hentered : ref ∈ supply.entered.map (·.2) := List.mem_map_of_mem (h.mem_madeBy_iff.1 href)
  rw [h.line.refs] at hentered
  obtain ⟨n, hn, rfl⟩ := List.mem_map.1 hentered
  rw [h.line.size]
  exact ⟨Nat.le_add_right _ _, Nat.add_lt_add_left (List.mem_range.1 hn) _⟩

include hinitial

theorem count_queued {index : Nat} {ref : FactRef} (href : ref ∈ supply.madeBy index) :
    supply.queued.count ref = 1 := by
  have hnew : ref ∉ initial.pending := fun hold =>
    Nat.not_lt_of_le (h.index_of_madeBy href).1 (hinitial.pending ref hold)
  have hentered : ref ∈ supply.entered.map (·.2) := List.mem_map_of_mem (h.mem_madeBy_iff.1 href)
  rw [h.line.queue, List.count_append, List.count_eq_zero_of_not_mem hnew,
    List.count_eq_one_of_mem h.nodup_refs hentered]

theorem filter_queued (index : Nat) : supply.queued.filter (· ∈ supply.madeBy index) = supply.madeBy index := by
  have hold : initial.pending.filter (· ∈ supply.madeBy index) = [] := by
    refine List.filter_eq_nil_iff.2 fun ref hold hmade => ?_
    exact Nat.not_lt_of_le (h.index_of_madeBy (of_decide_eq_true hmade)).1 (hinitial.pending ref hold)
  have hown : ∀ entry ∈ supply.entered, decide (entry.2 ∈ supply.madeBy index) = decide (entry.1 = index) := by
    intro entry hentry
    rw [decide_eq_decide, h.mem_madeBy_iff]
    constructor
    · exact fun hother => congrArg Prod.fst (List.inj_on_of_nodup_map h.nodup_refs hentry hother rfl)
    · rintro rfl
      exact hentry
  rw [h.line.queue, List.filter_append, hold, List.nil_append, List.filter_map]
  exact (congrArg (List.map (·.2)) (List.filter_congr hown)).trans (h.line.made index)

theorem filter_get_sublist (index : Nat) (type : String) :
    ((supply.store.get type).filter (· ∈ supply.madeBy index)).Sublist (supply.madeBy index) := by
  have hold : (initial.get type).filter (· ∈ supply.madeBy index) = [] := by
    refine List.filter_eq_nil_iff.2 fun ref hold hmade => ?_
    exact Nat.not_lt_of_le (h.index_of_madeBy (of_decide_eq_true hmade)).1 (hinitial.live type ref hold)
  have hlive := (h.live type).filter (· ∈ supply.madeBy index)
  have hplaced : (supply.placed.flatten.filter (supply.store.hasType type)).Sublist supply.queued := by
    rw [queued, List.append_assoc]
    exact List.filter_sublist.trans (List.sublist_append_left _ _)
  rw [List.filter_append, hold, List.nil_append] at hlive
  have hqueued := hplaced.filter (· ∈ supply.madeBy index)
  rw [h.filter_queued hinitial] at hqueued
  exact hlive.trans hqueued

theorem not_live {batch : List FactRef} (hhand : supply.hand = some batch) {index : Nat} {ref : FactRef}
    (href : ref ∈ supply.madeBy index) (hbatch : ref ∈ batch) (type : String) : ref ∉ supply.store.get type := by
  intro hlive
  rcases List.mem_append.1 ((h.live type).subset hlive) with hold | hplaced
  · exact Nat.not_lt_of_le (h.index_of_madeBy href).1 (hinitial.live type ref hold)
  · have honce := h.count_queued hinitial href
    have hpos := List.count_pos_iff.2 (List.mem_of_mem_filter hplaced)
    have hpos' := List.count_pos_iff.2 hbatch
    simp only [queued, hhand, Option.getD_some, List.count_append] at honce
    omega

omit hinitial

theorem eq_of_id?_eq (hfew : supply.ids.length ≤ 2 ^ 64) {index other : Nat} {ref ref' : FactRef}
    (href : ref ∈ supply.madeBy index) (href' : ref' ∈ supply.madeBy other)
    (hid : supply.store.id? ref = supply.store.id? ref') : index = other ∧ ref = ref' := by
  by_contra hne
  have hdifferent : (index, ref) ≠ (other, ref') := fun heq => hne (Prod.mk.inj heq)
  have hknown : (supply.store.id? ref).isSome = true := by
    rw [Store.id?, Option.isSome_map, Store.fact?, Array.getElem?_eq_getElem (h.index_of_madeBy href).2]
    rfl
  obtain ⟨id, hsome⟩ := Option.isSome_iff_exists.1 hknown
  have hsymm : Std.Symm fun entry other : Nat × FactRef =>
      ∀ id, supply.store.id? entry.2 = some id → supply.store.id? other.2 ≠ some id :=
    ⟨fun _ _ hdiffer id hid hid' => hdiffer id hid' hid⟩
  exact (h.ids.pairwise_entered hfew).forall (h.mem_madeBy_iff.1 href) (h.mem_madeBy_iff.1 href') hdifferent id hsome
    (hid ▸ hsome)

end Accounts

/-- Nothing is lost: what producers and loop find at some moment. -/
structure LosesNothing (initial : Store) (calls : List (List MakeCall)) (supply : Supply) : Prop where
  /-- The drained batches and the queue hold what was in the queue first and then, in some order, what the producers
  have made, of each producer in the order in which it was made. -/
  merged : ∃ order : List (Nat × FactRef), supply.queued = initial.pending ++ order.map (·.2) ∧
    ∀ index, (order.filter (·.1 = index)).map (·.2) = supply.madeBy index
  /-- A fact that was made is there once. -/
  once : ∀ index, ∀ ref ∈ supply.madeBy index, supply.queued.count ref = 1
  /-- The calls that are over and those that are to come are the calls of each producer, in their order. -/
  calls : supply.producers.map Producer.allCalls = calls
  /-- A call that is over has made a fact of its type, or has failed. -/
  results : ∀ producer ∈ supply.producers, ∀ call ref, (call, .ok ref) ∈ producer.ended →
    ∃ fact, supply.store.fact? ref = some fact ∧ fact.type = call.type
  /-- What a producer has made comes in its order, in the queue and among the live facts of a type. -/
  order : ∀ index, supply.queued.filter (· ∈ supply.madeBy index) = supply.madeBy index ∧
    ∀ type, ((supply.store.get type).filter (· ∈ supply.madeBy index)).Sublist (supply.madeBy index)
  /-- Two facts have two ids, as long as the ids have not come round. -/
  ids : supply.ids.length ≤ 2 ^ 64 → ∀ index other, ∀ ref ∈ supply.madeBy index, ∀ ref' ∈ supply.madeBy other,
    supply.store.id? ref = supply.store.id? ref' → index = other ∧ ref = ref'
  /-- The facts of a batch become live together. -/
  together : ∀ batch, supply.hand = some batch → ∀ type,
    (supply.step .drain).store.get type = supply.store.get type ++ batch.filter (supply.store.hasType type) ∧
      ∀ index, ∀ ref ∈ supply.madeBy index, ref ∈ batch → ref ∉ supply.store.get type
  /-- No other step makes a fact live. -/
  still : ∀ event, supply.hand = none ∨ event ≠ .drain → ∀ type,
    ((supply.step event).store.get type).Sublist (supply.store.get type)

/-- **Concurrent producers lose nothing.** Any number of producers make any facts, in steps that come in any order
between one another and between drains, removals and other uses of memory. At every moment the drained batches
and then the queue hold each fact that was made exactly once and nothing that was not, each producer finds its facts
in its own order, ids are distinct, and each batch becomes live as a whole. -/
theorem producers_lose_nothing {initial : Store} (hinitial : initial.Coherent) (calls : List (List MakeCall))
    (events : List SupplyEvent) : ((start initial calls).run events).LosesNothing initial calls := by
  have h := (@Accounts.start initial calls hinitial).run hinitial events
  generalize (start initial calls).run events = supply at h
  exact
    { merged := ⟨supply.entered, h.line.queue, h.line.made⟩
      once := fun _ _ => h.count_queued hinitial
      calls := h.calls
      results := h.typed.made
      order := fun index => ⟨h.filter_queued hinitial index, h.filter_get_sublist hinitial index⟩
      ids := fun hfew _ _ _ href _ href' => h.eq_of_id?_eq hfew href href'
      together := fun _ hhand type =>
        ⟨get_drain hhand type, fun _ _ href hbatch => h.not_live hinitial hhand href hbatch type⟩
      still := supply.get_step_sublist }

/-- A memory that knows ticks. -/
def tickStore : Store := Store.register {} ⟨"tick", [("n", .nil)]⟩

/-- Two producers, of which the second has two calls and fails in the first. -/
def tickCalls : List (List MakeCall) :=
  [[⟨"tick", [("n", .int 1)]⟩], [⟨"tock", []⟩, ⟨"tick", [("n", .int 2)]⟩]]

/-- The first producer takes its id first and enqueues last, with a drain between. -/
def tickEvents : List SupplyEvent :=
  [.produce 0, .produce 0, .produce 1, .produce 1, .produce 1, .produce 1, .drain, .produce 0, .drain, .wake]

/-- The ids in the drained batch and the queue are not in their order, and nothing is lost. -/
theorem producers_lose_nothing_ticks :
    tickStore.Coherent ∧ ((start tickStore tickCalls).run tickEvents).LosesNothing tickStore tickCalls ∧
      ((start tickStore tickCalls).run tickEvents).queued.map ((start tickStore tickCalls).run tickEvents).store.id? =
        [some ⟨1⟩, some ⟨0⟩] := by
  have hcoherent : tickStore.Coherent := by
    refine ⟨nofun, nofun, fun type template htemplate => ?_⟩
    simp only [tickStore, Store.template?, Store.register, Dictionary.get?_insert] at htemplate
    split at htemplate
    · rename_i htype
      obtain rfl := Option.some.inj htemplate
      exact htype.symm
    · cases htemplate
  exact ⟨hcoherent, producers_lose_nothing hcoherent tickCalls tickEvents, by decide⟩

end Supply

end ProductionSystem
