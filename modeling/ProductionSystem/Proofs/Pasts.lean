import ProductionSystem.Proofs.LiveLists
import ProductionSystem.Proofs.MemoryHistory

/-!
Working memory with a past: the same facts, but as they are called in a memory that has had other facts before. Their
places and ids are counted on from those of the past, and so is the epoch. Nothing that is done with memory asks for
more than which of two ids or epochs are the same, so the past does not show but in these numbers.
-/

namespace ProductionSystem

/-- What has been used up before. -/
structure Past where
  facts : Array Fact := #[]
  ids : UInt64 := 0
  epoch : UInt64 := 0
  lines : Array String := #[]
  /-- How many rules were added. -/
  rules : Nat := 0
  /-- How many tickets were issued. -/
  tickets : Nat := 0

variable (past : Past)

def FactRef.after (ref : FactRef) : FactRef := ⟨past.facts.size + ref.index⟩

def FactId.after (id : FactId) : FactId := ⟨id.number + past.ids⟩

def Fact.after (fact : Fact) : Fact := { fact with id := fact.id.after past }

/-- Applies a function to all that names stand for. -/
def Dictionary.map {α β : Type} (f : α → β) (d : Dictionary α) : Dictionary β where
  entries := d.entries.map fun entry => (entry.1, f entry.2)
  ordered := List.pairwise_map.2 d.ordered

def LiveIndex.after (live : LiveIndex) : LiveIndex := Dictionary.map (List.map (FactRef.after past)) live

def Snapshot.after (snapshot : Snapshot) : Snapshot := ⟨LiveIndex.after past snapshot.live⟩

def Store.after (store : Store) : Store where
  facts := past.facts ++ store.facts.map (Fact.after past)
  templates := store.templates
  pending := store.pending.map (FactRef.after past)
  live := LiveIndex.after past store.live
  nextId := store.nextId + past.ids
  epoch := store.epoch + past.epoch

def Workspace.after (workspace : Workspace) : Workspace where
  store := workspace.store.after past
  halted := workspace.halted
  lines := past.lines ++ workspace.lines

def Operation.after : Operation → Operation
  | .create id type fields => .create (id.after past) type fields
  | .enqueue ref => .enqueue (ref.after past)
  | .drainSince seen timeout arrivals => .drainSince (seen + past.epoch) timeout arrivals
  | .remove ref => .remove (ref.after past)
  | .set ref field value => .set (ref.after past) field value
  | .setMany ref values => .setMany (ref.after past) values
  | operation => operation

def Answer.after : Answer → Answer
  | .made result => .made (result.map (FactRef.after past))
  | .created ref => .created (ref.after past)
  | answer => answer

theorem FactId.after_inj {id other : FactId} : id.after past = other.after past ↔ id = other :=
  ⟨fun h => congrArg FactId.mk ((UInt64.add_left_inj _).1 (FactId.mk.inj h)), fun h => h ▸ rfl⟩

section Dictionaries

variable {α β : Type} (f : α → β)

theorem Slots.get?_map (name : String) (slots : Slots α) :
    Slots.get? name (slots.map fun entry => (entry.1, f entry.2)) = (Slots.get? name slots).map f := by
  induction slots with
  | nil => rfl
  | cons first rest ih =>
      simp only [List.map_cons, Slots.get?, ih]
      split <;> rfl

theorem Dictionary.place_map (name : String) (a : α) (slots : Slots α) :
    place name (f a) (slots.map fun entry => (entry.1, f entry.2)) =
      (place name a slots).map fun entry => (entry.1, f entry.2) := by
  induction slots with
  | nil => rfl
  | cons first rest ih =>
      simp only [List.map_cons, place, ih]
      split
      · rfl
      · split <;> rfl

theorem Dictionary.insert_map (d : Dictionary α) (name : String) (a : α) :
    (d.map f).insert name (f a) = (d.insert name a).map f := by
  simp only [insert, map, place_map]

end Dictionaries

namespace LiveIndex

variable (live : LiveIndex)

theorem of_after (type : String) : LiveIndex.of (live.after past) type = (live.of type).map (FactRef.after past) := by
  have hget : (live.after past).get? type = (live.get? type).map (List.map (FactRef.after past)) :=
    Slots.get?_map _ type live.entries
  rw [of, hget, of]
  cases live.get? type <;> rfl

theorem count_after : LiveIndex.count (live.after past) = live.count := by
  simp only [count, after, Dictionary.map, List.flatMap_map, List.length_flatMap, List.length_map]

theorem add_after (type : String) (ref : FactRef) :
    LiveIndex.add (live.after past) type (ref.after past) = LiveIndex.after past (live.add type ref) := by
  have hrefs : (live.of type).map (FactRef.after past) ++ [ref.after past] =
      (live.of type ++ [ref]).map (FactRef.after past) := by
    rw [List.map_append, List.map_singleton]
  rw [add, of_after, hrefs]
  exact Dictionary.insert_map (List.map (FactRef.after past)) live type (live.of type ++ [ref])

end LiveIndex

namespace Fact

variable {past} (fact : Fact)

theorem set_after (field : String) (value : Value) :
    (fact.after past).set field value = (fact.set field value).map (Fact.after past) := by
  have hfields : (fact.after past).fields = fact.fields := rfl
  rw [set, set, hfields]
  cases Slots.assign? field value fact.fields <;> rfl

theorem setMany_after (values : List (String × Value)) :
    (fact.after past).setMany values = (fact.setMany values).map (Fact.after past) := by
  have hunknown : (fact.after past).unknownField? values = fact.unknownField? values := rfl
  rw [setMany, setMany, hunknown]
  cases fact.unknownField? values <;> rfl

end Fact

theorem Template.instantiate_after (template : Template) (id : FactId) (overrides : List (String × Value)) :
    template.instantiate (id.after past) overrides = (template.instantiate id overrides).map (Fact.after past) := by
  unfold instantiate
  cases override template.type template.defaults overrides <;> rfl

namespace Store

variable (store : Store)

theorem fact?_after (ref : FactRef) :
    (store.after past).fact? (ref.after past) = (store.fact? ref).map (Fact.after past) := by
  simp only [fact?, after, FactRef.after]
  rw [Array.getElem?_append_right (Nat.le_add_right _ _), Nat.add_sub_cancel_left, Array.getElem?_map]

theorem get_after (type : String) : (store.after past).get type = (store.get type).map (FactRef.after past) :=
  LiveIndex.of_after past store.live type

theorem update_after (ref : FactRef) (fact : Fact) :
    (store.after past).update (ref.after past) (fact.after past) = (store.update ref fact).after past := by
  simp only [update, after, FactRef.after]
  rw [Array.setIfInBounds_append_right (Nat.le_add_right _ _), Nat.add_sub_cancel_left, Array.map_setIfInBounds]

theorem succ_add (number used : UInt64) : number + used + 1 = number + 1 + used := by ac_rfl

theorem takeId_after : (store.after past).takeId = (store.takeId.1.after past, store.takeId.2.after past) := by
  simp only [takeId, after, FactId.after, succ_add]

theorem enter_after (fact : Fact) :
    (store.after past).enter (fact.after past) =
      ((store.enter fact).1.after past, (store.enter fact).2.after past) := by
  simp only [enter, after, FactRef.after, Array.size_append, Array.size_map, Array.map_push, Array.append_push]

theorem enqueue_after (ref : FactRef) :
    (store.after past).enqueue (ref.after past) = (store.enqueue ref).after past := by
  simp only [enqueue, after, List.map_append, List.map_singleton, succ_add]

theorem wake_after : (store.after past).wake = store.wake.after past := by
  simp only [wake, after, succ_add]

theorem make_after (type : String) (overrides : List (String × Value)) :
    (store.after past).make type overrides =
      ((store.make type overrides).1.map (FactRef.after past), (store.make type overrides).2.after past) := by
  have htemplate : (store.after past).template? type = store.template? type := rfl
  simp only [make, htemplate, takeId_after, Template.instantiate_after]
  cases store.template? type with
  | none => rfl
  | some template =>
      dsimp only
      cases template.instantiate store.takeId.1 overrides with
      | error cause => rfl
      | ok fact => simp only [Except.map, enter_after, enqueue_after]

theorem enliven_after (live : LiveIndex) (ref : FactRef) :
    (store.after past).enliven (live.after past) (ref.after past) = LiveIndex.after past (store.enliven live ref) := by
  simp only [enliven, fact?_after]
  cases store.fact? ref with
  | none => rfl
  | some fact => exact LiveIndex.add_after past live fact.type ref

theorem drain_after : (store.after past).drain = store.drain.after past := by
  have hlive : (store.pending.map (FactRef.after past)).foldl (store.after past).enliven (store.live.after past) =
      LiveIndex.after past (store.pending.foldl store.enliven store.live) := by
    rw [List.foldl_map]
    exact List.foldl_hom (LiveIndex.after past) fun live ref => store.enliven_after past live ref
  exact congrArg (fun live => { store.after past with pending := [], live }) hlive

theorem hasPending_after : (store.after past).hasPending = store.hasPending := by
  simp only [hasPending, after, List.isEmpty_map]

theorem quietSince_after (seen : UInt64) :
    (store.after past).quietSince (seen + past.epoch) = store.quietSince seen := by
  have hepoch : (store.epoch + past.epoch == seen + past.epoch) = (store.epoch == seen) := by
    rw [Bool.eq_iff_iff, beq_iff_eq, beq_iff_eq, UInt64.add_left_inj]
  simp only [quietSince, after, List.isEmpty_map, hepoch]

theorem size_after : (store.after past).size = store.size := LiveIndex.count_after past store.live

theorem hasId_after (id : FactId) (ref : FactRef) :
    (store.after past).hasId (id.after past) (ref.after past) = store.hasId id ref := by
  simp only [hasId, fact?_after]
  cases store.fact? ref with
  | none => rfl
  | some fact => simp only [Option.map_some, Fact.after, FactId.after_inj]

theorem remove_after (ref : FactRef) :
    (store.after past).remove (ref.after past) = ((store.remove ref).1, (store.remove ref).2.after past) := by
  simp only [remove, fact?_after]
  cases store.fact? ref with
  | none => rfl
  | some fact =>
      have hsame : (store.after past).hasId (fact.after past).id ∘ FactRef.after past = store.hasId fact.id :=
        funext fun ref => store.hasId_after past fact.id ref
      have hpeers : (store.after past).get (fact.after past).type = (store.get fact.type).map (FactRef.after past) :=
        store.get_after past fact.type
      simp only [Option.map_some, hpeers, List.any_map, List.eraseP_map, hsame]
      split
      · let peers := (store.get fact.type).eraseP (store.hasId fact.id)
        have hlive : (store.live.after past).insert fact.type (peers.map (FactRef.after past)) =
            LiveIndex.after past (store.live.insert fact.type peers) :=
          Dictionary.insert_map (List.map (FactRef.after past)) store.live fact.type peers
        have hupdate := update_after past { store with live := store.live.insert fact.type peers } ref
          { fact with retracted := true }
        refine Prod.ext rfl (Eq.trans ?_ hupdate)
        exact congrArg (fun live => { store.after past with live }.update (ref.after past)
          { fact.after past with retracted := true }) hlive
      · rfl

theorem set_after (ref : FactRef) (field : String) (value : Value) :
    (store.after past).set (ref.after past) field value =
      ((store.set ref field value).1, (store.set ref field value).2.after past) := by
  simp only [set, fact?_after]
  cases store.fact? ref with
  | none => rfl
  | some fact =>
      simp only [Option.map_some, Fact.set_after]
      cases fact.set field value with
      | error cause => rfl
      | ok changed => simp only [Except.map, update_after]

theorem setMany_after (ref : FactRef) (values : List (String × Value)) :
    (store.after past).setMany (ref.after past) values =
      ((store.setMany ref values).1, (store.setMany ref values).2.after past) := by
  simp only [setMany, fact?_after]
  cases store.fact? ref with
  | none => rfl
  | some fact =>
      simp only [Option.map_some, Fact.setMany_after]
      cases fact.setMany values with
      | error cause => rfl
      | ok changed => simp only [Except.map, update_after]

end Store

namespace Workspace

variable (workspace : Workspace)

theorem halt_after : (workspace.after past).halt = workspace.halt.after past := by
  simp only [halt, after, Store.wake_after]

theorem write_after (line : String) : (workspace.after past).write line = (workspace.write line).after past := by
  simp only [write, after, Array.append_push]

theorem receive_after (signal : Signal) :
    (workspace.after past).receive signal = (workspace.receive signal).after past := by
  cases signal with
  | make type overrides => simp only [receive, after, Store.make_after]
  | wake => simp only [receive, after, Store.wake_after]
  | halt => exact workspace.halt_after past

/-- What ends a wait does not depend on the past. -/
theorem await_after (seen : UInt64) (deadline : Option Nat) (arrivals : List Arrival) :
    (workspace.after past).await (seen + past.epoch) deadline arrivals =
      { workspace.await seen deadline arrivals with
        workspace := (workspace.await seen deadline arrivals).workspace.after past } := by
  induction arrivals generalizing workspace with
  | nil => rfl
  | cons arrival later ih =>
      have hquiet : ((workspace.receive arrival.signal).after past).store.quietSince (seen + past.epoch) =
          (workspace.receive arrival.signal).store.quietSince seen := Store.quietSince_after past _ seen
      simp only [await, receive_after, hquiet]
      split
      · split
        · exact ih (workspace.receive arrival.signal)
        · rfl
      · rfl

end Workspace

theorem Store.drainSince_after (store : Store) (seen : UInt64) (timeout : Option Nat) (arrivals : List Arrival) :
    (store.after past).drainSince (seen + past.epoch) timeout arrivals =
      ((store.drainSince seen timeout arrivals).1.after past,
        (store.drainSince seen timeout arrivals).2.after past) := by
  -- a memory by itself has written nothing
  let silent : Past := { past with lines := #[] }
  have hwaited : ({ store := store.after past } : Workspace).await (seen + past.epoch) timeout arrivals = _ :=
    Workspace.await_after silent { store } seen timeout arrivals
  have hpending (store : Store) : (store.after silent).hasPending = store.hasPending := store.hasPending_after silent
  simp only [drainSince_eq, quietSince_after, hwaited, hasPending_after]
  split
  · split
    · exact Prod.ext (congrArg Answer.flag (hpending _)) (Store.drain_after silent _)
    · rfl
  · exact Prod.ext rfl (store.drain_after past)

namespace Session

def after (session : Session) : Session where
  store := session.store.after past
  snapshots := session.snapshots.map (Snapshot.after past)

variable (session : Session)

theorem perform_after (operation : Operation) :
    (session.after past).perform (operation.after past) =
      ((session.perform operation).1.after past, (session.perform operation).2.after past) := by
  have answered {α : Type} {f : α → Answer} {result result' : α × Store} (h : result = result') :
      result.map f (session.after past).withStore = result'.map f (session.after past).withStore :=
    congrArg (Prod.map f (session.after past).withStore) h
  have left {answer : Answer} {store store' : Store} (h : store = store') :
      (answer, (session.after past).withStore store) = (answer, (session.after past).withStore store') :=
    congrArg (fun store => (answer, (session.after past).withStore store)) h
  cases operation with
  | register template => rfl
  | make type overrides => exact answered (session.store.make_after past type overrides)
  | create id type fields => exact answered (session.store.enter_after past { id, type, fields })
  | enqueue ref => exact left (session.store.enqueue_after past ref)
  | wake => exact left (session.store.wake_after past)
  | drain =>
      have hdrain : ((session.store.after past).hasPending, (session.store.after past).drain) =
          (session.store.hasPending, session.store.drain.after past) :=
        Prod.ext (session.store.hasPending_after past) (session.store.drain_after past)
      exact answered hdrain
  | drainSince seen timeout arrivals => exact answered (session.store.drainSince_after past seen timeout arrivals)
  | drainBlocking timeout arrivals =>
      exact answered (session.store.drainSince_after past session.store.epoch timeout arrivals)
  | remove ref => exact answered (session.store.remove_after past ref)
  | set ref field value => exact answered (session.store.set_after past ref field value)
  | setMany ref values => exact answered (session.store.setMany_after past ref values)
  | snapshot => simp only [perform, after, List.map_append, List.map_singleton, Operation.after, Answer.after]; rfl
  | reset => rfl

theorem step_after (operation : Operation) :
    (session.after past).step (operation.after past) =
      ((session.step operation).1.after past, (session.step operation).2.after past) := by
  have hknown : ((operation.after past).subject?.all fun ref => ((session.after past).store.fact? ref).isSome) =
      operation.subject?.all fun ref => (session.store.fact? ref).isSome := by
    have hsame (ref : FactRef) :
        ((session.store.after past).fact? (ref.after past)).isSome = (session.store.fact? ref).isSome := by
      rw [Store.fact?_after, Option.isSome_map]
    cases operation <;> first | rfl | exact hsame _
  simp only [step, hknown, perform_after]
  split <;> rfl

end Session

section Since

def FactRef.before (ref : FactRef) : FactRef := ⟨ref.index - past.facts.size⟩

def FactId.before (id : FactId) : FactId := ⟨id.number - past.ids⟩

def Snapshot.before (snapshot : Snapshot) : Snapshot := ⟨Dictionary.map (List.map (FactRef.before past)) snapshot.live⟩

/-- An operation, as it is called without the past. -/
def Operation.before : Operation → Operation
  | .create id type fields => .create (id.before past) type fields
  | .enqueue ref => .enqueue (ref.before past)
  | .drainSince seen timeout arrivals => .drainSince (seen - past.epoch) timeout arrivals
  | .remove ref => .remove (ref.before past)
  | .set ref field value => .set (ref.before past) field value
  | .setMany ref values => .setMany (ref.before past) values
  | operation => operation

/-- Was a fact made after the past? -/
def FactRef.IsSince (ref : FactRef) : Prop := past.facts.size ≤ ref.index

/-- Does a snapshot hold no fact of the past? -/
def Snapshot.IsSince (snapshot : Snapshot) : Prop := ∀ entry ∈ snapshot.live.entries, ∀ ref ∈ entry.2, ref.IsSince past

/-- Is an operation about no fact of the past? -/
def Operation.IsSince (operation : Operation) : Prop := ∀ ref ∈ operation.subject?, ref.IsSince past

variable {past}

theorem FactRef.after_before {ref : FactRef} (h : ref.IsSince past) : (ref.before past).after past = ref :=
  congrArg FactRef.mk (Nat.add_sub_cancel' h)

theorem FactId.after_before (id : FactId) : (id.before past).after past = id :=
  congrArg FactId.mk (UInt64.sub_add_cancel _ _)

theorem Snapshot.after_before {snapshot : Snapshot} (h : snapshot.IsSince past) :
    (snapshot.before past).after past = snapshot := by
  obtain ⟨⟨entries, ordered⟩⟩ := snapshot
  have hrefs (entry : String × List FactRef) (hentry : entry ∈ entries) :
      (entry.2.map (FactRef.before past)).map (FactRef.after past) = entry.2 := by
    rw [List.map_map]
    exact (List.map_congr_left fun ref href => FactRef.after_before (h entry hentry ref href)).trans (List.map_id' _)
  have hentries : (entries.map fun entry => (entry.1, entry.2.map (FactRef.before past))).map
      (fun entry => (entry.1, entry.2.map (FactRef.after past))) = entries := by
    have hentry (entry : String × List FactRef) (hentry : entry ∈ entries) :
        (entry.1, (entry.2.map (FactRef.before past)).map (FactRef.after past)) = entry :=
      Prod.ext rfl (hrefs entry hentry)
    rw [List.map_map]
    exact (List.map_congr_left hentry).trans (List.map_id' _)
  simp only [Snapshot.after, before, LiveIndex.after, Dictionary.map, hentries]

theorem Operation.after_before {operation : Operation} (h : operation.IsSince past) :
    (operation.before past).after past = operation := by
  cases operation with
  | create id type fields => exact congrArg (Operation.create · type fields) (FactId.after_before id)
  | drainSince seen timeout arrivals =>
      exact congrArg (Operation.drainSince · timeout arrivals) (UInt64.sub_add_cancel seen past.epoch)
  | enqueue ref => exact congrArg Operation.enqueue (FactRef.after_before (h ref rfl))
  | remove ref => exact congrArg Operation.remove (FactRef.after_before (h ref rfl))
  | set ref field value => exact congrArg (Operation.set · field value) (FactRef.after_before (h ref rfl))
  | setMany ref values => exact congrArg (Operation.setMany · values) (FactRef.after_before (h ref rfl))
  | _ => rfl

end Since

end ProductionSystem
