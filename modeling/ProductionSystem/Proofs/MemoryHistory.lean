import ProductionSystem.Proofs.LiveLists
import ProductionSystem.Workspace

/-!
Histories of working memory: any sequence of the operations that programs perform on a store, on the
facts in it and on the snapshots taken of it, with the answers they get. A drain may wait for a signal;
what others do to memory during the wait is a list of arrivals. A fact instance, once entered, keeps its
id and its type whatever happens.
-/

namespace ProductionSystem

/-- What a program does with working memory. -/
inductive Operation where
  | register (template : Template)
  | make (type : String) (overrides : List (String × Value))
  /-- Creates a fact instance beside working memory. -/
  | create (id : FactId) (type : String) (fields : Fields)
  | enqueue (ref : FactRef)
  | wake
  | drain
  /-- Drains, but waits for a signal first if there was none since an epoch was read. -/
  | drainSince (seen : UInt64) (timeout : Option Nat) (arrivals : List Arrival)
  /-- Drains, but waits for a signal first if nothing is pending. -/
  | drainBlocking (timeout : Option Nat) (arrivals : List Arrival)
  | remove (ref : FactRef)
  | set (ref : FactRef) (field : String) (value : Value)
  | setMany (ref : FactRef) (values : List (String × Value))
  | snapshot
  | reset

namespace Operation

/-- The fact instance that an operation is about, if it is about one. -/
def subject? : Operation → Option FactRef
  | enqueue ref | remove ref | set ref _ _ | setMany ref _ => some ref
  | _ => none

end Operation

/-- What a program is answered. -/
inductive Answer where
  | done
  | flag (b : Bool)
  | made (result : Except ErrorKind FactRef)
  | created (ref : FactRef)
  | written (result : Except ErrorKind Unit)
  /-- A drain that nothing has ended yet. -/
  | waiting
  /-- There is no such fact instance. -/
  | unknown

/-- The answer of a drain that may have had to wait. -/
def Answer.ofDrain : Option Bool → Answer
  | some moved => .flag moved
  | none => .waiting

namespace Store

/-- A drain that may have to wait. It takes in the arrivals up to the one that ends the wait. -/
def drainSince (store : Store) (seen : UInt64) (timeout : Option Nat) (arrivals : List Arrival) :
    Answer × Store :=
  (({ store } : Workspace).drainSince seen timeout arrivals).map .ofDrain fun waited => waited.workspace.store

theorem drainSince_eq (store : Store) (seen : UInt64) (timeout : Option Nat) (arrivals : List Arrival) :
    store.drainSince seen timeout arrivals =
      if store.quietSince seen then
        let waited := ({ store } : Workspace).await seen timeout arrivals
        let store := waited.workspace.store
        if waited.signal?.isSome || timeout.isSome then (.flag store.hasPending, store.drain) else (.waiting, store)
      else (.flag store.hasPending, store.drain) := by
  unfold drainSince Workspace.drainSince
  split
  · dsimp only
    split <;> rfl
  · rfl

/-- Writes to a fact, unless the write is refused. -/
def writeTo (store : Store) (ref : FactRef) (write : Fact → Except ErrorKind Fact) :
    Except ErrorKind Unit × Store :=
  match store.fact? ref with
  | none => (.ok (), store)
  | some fact =>
    match write fact with
    | .ok changed => (.ok (), store.update ref changed)
    | .error e => (.error e, store)

end Store

/-- Working memory and the snapshots taken of it, oldest first. -/
structure Session where
  store : Store := {}
  snapshots : List Snapshot := []

namespace Session

def withStore (session : Session) (store : Store) : Session := { session with store }

/-- Performs an operation on known instances. -/
def perform (session : Session) : Operation → Answer × Session
  | .register template => (.done, session.withStore (session.store.register template))
  | .make type overrides => (session.store.make type overrides).map .made session.withStore
  | .create id type fields => (session.store.enter { id, type, fields }).map .created session.withStore
  | .enqueue ref => (.done, session.withStore (session.store.enqueue ref))
  | .wake => (.done, session.withStore session.store.wake)
  | .drain => (.flag session.store.hasPending, session.withStore session.store.drain)
  | .drainSince seen timeout arrivals => (session.store.drainSince seen timeout arrivals).map id session.withStore
  | .drainBlocking timeout arrivals =>
    (session.store.drainSince session.store.epoch timeout arrivals).map id session.withStore
  | .remove ref => (session.store.remove ref).map .flag session.withStore
  | .set ref field value => (session.store.set ref field value).map .written session.withStore
  | .setMany ref values => (session.store.setMany ref values).map .written session.withStore
  | .snapshot => (.done, { session with snapshots := session.snapshots ++ [session.store.snapshot] })
  | .reset => (.done, session.withStore session.store.reset)

/-- Performs an operation, if the instance that it is about was entered before. -/
def step (session : Session) (operation : Operation) : Answer × Session :=
  if operation.subject?.all fun ref => (session.store.fact? ref).isSome then session.perform operation
  else (.unknown, session)

def run (session : Session) : List Operation → List Answer × Session
  | [] => ([], session)
  | operation :: operations =>
    let (answer, session) := session.step operation
    let (answers, session) := session.run operations
    (answer :: answers, session)

theorem run_append (session : Session) (first second : List Operation) :
    (session.run (first ++ second)).2 = ((session.run first).2.run second).2 := by
  induction first generalizing session with
  | nil => rfl
  | cons operation operations ih => exact ih _

end Session

/-- Does every fact instance that was there keep its id and its type? -/
def KeepsIdentity (before after : Array Fact) : Prop :=
  ∀ (index : Nat) (fact : Fact), before[index]? = some fact →
    ∃ kept, after[index]? = some kept ∧ kept.id = fact.id ∧ kept.type = fact.type

namespace KeepsIdentity

theorem refl (facts : Array Fact) : KeepsIdentity facts facts := fun _ fact h => ⟨fact, h, rfl, rfl⟩

theorem trans {first second third : Array Fact} (h : KeepsIdentity first second)
    (h' : KeepsIdentity second third) : KeepsIdentity first third := by
  intro index fact hfact
  obtain ⟨middle, hmiddle, hid, htype⟩ := h index fact hfact
  obtain ⟨last, hlast, hid', htype'⟩ := h' index middle hmiddle
  exact ⟨last, hlast, hid'.trans hid, htype'.trans htype⟩

theorem push (facts : Array Fact) (new : Fact) : KeepsIdentity facts (facts.push new) := by
  intro index fact hfact
  refine ⟨fact, ?_, rfl, rfl⟩
  obtain ⟨hlt, -⟩ := Array.getElem?_eq_some_iff.1 hfact
  rw [Array.getElem?_push_lt hlt]
  exact hfact ▸ (Array.getElem?_eq_getElem hlt).symm

theorem setIfInBounds {facts : Array Fact} {index : Nat} {fact changed : Fact}
    (hfact : facts[index]? = some fact) (hid : changed.id = fact.id) (htype : changed.type = fact.type) :
    KeepsIdentity facts (facts.setIfInBounds index changed) := by
  intro other kept hkept
  rw [Array.getElem?_setIfInBounds]
  split
  · rename_i heq
    subst heq
    rw [hfact] at hkept
    obtain rfl := Option.some.inj hkept
    obtain ⟨hlt, -⟩ := Array.getElem?_eq_some_iff.1 hfact
    rw [if_pos hlt]
    exact ⟨changed, rfl, hid, htype⟩
  · exact ⟨kept, hkept, rfl, rfl⟩

end KeepsIdentity

namespace Fact

/-- A field write changes the values of fields only. -/
theorem identity_of_set {fact changed : Fact} {field : String} {value : Value}
    (h : fact.set field value = .ok changed) : changed.id = fact.id ∧ changed.type = fact.type := by
  unfold set at h
  split at h
  · obtain rfl := Except.ok.inj h
    exact ⟨rfl, rfl⟩
  · cases h

theorem identity_of_setMany {fact changed : Fact} {values : List (String × Value)}
    (h : fact.setMany values = .ok changed) : changed.id = fact.id ∧ changed.type = fact.type := by
  unfold setMany at h
  split at h
  · cases h
  · obtain rfl := Except.ok.inj h
    exact ⟨rfl, rfl⟩

end Fact

end ProductionSystem
