import ProductionSystem.Dictionary
import ProductionSystem.Template

/-!
Working memory. Facts are created into a queue of pending facts and become live only when the queue
is drained, so that matching sees a memory at rest. A fact instance is known by its reference; the
queue, the live lists and the snapshots hold references, so that a change to the fields of a fact
shows everywhere. Every enqueued fact and every wake-up advances the epoch, by which a waiting loop
notices that something happened.
-/

namespace ProductionSystem

/-- A fact instance: its place in the table of all facts. -/
structure FactRef where
  index : Nat
  deriving DecidableEq

/-- The live facts by type, in the order in which they became live. -/
abbrev LiveIndex := Dictionary (List FactRef)

namespace LiveIndex

def of (live : LiveIndex) (type : String) : List FactRef := (live.get? type).getD []

/-- How many facts are live. -/
def count (live : LiveIndex) : Nat := (live.entries.flatMap fun entry => entry.2).length

/-- Adds a fact at the end of the list of its type. -/
def add (live : LiveIndex) (type : String) (ref : FactRef) : LiveIndex :=
  live.insert type (live.of type ++ [ref])

end LiveIndex

/-- Working memory. -/
structure Store where
  /-- Every fact instance there ever was. -/
  facts : Array Fact := #[]
  templates : Dictionary Template := {}
  /-- The facts that wait to become live, oldest first. -/
  pending : List FactRef := []
  live : LiveIndex := Dictionary.empty
  /-- The id of the next fact to be created. -/
  nextId : UInt64 := 0
  epoch : UInt64 := 0

/-- The live facts of one moment. -/
structure Snapshot where
  live : LiveIndex

namespace Store

instance : Inhabited Store := ⟨{}⟩

/-- The fact that a reference stands for. -/
def fact? (store : Store) (ref : FactRef) : Option Fact := store.facts[ref.index]?

/-- Puts a fact in the place of the one that a reference stands for. -/
def update (store : Store) (ref : FactRef) (fact : Fact) : Store :=
  { store with facts := store.facts.setIfInBounds ref.index fact }

/-- Registers a template, in place of an earlier one for the type. -/
def register (store : Store) (template : Template) : Store :=
  { store with templates := store.templates.insert template.type template }

def template? (store : Store) (type : String) : Option Template := store.templates.get? type

def takeId (store : Store) : FactId × Store :=
  (⟨store.nextId⟩, { store with nextId := store.nextId + 1 })

/-- Enters a fact into the table of facts. -/
def enter (store : Store) (fact : Fact) : FactRef × Store :=
  (⟨store.facts.size⟩, { store with facts := store.facts.push fact })

def enqueue (store : Store) (ref : FactRef) : Store :=
  { store with pending := store.pending ++ [ref], epoch := store.epoch + 1 }

/-- Tells a waiting loop that something happened. -/
def wake (store : Store) : Store := { store with epoch := store.epoch + 1 }

/-- Creates a fact from the template of its type and enqueues it. The id is taken before the
overrides are looked at, so that a refused field uses one up. -/
def make (store : Store) (type : String) (overrides : List (String × Value)) :
    Except ErrorKind FactRef × Store :=
  match store.template? type with
  | none => (.error (.schema type), store)
  | some template =>
    let (id, store) := store.takeId
    match template.instantiate id overrides with
    | .error e => (.error e, store)
    | .ok fact =>
      let (ref, store) := store.enter fact
      (.ok ref, store.enqueue ref)

def enliven (store : Store) (live : LiveIndex) (ref : FactRef) : LiveIndex :=
  match store.fact? ref with
  | some fact => live.add fact.type ref
  | none => live

/-- Moves every pending fact to the live ones. -/
def drain (store : Store) : Store :=
  { store with pending := [], live := store.pending.foldl store.enliven store.live }

/-- Are facts waiting to become live? A drain moves something exactly then. -/
def hasPending (store : Store) : Bool := !store.pending.isEmpty

/-- Has nothing happened since the epoch was read? A loop that waits for a signal goes on waiting. -/
def quietSince (store : Store) (seen : UInt64) : Bool := store.pending.isEmpty && store.epoch == seen

def get (store : Store) (type : String) : List FactRef := store.live.of type

def size (store : Store) : Nat := store.live.count

/-- Does the reference stand for a fact of the id? -/
def hasId (store : Store) (id : FactId) (ref : FactRef) : Bool :=
  match store.fact? ref with
  | some fact => fact.id = id
  | none => false

/-- Removes the first live fact of the same type and id, and marks the given instance as retracted.
Tells whether there was one. -/
def remove (store : Store) (ref : FactRef) : Bool × Store :=
  match store.fact? ref with
  | none => (false, store)
  | some fact =>
    let peers := store.get fact.type
    if peers.any (store.hasId fact.id) then
      (true, { store with live := store.live.insert fact.type (peers.eraseP (store.hasId fact.id)) }.update
        ref { fact with retracted := true })
    else (false, store)

/-- Overwrites one field of a fact. -/
def set (store : Store) (ref : FactRef) (field : String) (value : Value) : Except ErrorKind Unit × Store :=
  match store.fact? ref with
  | none => (.ok (), store)
  | some fact =>
    match fact.set field value with
    | .ok fact => (.ok (), store.update ref fact)
    | .error e => (.error e, store)

/-- Overwrites several fields of a fact, or none. -/
def setMany (store : Store) (ref : FactRef) (values : List (String × Value)) :
    Except ErrorKind Unit × Store :=
  match store.fact? ref with
  | none => (.ok (), store)
  | some fact =>
    match fact.setMany values with
    | .ok fact => (.ok (), store.update ref fact)
    | .error e => (.error e, store)

/-- The live facts as they stand. -/
def snapshot (store : Store) : Snapshot := ⟨store.live⟩

/-- Forgets the templates, the queue and the live facts. Ids and epochs go on. -/
def reset (store : Store) : Store :=
  { store with templates := {}, pending := [], live := Dictionary.empty }

end Store

namespace Snapshot

def get (snapshot : Snapshot) (type : String) : List FactRef := snapshot.live.of type

def size (snapshot : Snapshot) : Nat := snapshot.live.count

end Snapshot

end ProductionSystem
