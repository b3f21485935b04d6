import Mathlib.Data.List.Forall2
import ProductionSystem.Proofs.MemoryHistory

/-!
Working memory told flat: one queue of pending facts and one list of live facts of all types, a counter of
ids and one of signals. What a store keeps by type is here read off the one list; no operation changes the
id or the type of a fact instance, so the list that a snapshot was taken of can be read off later as well.
-/

namespace ProductionSystem

/-- Working memory with one list of live facts. -/
structure FlatMemory where
  /-- Every fact instance there ever was. -/
  instances : Array Fact := #[]
  templates : String → Option Template := fun _ => none
  /-- The facts that wait to become live, first in first out. -/
  queue : List FactRef := []
  /-- The live facts of all types, in the order in which they became live. -/
  live : List FactRef := []
  /-- How many ids were issued. -/
  issued : Nat := 0
  /-- How often a fact was enqueued or a waiting loop woken. -/
  signals : Nat := 0
  /-- The lists of live facts that snapshots were taken of, oldest first. -/
  snapshots : List (List FactRef) := []

namespace FlatMemory

def fact? (memory : FlatMemory) (ref : FactRef) : Option Fact := memory.instances[ref.index]?

def hasType (memory : FlatMemory) (type : String) (ref : FactRef) : Bool :=
  (memory.fact? ref).any fun fact => fact.type = type

def isTwin (memory : FlatMemory) (fact : Fact) (ref : FactRef) : Bool :=
  (memory.fact? ref).any fun other => other.type = fact.type && other.id = fact.id

/-- The epoch that the signals so far have advanced to. -/
def epoch (memory : FlatMemory) : UInt64 := .ofNat memory.signals

def get (memory : FlatMemory) (type : String) : List FactRef := memory.live.filter (memory.hasType type)

def update (memory : FlatMemory) (ref : FactRef) (fact : Fact) : FlatMemory :=
  { memory with instances := memory.instances.setIfInBounds ref.index fact }

def register (memory : FlatMemory) (template : Template) : FlatMemory :=
  { memory with
    templates := fun type => if type = template.type then some template else memory.templates type }

def enter (memory : FlatMemory) (fact : Fact) : FactRef × FlatMemory :=
  (⟨memory.instances.size⟩, { memory with instances := memory.instances.push fact })

/-- Appends a fact to the queue, which is a signal. -/
def enqueue (memory : FlatMemory) (ref : FactRef) : FlatMemory :=
  { memory with queue := memory.queue ++ [ref], signals := memory.signals + 1 }

/-- Signals without a fact. -/
def wake (memory : FlatMemory) : FlatMemory := { memory with signals := memory.signals + 1 }

def make (memory : FlatMemory) (type : String) (overrides : List (String × Value)) :
    Except ErrorKind FactRef × FlatMemory :=
  match memory.templates type with
  | none => (.error (.schema type), memory)
  | some template =>
    let issuing := { memory with issued := memory.issued + 1 }
    match template.instantiate ⟨.ofNat memory.issued⟩ overrides with
    | .error e => (.error e, issuing)
    | .ok fact => (.ok (issuing.enter fact).1, (issuing.enter fact).2.enqueue (issuing.enter fact).1)

/-- Appends the whole queue to the live facts, and tells whether there was anything in it. -/
def drain (memory : FlatMemory) : Bool × FlatMemory :=
  (!memory.queue.isEmpty, { memory with queue := [], live := memory.live ++ memory.queue })

/-- Deletes the first live fact of the same type and id and marks the given instance, if there is one;
else changes nothing. -/
def remove (memory : FlatMemory) (ref : FactRef) : Bool × FlatMemory :=
  match memory.fact? ref with
  | none => (false, memory)
  | some fact =>
    if memory.live.any (memory.isTwin fact) then
      (true, { memory with live := memory.live.eraseP (memory.isTwin fact) }.update ref
        { fact with retracted := true })
    else (false, memory)

/-- Writes to a fact, unless the write is refused. -/
def writeTo (memory : FlatMemory) (ref : FactRef) (write : Fact → Except ErrorKind Fact) :
    Except ErrorKind Unit × FlatMemory :=
  match memory.fact? ref with
  | none => (.ok (), memory)
  | some fact =>
    match write fact with
    | .ok changed => (.ok (), memory.update ref changed)
    | .error e => (.error e, memory)

def reset (memory : FlatMemory) : FlatMemory :=
  { memory with templates := fun _ => none, queue := [], live := [] }

/-- Would a drain that has seen the epoch wait? -/
def quietSince (memory : FlatMemory) (seen : UInt64) : Bool := memory.queue.isEmpty && memory.epoch == seen

/-- Takes in what somebody else does. -/
def receive (memory : FlatMemory) : Signal → FlatMemory
  | .make type overrides => (memory.make type overrides).2
  | .wake | .halt => memory.wake

/-- Takes in the arrivals up to the deadline or to the first that ends the wait, and tells whether there
was such a one. -/
def await (seen : UInt64) (deadline : Option Nat) (memory : FlatMemory) : List Arrival → Bool × FlatMemory
  | [] => (false, memory)
  | arrival :: later =>
    if deadline.all (arrival.time ≤ ·) then
      let memory := memory.receive arrival.signal
      if memory.quietSince seen then memory.await seen deadline later else (true, memory)
    else (false, memory)

/-- A drain that may have to wait. -/
def drainSince (memory : FlatMemory) (seen : UInt64) (timeout : Option Nat) (arrivals : List Arrival) :
    Answer × FlatMemory :=
  if memory.quietSince seen then
    let (signalled, memory) := memory.await seen timeout arrivals
    if signalled || timeout.isSome then (.flag memory.drain.1, memory.drain.2) else (.waiting, memory)
  else (.flag memory.drain.1, memory.drain.2)

def perform (memory : FlatMemory) : Operation → Answer × FlatMemory
  | .register template => (.done, memory.register template)
  | .make type overrides => (memory.make type overrides).map .made id
  | .create number type fields => (memory.enter { id := number, type, fields }).map .created id
  | .enqueue ref => (.done, memory.enqueue ref)
  | .wake => (.done, memory.wake)
  | .drain => memory.drain.map .flag id
  | .drainSince seen timeout arrivals => memory.drainSince seen timeout arrivals
  | .drainBlocking timeout arrivals => memory.drainSince memory.epoch timeout arrivals
  | .remove ref => (memory.remove ref).map .flag id
  | .set ref field value => (memory.writeTo ref fun fact => fact.set field value).map .written id
  | .setMany ref values => (memory.writeTo ref fun fact => fact.setMany values).map .written id
  | .snapshot => (.done, { memory with snapshots := memory.snapshots ++ [memory.live] })
  | .reset => (.done, memory.reset)

/-- Performs an operation, if the instance that it is about was entered before. -/
def step (memory : FlatMemory) (operation : Operation) : Answer × FlatMemory :=
  if operation.subject?.all fun ref => (memory.fact? ref).isSome then memory.perform operation
  else (.unknown, memory)

def run (memory : FlatMemory) : List Operation → List Answer × FlatMemory
  | [] => ([], memory)
  | operation :: operations =>
    let (answer, memory) := memory.step operation
    let (answers, memory) := memory.run operations
    (answer :: answers, memory)

/-- Has nothing happened to the identity of the instances and to the snapshots? -/
structure Later (memory changed : FlatMemory) : Prop where
  instances : KeepsIdentity memory.instances changed.instances
  snapshots : changed.snapshots = memory.snapshots

namespace Later

theorem refl (memory : FlatMemory) : Later memory memory := ⟨.refl _, rfl⟩

theorem trans {first second third : FlatMemory} (h : Later first second) (h' : Later second third) :
    Later first third := ⟨h.instances.trans h'.instances, h'.snapshots.trans h.snapshots⟩

theorem enter (memory : FlatMemory) (fact : Fact) : Later memory (memory.enter fact).2 :=
  ⟨.push _ _, rfl⟩

theorem make (memory : FlatMemory) (type : String) (overrides : List (String × Value)) :
    Later memory (memory.make type overrides).2 := by
  unfold FlatMemory.make
  split
  · exact .refl memory
  · dsimp only
    split
    · exact ⟨.refl _, rfl⟩
    · exact ⟨.push _ _, rfl⟩

theorem update {memory : FlatMemory} {ref : FactRef} {fact changed : Fact}
    (hfact : memory.fact? ref = some fact) (hid : changed.id = fact.id) (htype : changed.type = fact.type) :
    Later memory (memory.update ref changed) := ⟨.setIfInBounds hfact hid htype, rfl⟩

theorem remove (memory : FlatMemory) (ref : FactRef) : Later memory (memory.remove ref).2 := by
  unfold FlatMemory.remove
  split
  · exact .refl memory
  · rename_i fact hfact
    split
    · have herased : Later memory { memory with live := memory.live.eraseP (memory.isTwin fact) } :=
        ⟨.refl _, rfl⟩
      exact herased.trans (update hfact rfl rfl)
    · exact .refl memory

theorem writeTo (memory : FlatMemory) (ref : FactRef) {write : Fact → Except ErrorKind Fact}
    (hwrite : ∀ fact changed, write fact = .ok changed →
      changed.id = fact.id ∧ changed.type = fact.type) : Later memory (memory.writeTo ref write).2 := by
  unfold FlatMemory.writeTo
  split
  · exact .refl memory
  · rename_i fact hfact
    split
    · rename_i changed hchanged
      obtain ⟨hid, htype⟩ := hwrite fact changed hchanged
      exact update hfact hid htype
    · exact .refl memory

theorem await (memory : FlatMemory) (seen : UInt64) (deadline : Option Nat) (arrivals : List Arrival) :
    Later memory (memory.await seen deadline arrivals).2 := by
  induction arrivals generalizing memory with
  | nil => exact .refl memory
  | cons arrival later ih =>
      have hreceived : Later memory (memory.receive arrival.signal) := by
        cases arrival.signal with
        | make type overrides => exact make memory type overrides
        | wake => exact ⟨.refl _, rfl⟩
        | halt => exact ⟨.refl _, rfl⟩
      simp only [FlatMemory.await]
      split
      · split
        · exact hreceived.trans (ih _)
        · exact hreceived
      · exact .refl memory

theorem drainSince (memory : FlatMemory) (seen : UInt64) (timeout : Option Nat) (arrivals : List Arrival) :
    Later memory (memory.drainSince seen timeout arrivals).2 := by
  have hwaited := await memory seen timeout arrivals
  simp only [FlatMemory.drainSince]
  split
  · split
    · exact hwaited.trans ⟨.refl _, rfl⟩
    · exact hwaited
  · exact ⟨.refl _, rfl⟩

theorem perform (memory : FlatMemory) {operation : Operation} (hother : operation ≠ .snapshot) :
    Later memory (memory.perform operation).2 := by
  cases operation with
  | register template => exact ⟨.refl _, rfl⟩
  | make type overrides => exact make memory type overrides
  | create id type fields => exact enter memory _
  | enqueue ref => exact ⟨.refl _, rfl⟩
  | wake => exact ⟨.refl _, rfl⟩
  | drain => exact ⟨.refl _, rfl⟩
  | drainSince seen timeout arrivals => exact drainSince memory seen timeout arrivals
  | drainBlocking timeout arrivals => exact drainSince memory memory.epoch timeout arrivals
  | remove ref => exact remove memory ref
  | set ref field value => exact writeTo memory ref fun _ _ => Fact.identity_of_set
  | setMany ref values => exact writeTo memory ref fun _ _ => Fact.identity_of_setMany
  | snapshot => exact absurd rfl hother
  | reset => exact ⟨.refl _, rfl⟩

end Later

theorem keepsIdentity_step (memory : FlatMemory) (operation : Operation) :
    KeepsIdentity memory.instances (memory.step operation).2.instances := by
  unfold step
  split
  · by_cases hsnapshot : operation = .snapshot
    · subst hsnapshot
      exact .refl _
    · exact (Later.perform memory hsnapshot).instances
  · exact .refl _

/-- Whatever happens, every fact instance keeps its id and its type. -/
theorem keepsIdentity_run (memory : FlatMemory) (operations : List Operation) :
    KeepsIdentity memory.instances (memory.run operations).2.instances := by
  induction operations generalizing memory with
  | nil => exact .refl _
  | cons operation operations ih => exact (memory.keepsIdentity_step operation).trans (ih _)

theorem run_append (memory : FlatMemory) (first second : List Operation) :
    (memory.run (first ++ second)).2 = ((memory.run first).2.run second).2 := by
  induction first generalizing memory with
  | nil => rfl
  | cons operation operations ih => exact ih _

/-- The types of known instances stay as they are. -/
theorem filter_hasType_of_keepsIdentity {memory changed : FlatMemory} {refs : List FactRef}
    (hkept : KeepsIdentity memory.instances changed.instances)
    (hknown : ∀ ref ∈ refs, (memory.fact? ref).isSome = true) (type : String) :
    refs.filter (changed.hasType type) = refs.filter (memory.hasType type) := by
  refine List.filter_congr fun ref href => ?_
  obtain ⟨fact, hfact⟩ := Option.isSome_iff_exists.1 (hknown ref href)
  obtain ⟨kept, hstays, -, htype⟩ := hkept ref.index fact hfact
  rw [hasType, hasType, fact?, hstays, hfact, Option.any_some, Option.any_some, htype]

theorem isSome_fact?_of_keepsIdentity {memory changed : FlatMemory} {ref : FactRef}
    (hkept : KeepsIdentity memory.instances changed.instances)
    (hknown : (memory.fact? ref).isSome = true) : (changed.fact? ref).isSome = true := by
  obtain ⟨fact, hfact⟩ := Option.isSome_iff_exists.1 hknown
  obtain ⟨kept, hstays, -⟩ := hkept ref.index fact hfact
  rw [fact?, hstays, Option.isSome_some]

/-- Is every template known under its own type? -/
def Filed (memory : FlatMemory) : Prop := ∀ type template, memory.templates type = some template → template.type = type

theorem templates_make (memory : FlatMemory) (type : String) (overrides : List (String × Value)) :
    (memory.make type overrides).2.templates = memory.templates := by
  unfold make
  split
  · rfl
  · dsimp only
    split
    · rfl
    · rfl

theorem templates_await (seen : UInt64) (deadline : Option Nat) (memory : FlatMemory) (arrivals : List Arrival) :
    (memory.await seen deadline arrivals).2.templates = memory.templates := by
  induction arrivals generalizing memory with
  | nil => rfl
  | cons arrival later ih =>
      have hreceived : (memory.receive arrival.signal).templates = memory.templates := by
        cases arrival.signal with
        | make type overrides => exact memory.templates_make type overrides
        | wake | halt => rfl
      simp only [await]
      split
      · split
        · rw [ih, hreceived]
        · exact hreceived
      · rfl

theorem templates_drainSince (memory : FlatMemory) (seen : UInt64) (timeout : Option Nat) (arrivals : List Arrival) :
    (memory.drainSince seen timeout arrivals).2.templates = memory.templates := by
  have hwaited := memory.templates_await seen timeout arrivals
  simp only [drainSince]
  split
  · split
    · exact hwaited
    · exact hwaited
  · rfl

theorem templates_writeTo (memory : FlatMemory) (ref : FactRef) (write : Fact → Except ErrorKind Fact) :
    (memory.writeTo ref write).2.templates = memory.templates := by
  unfold writeTo
  split
  · rfl
  · split
    · rfl
    · rfl

theorem templates_remove (memory : FlatMemory) (ref : FactRef) :
    (memory.remove ref).2.templates = memory.templates := by
  unfold remove
  split
  · rfl
  · split
    · rfl
    · rfl

section Filed

variable {memory : FlatMemory} (h : memory.Filed)

include h

/-- Templates are known by being registered, and forgotten by a reset. -/
theorem Filed.perform (operation : Operation) : (memory.perform operation).2.Filed := by
  have hkept {after : FlatMemory} (hsame : after.templates = memory.templates) : after.Filed := by
    rw [Filed, hsame]
    exact h
  cases operation with
  | register new =>
      intro type template htemplate
      simp only [FlatMemory.perform, register] at htemplate
      split at htemplate
      · rename_i htype
        rw [← Option.some.inj htemplate, htype]
      · exact h type template htemplate
  | reset => exact nofun
  | make type overrides => exact hkept (memory.templates_make type overrides)
  | drainSince seen timeout arrivals => exact hkept (memory.templates_drainSince seen timeout arrivals)
  | drainBlocking timeout arrivals => exact hkept (memory.templates_drainSince memory.epoch timeout arrivals)
  | remove ref => exact hkept (memory.templates_remove ref)
  | set ref field value => exact hkept (memory.templates_writeTo ref _)
  | setMany ref values => exact hkept (memory.templates_writeTo ref _)
  | create _ _ _ | enqueue _ | wake | drain | snapshot => exact h

theorem Filed.step (operation : Operation) : (memory.step operation).2.Filed := by
  unfold FlatMemory.step
  split
  · exact h.perform operation
  · exact h

theorem Filed.run (operations : List Operation) : (memory.run operations).2.Filed := by
  induction operations generalizing memory with
  | nil => exact h
  | cons operation operations ih => exact ih (h.step operation)

end Filed

end FlatMemory

end ProductionSystem
