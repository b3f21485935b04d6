import ProductionSystem.Command

/-!
What a thread does to the workspace, one locked section at a time. Commands and producers outside act through calls.
Most calls are one section; but a fact is made in three, the last of which enqueues it, and a halt raises the
flag before it wakes the loop. So other threads can come between. A script says which calls a thread makes, each
depending on what the calls before it brought; a thread is a script or in the middle of a call of one.
-/

namespace ProductionSystem

/-- The calls of a thread, up to its result. -/
inductive Script (R : Type) where
  | done (result : R)
  /-- Reads whatever there is to read. -/
  | look (next : Workspace → Script R)
  | register (template : Template) (next : Script R)
  | make (type : String) (overrides : List (String × Value)) (next : Except ErrorKind FactRef → Script R)
  | enqueue (ref : FactRef) (next : Script R)
  | wake (next : Script R)
  | halt (next : Script R)
  | modify (ref : FactRef) (values : List (String × Value)) (next : Except ErrorKind Unit → Script R)
  | write (line : String) (next : Script R)

/-- A thread between two locked sections. -/
inductive Thread (R : Type) where
  /-- Before the next call, or at the end. -/
  | between (script : Script R)
  /-- Making a fact, with its template read. -/
  | making (template : Template) (overrides : List (String × Value)) (next : Except ErrorKind FactRef → Script R)
  /-- Making a fact that is built and not yet enqueued. -/
  | offering (fact : Fact) (next : Except ErrorKind FactRef → Script R)
  /-- Halting, with the flag raised since it was lowered for the given time, before the loop is woken. -/
  | waking (run : Nat) (next : Script R)

/-- How a command ends: with its error, if any, and with the firing as it left it. -/
abbrev Ended := Option ErrorKind × Firing

/-- What makes a script of a command. -/
abbrev Reading := Command → List Value → Firing → Script Ended

namespace Store

/-- The rest of making a fact, with its template read. -/
def makeFrom (store : Store) (template : Template) (overrides : List (String × Value)) :
    Except ErrorKind FactRef × Store :=
  let (id, store) := store.takeId
  match template.instantiate id overrides with
  | .error cause => (.error cause, store)
  | .ok fact =>
    let (ref, store) := store.enter fact
    (.ok ref, store.enqueue ref)

theorem make_eq (store : Store) (type : String) (overrides : List (String × Value)) :
    store.make type overrides =
      match store.template? type with
      | none => (.error (.schema type), store)
      | some template => store.makeFrom template overrides := rfl

/-- The other store has the same queue and epoch, and as many facts. -/
structure KeepsQueue (store after : Store) : Prop where
  epoch : after.epoch = store.epoch
  pending : after.pending = store.pending
  size : after.facts.size = store.facts.size

namespace KeepsQueue

theorem trans {store middle after : Store} (h : store.KeepsQueue middle) (hlater : middle.KeepsQueue after) :
    store.KeepsQueue after :=
  ⟨hlater.epoch.trans h.epoch, hlater.pending.trans h.pending, hlater.size.trans h.size⟩

theorem setMany (store : Store) (ref : FactRef) (values : List (String × Value)) :
    store.KeepsQueue (store.setMany ref values).2 := by
  unfold Store.setMany
  split
  · exact ⟨rfl, rfl, rfl⟩
  · split
    · exact ⟨rfl, rfl, Array.size_setIfInBounds ..⟩
    · exact ⟨rfl, rfl, rfl⟩

theorem remove (store : Store) (ref : FactRef) : store.KeepsQueue (store.remove ref).2 := by
  unfold Store.remove
  split
  · exact ⟨rfl, rfl, rfl⟩
  · dsimp only
    split
    · exact ⟨rfl, rfl, Array.size_setIfInBounds ..⟩
    · exact ⟨rfl, rfl, rfl⟩

theorem removeAll (store : Store) (refs : List FactRef) :
    store.KeepsQueue (refs.foldl (fun store ref => (store.remove ref).2) store) :=
  List.foldlRecOn (motive := store.KeepsQueue) refs _ ⟨rfl, rfl, rfl⟩ fun middle h ref _ => h.trans (remove middle ref)

end KeepsQueue

end Store

namespace Workspace

def withStore (workspace : Workspace) (store : Store) : Workspace := { workspace with store }

end Workspace

namespace Script

variable {R : Type}

/-- The script to its end, with nothing between its calls. -/
def finish : Script R → Workspace → R × Workspace
  | done result, workspace => (result, workspace)
  | look next, workspace => (next workspace).finish workspace
  | register template next, workspace => next.finish (workspace.withStore (workspace.store.register template))
  | make type overrides next, workspace =>
    let (result, store) := workspace.store.make type overrides
    (next result).finish (workspace.withStore store)
  | enqueue ref next, workspace => next.finish (workspace.withStore (workspace.store.enqueue ref))
  | wake next, workspace => next.finish (workspace.withStore workspace.store.wake)
  | halt next, workspace => next.finish workspace.halt
  | modify ref values next, workspace =>
    let (result, store) := workspace.store.setMany ref values
    (next result).finish (workspace.withStore store)
  | write line next, workspace => next.finish (workspace.write line)

end Script

namespace Thread

variable {R : Type}

/-- The next locked section. The flag was lowered `lowered` times before. -/
def step (lowered : Nat) : Thread R → Workspace → Thread R × Workspace
  | .between (.done result), workspace => (.between (.done result), workspace)
  | .between (.look next), workspace => (.between (next workspace), workspace)
  | .between (.register template next), workspace =>
    (.between next, workspace.withStore (workspace.store.register template))
  | .between (.make type overrides next), workspace =>
    match workspace.store.template? type with
    | none => (.between (next (.error (.schema type))), workspace)
    | some template => (making template overrides next, workspace)
  | .between (.enqueue ref next), workspace => (.between next, workspace.withStore (workspace.store.enqueue ref))
  | .between (.wake next), workspace => (.between next, workspace.withStore workspace.store.wake)
  | .between (.halt next), workspace => (waking lowered next, { workspace with halted := true })
  | .between (.modify ref values next), workspace =>
    let (result, store) := workspace.store.setMany ref values
    (.between (next result), workspace.withStore store)
  | .between (.write line next), workspace => (.between next, workspace.write line)
  | making template overrides next, workspace =>
    let (id, store) := workspace.store.takeId
    match template.instantiate id overrides with
    | .error cause => (.between (next (.error cause)), workspace.withStore store)
    | .ok fact => (offering fact next, workspace.withStore store)
  | offering fact next, workspace =>
    let (ref, store) := workspace.store.enter fact
    (.between (next (.ok ref)), workspace.withStore (store.enqueue ref))
  | waking _ next, workspace => (.between next, workspace.withStore workspace.store.wake)

/-- The thread to its end, with nothing between its sections. -/
def finish : Thread R → Workspace → R × Workspace
  | .between script, workspace => script.finish workspace
  | making template overrides next, workspace =>
    let (result, store) := workspace.store.makeFrom template overrides
    (next result).finish (workspace.withStore store)
  | offering fact next, workspace =>
    let (ref, store) := workspace.store.enter fact
    (next (.ok ref)).finish (workspace.withStore (store.enqueue ref))
  | waking _ next, workspace => next.finish (workspace.withStore workspace.store.wake)

/-- The result of a thread that has come to its end. -/
def result? : Thread R → Option R
  | .between (.done result) => some result
  | _ => none

/-- How many signals the next section raises. -/
def signals : Thread R → Nat
  | .between (.enqueue _ _) | .between (.wake _) | offering _ _ | waking _ _ => 1
  | _ => 0

/-- The fact that the next section makes. -/
def makes (store : Store) : Thread R → List FactRef
  | offering fact _ => [(store.enter fact).1]
  | _ => []

/-- The fact that the next section enqueues without making it. -/
def offers : Thread R → List FactRef
  | .between (.enqueue ref _) => [ref]
  | _ => []

/-- Is the next section the first of a halt? -/
def raises : Thread R → Bool
  | .between (.halt _) => true
  | _ => false

/-- The halt that the thread is in the middle of, by how often the flag had been lowered when it was raised. -/
def raised : Thread R → List Nat
  | waking run _ => [run]
  | _ => []

/-- Sections in a row come to what the calls come to. -/
theorem finish_step (lowered : Nat) (thread : Thread R) (workspace : Workspace) :
    (thread.step lowered workspace).1.finish (thread.step lowered workspace).2 = thread.finish workspace := by
  cases thread with
  | between script =>
      cases script with
      | make type overrides next =>
          simp only [step, finish, Script.finish, Store.make_eq]
          cases workspace.store.template? type with
          | none => rfl
          | some template => rfl
      | done _ | look _ | register _ _ | enqueue _ _ | wake _ | halt _ | modify _ _ _ | write _ _ => rfl
  | making template overrides next =>
      simp only [step, finish, Store.makeFrom]
      cases template.instantiate workspace.store.takeId.1 overrides with
      | error cause => rfl
      | ok fact => rfl
  | offering _ _ | waking _ _ => rfl

/-- What holds of a thread at its end, and before a section if it holds after it, holds of every thread. -/
theorem induction_to_end {P : Thread R → Workspace → Prop} (lowered : Nat)
    (hdone : ∀ result workspace, P (.between (.done result)) workspace)
    (hstep : ∀ thread workspace, thread.result? = none →
      P (thread.step lowered workspace).1 (thread.step lowered workspace).2 → P thread workspace)
    (thread : Thread R) (workspace : Workspace) : P thread workspace := by
  have hscript (script : Script R) : ∀ workspace, P (.between script) workspace := by
    induction script with
    | done result => exact hdone result
    | look next ih => exact fun workspace => hstep _ _ rfl (ih workspace workspace)
    | register _ next ih | enqueue _ next ih | wake next ih | write _ next ih =>
        exact fun workspace => hstep _ _ rfl (ih _)
    | halt next ih => exact fun workspace => hstep _ _ rfl (hstep _ _ rfl (ih _))
    | modify ref values next ih => exact fun workspace => hstep _ _ rfl (ih _ _)
    | make type overrides next ih =>
        intro workspace
        -- without a template the call is over after its first section, without a fact after its second
        refine hstep _ _ rfl ?_
        simp only [step]
        cases workspace.store.template? type with
        | none => exact ih _ _
        | some template =>
            refine hstep _ _ rfl ?_
            simp only [step]
            cases template.instantiate workspace.store.takeId.1 overrides with
            | error cause => exact ih _ _
            | ok fact => exact hstep _ _ rfl (ih _ _)
  cases thread with
  | between script => exact hscript script workspace
  | making template overrides next =>
      refine hstep _ _ rfl ?_
      simp only [step]
      cases template.instantiate workspace.store.takeId.1 overrides with
      | error cause => exact hscript _ _
      | ok fact => exact hstep _ _ rfl (hscript _ _)
  | offering fact next => exact hstep _ _ rfl (hscript _ _)
  | waking run next => exact hstep _ _ rfl (hscript _ _)

/-- What a section does to the queue, to the epoch, to the number of facts and to the flag. -/
structure Effect (lowered : Nat) (thread : Thread R) (before : Workspace) (next : Thread R) (after : Workspace) :
    Prop where
  epoch : after.store.epoch = before.store.epoch + UInt64.ofNat thread.signals
  pending : after.store.pending = before.store.pending ++ (thread.makes before.store ++ thread.offers)
  size : after.store.facts.size = before.store.facts.size + (thread.makes before.store).length
  halted : after.halted = (before.halted || thread.raises)
  raised : next.raised = if thread.raises then [lowered] else []

/-- A section that does none of this. -/
theorem Effect.of_silent {lowered : Nat} {thread next : Thread R} {before after : Workspace}
    (hsignals : thread.signals = 0) (hmakes : thread.makes before.store = []) (hoffers : thread.offers = [])
    (hraises : thread.raises = false) (hraised : next.raised = [])
    (hepoch : after.store.epoch = before.store.epoch) (hpending : after.store.pending = before.store.pending)
    (hsize : after.store.facts.size = before.store.facts.size) (hhalted : after.halted = before.halted) :
    Effect lowered thread before next after where
  epoch := by rw [hsignals, hepoch]; exact (UInt64.add_zero _).symm
  pending := by rw [hmakes, hoffers, hpending, List.append_nil, List.append_nil]
  size := by rw [hmakes, hsize, List.length_nil, Nat.add_zero]
  halted := by rw [hraises, hhalted, Bool.or_false]
  raised := by rw [hraises, hraised]; rfl

/-- A section that puts one fact into the queue. -/
theorem Effect.of_enqueue {lowered : Nat} {thread next : Thread R} {before after : Workspace} {ref : FactRef}
    (hsignals : thread.signals = 1) (hrefs : thread.makes before.store ++ thread.offers = [ref])
    (hraises : thread.raises = false) (hraised : next.raised = [])
    (hepoch : after.store.epoch = before.store.epoch + 1)
    (hpending : after.store.pending = before.store.pending ++ [ref])
    (hsize : after.store.facts.size = before.store.facts.size + (thread.makes before.store).length)
    (hhalted : after.halted = before.halted) : Effect lowered thread before next after where
  epoch := by rw [hsignals, hepoch]; rfl
  pending := by rw [hrefs, hpending]
  size := hsize
  halted := by rw [hraises, hhalted, Bool.or_false]
  raised := by rw [hraises, hraised]; rfl

theorem effect_step (lowered : Nat) (thread : Thread R) (workspace : Workspace) :
    Effect lowered thread workspace (thread.step lowered workspace).1 (thread.step lowered workspace).2 := by
  cases thread with
  | between script =>
      cases script with
      | done _ | look _ | register _ _ | write _ _ => exact .of_silent rfl rfl rfl rfl rfl rfl rfl rfl rfl
      | make type overrides next =>
          simp only [step]
          cases workspace.store.template? type with
          | none => exact .of_silent rfl rfl rfl rfl rfl rfl rfl rfl rfl
          | some template => exact .of_silent rfl rfl rfl rfl rfl rfl rfl rfl rfl
      | modify ref values next =>
          obtain ⟨hepoch, hpending, hsize⟩ := Store.KeepsQueue.setMany workspace.store ref values
          exact .of_silent rfl rfl rfl rfl rfl hepoch hpending hsize rfl
      | enqueue ref next => exact .of_enqueue rfl rfl rfl rfl rfl rfl rfl rfl
      | wake next => exact ⟨rfl, (List.append_nil _).symm, rfl, (Bool.or_false _).symm, rfl⟩
      | halt next =>
          exact ⟨(UInt64.add_zero _).symm, (List.append_nil _).symm, rfl, (Bool.or_true _).symm, rfl⟩
  | making template overrides next =>
      simp only [step]
      cases template.instantiate workspace.store.takeId.1 overrides with
      | error cause => exact .of_silent rfl rfl rfl rfl rfl rfl rfl rfl rfl
      | ok fact => exact .of_silent rfl rfl rfl rfl rfl rfl rfl rfl rfl
  | offering fact next => exact .of_enqueue rfl rfl rfl rfl rfl rfl (Array.size_push _) rfl
  | waking run next => exact ⟨rfl, (List.append_nil _).symm, rfl, (Bool.or_false _).symm, rfl⟩

end Thread

end ProductionSystem
