import ProductionSystem.Store

/-!
What the engine loop, the commands and the producers outside share: working memory, the request to
halt, and the lines written so far.
-/

namespace ProductionSystem

/-- What the loop shares with commands and producers. -/
structure Workspace where
  store : Store := {}
  /-- Was the loop asked to stop? -/
  halted : Bool := false
  lines : Array String := #[]

namespace Workspace

instance : Inhabited Workspace := ⟨{}⟩

/-- Asks the loop to stop, waking it if it waits. -/
def halt (workspace : Workspace) : Workspace :=
  { workspace with halted := true, store := workspace.store.wake }

/-- Takes the request to stop back. -/
def clearHalt (workspace : Workspace) : Workspace := { workspace with halted := false }

def write (workspace : Workspace) (line : String) : Workspace :=
  { workspace with lines := workspace.lines.push line }

end Workspace

/-- What a producer outside the loop does. -/
inductive Signal where
  | make (type : String) (overrides : List (String × Value))
  | wake
  | halt

/-- A signal that comes so many milliseconds after the start of a run. -/
structure Arrival where
  time : Nat
  signal : Signal

/-- How a wait ended. -/
structure Waited where
  workspace : Workspace
  /-- What is still to come. -/
  later : List Arrival
  /-- The time of the signal that ended the wait; a wait that nothing ended has none. -/
  signal? : Option Nat

namespace Workspace

/-- Takes a signal in. A fact that cannot be made is no signal to the loop. -/
def receive (workspace : Workspace) : Signal → Workspace
  | .make type overrides => { workspace with store := (workspace.store.make type overrides).2 }
  | .wake => { workspace with store := workspace.store.wake }
  | .halt => workspace.halt

/-- Waits until something happened since the epoch was read, up to a deadline if there is one. -/
def await (seen : UInt64) (deadline : Option Nat) (workspace : Workspace) : List Arrival → Waited
  | [] => ⟨workspace, [], none⟩
  | arrival :: later =>
    if deadline.all (arrival.time ≤ ·) then
      let workspace := workspace.receive arrival.signal
      if workspace.store.quietSince seen then workspace.await seen deadline later
      else ⟨workspace, later, some arrival.time⟩
    else ⟨workspace, arrival :: later, none⟩

/-- Moves every pending fact to the live ones. -/
def drain (workspace : Workspace) : Workspace := { workspace with store := workspace.store.drain }

/-- Drains, but waits for a signal first if nothing happened since the epoch was read. Tells whether a fact became
live; a wait without a deadline that nothing ends gives no answer. -/
def drainSince (seen : UInt64) (deadline : Option Nat) (workspace : Workspace) (arrivals : List Arrival) :
    Option Bool × Waited :=
  if workspace.store.quietSince seen then
    let waited := workspace.await seen deadline arrivals
    if waited.signal?.isSome || deadline.isSome then
      (some waited.workspace.store.hasPending, { waited with workspace := waited.workspace.drain })
    else (none, waited)
  else (some workspace.store.hasPending, ⟨workspace.drain, arrivals, none⟩)

/-- What taking a signal in keeps, a wait keeps. -/
theorem await_induction {P : Workspace → Prop} {seen : UInt64} {deadline : Option Nat} {arrivals : List Arrival}
    (hreceive : ∀ arrival ∈ arrivals, ∀ workspace, P workspace → P (workspace.receive arrival.signal))
    {workspace : Workspace} (h : P workspace) : P (workspace.await seen deadline arrivals).workspace := by
  induction arrivals generalizing workspace with
  | nil => exact h
  | cons arrival later ih =>
    rw [List.forall_mem_cons] at hreceive
    have hreceived := hreceive.1 workspace h
    simp only [await]
    split
    · split
      · exact ih hreceive.2 hreceived
      · exact hreceived
    · exact h

/-- What is still to come after a wait was to come before. -/
theorem later_await_subset {seen : UInt64} {deadline : Option Nat} {arrivals : List Arrival} (workspace : Workspace) :
    (workspace.await seen deadline arrivals).later ⊆ arrivals := by
  induction arrivals generalizing workspace with
  | nil => exact List.Subset.refl _
  | cons arrival later ih =>
    simp only [await]
    split
    · split
      · exact List.Subset.trans (ih _) (List.subset_cons_self _ _)
      · exact List.subset_cons_self _ _
    · exact List.Subset.refl _

/-- A wait that was ended by a signal took an arrival. -/
theorem length_later_await_lt {seen : UInt64} {deadline : Option Nat} {workspace : Workspace}
    {arrivals : List Arrival} (h : (workspace.await seen deadline arrivals).signal?.isSome) :
    (workspace.await seen deadline arrivals).later.length < arrivals.length := by
  induction arrivals generalizing workspace with
  | nil => simp [await] at h
  | cons arrival rest ih =>
    simp only [await] at h ⊢
    split at h
    · split at h
      · simp_all only [if_true]
        exact Nat.lt_succ_of_lt (ih h)
      · simp_all
    · simp at h

end Workspace

end ProductionSystem
