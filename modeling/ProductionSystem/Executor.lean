import ProductionSystem.Store
import ProductionSystem.WorkerPool

/-!
The executor of asynchronous actions. An accepted job holds a ticket until it has ended, so that the
loop can tell whether anything is under way. A ticket that is given back wakes the loop.
-/

namespace ProductionSystem

/-- The proof that a job is under way. -/
structure Ticket where
  serial : Nat
  rule : String
  deriving DecidableEq

/-- A pool of workers, and the tickets that are out. -/
structure Executor (J : Type) where
  pool : WorkerPool (Ticket × J)
  tickets : List Ticket := []
  /-- How many tickets were ever issued. -/
  issued : Nat := 0

namespace Executor

variable {J : Type}

/-- An executor with at least one worker. -/
def start (workers : Nat) : Executor J := { pool := .start workers }

/-- Takes a ticket back and wakes the loop. -/
def release (executor : Executor J) (store : Store) (ticket : Ticket) : Executor J × Store :=
  ({ executor with tickets := executor.tickets.erase ticket }, store.wake)

/-- Issues a ticket for a job and queues the job. If the pool is closed, the ticket is taken back. -/
def submit (executor : Executor J) (store : Store) (rule : String) (job : J) :
    Except ErrorKind Ticket × Executor J × Store :=
  let ticket : Ticket := ⟨executor.issued, rule⟩
  let issuing := { executor with tickets := executor.tickets ++ [ticket], issued := executor.issued + 1 }
  match executor.pool.submit (ticket, job) with
  | .ok pool => (.ok ticket, { issuing with pool }, store)
  | .error cause => (.error cause, issuing.release store ticket)

/-- How many jobs are under way. -/
def outstanding (executor : Executor J) : Nat := executor.tickets.length

/-- Hands all queued jobs over to the workers. Their tickets stay out until the jobs have ended. -/
def takeAll (executor : Executor J) : List (Ticket × J) × Executor J :=
  let (jobs, pool) := executor.pool.takeAll
  (jobs, { executor with pool })

/-- Closes the pool. The jobs queued before are handed over. -/
def shutdown (executor : Executor J) : List (Ticket × J) × Executor J :=
  let (jobs, pool) := executor.pool.shutdown
  (jobs, { executor with pool })

end Executor

end ProductionSystem
