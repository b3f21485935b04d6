import ProductionSystem.Error

/-!
Pools of workers. A pool queues jobs until it is closed; the jobs queued before are still done.
-/

namespace ProductionSystem

/-- Workers, and the jobs that none of them has begun. -/
structure WorkerPool (J : Type) where
  workers : Nat
  accepting : Bool := true
  queue : List J := []

namespace WorkerPool

variable {J : Type}

/-- A pool of at least one worker. -/
def start (workers : Nat) : WorkerPool J := { workers := max workers 1 }

/-- Queues a job, unless the pool is closed. -/
def submit (pool : WorkerPool J) (job : J) : Except ErrorKind (WorkerPool J) :=
  if pool.accepting then .ok { pool with queue := pool.queue ++ [job] } else .error .shutdown

/-- Queues jobs in order, up to the first that is refused. -/
def submitAll (pool : WorkerPool J) (jobs : List J) : Except ErrorKind (WorkerPool J) :=
  jobs.foldlM submit pool

/-- Hands all queued jobs over to the workers. -/
def takeAll (pool : WorkerPool J) : List J × WorkerPool J := (pool.queue, { pool with queue := [] })

/-- Closes a pool. Its workers leave after the jobs that were queued, which are handed over. -/
def shutdown (pool : WorkerPool J) : List J × WorkerPool J :=
  (pool.queue, { workers := 0, accepting := false, queue := [] })

end WorkerPool

end ProductionSystem
