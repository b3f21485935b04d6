import ProductionSystem.Executor

/-!
The executor, its callers and its workers, one locked section at a time. A submit call issues a ticket, sends the
job to the pool, and gives the ticket back if the pool refuses the job. A worker takes a job, does it, and gives
the ticket back, whether the job returned or panicked. A call that shuts the executor down closes the pool and
waits until the last worker has left; a call that waits for all tickets sleeps as long as one is out, and is woken
by the last that comes back. What jobs and workers are is left open, and so is what a job does to working memory.
-/

namespace ProductionSystem

/-- What is done to working memory in one go, and how many signals that raises. -/
structure Change where
  apply : Store → Store
  signals : Nat := 0
  epoch_apply (store : Store) : (apply store).epoch = store.epoch + UInt64.ofNat signals

/-- How a job ended. -/
inductive Ending where
  | returned
  | panicked

/-- A job in the hands of a worker. -/
structure Running (J W : Type) where
  ticket : Ticket
  job : J
  /-- How far the worker has come with it. -/
  progress : W

/-- A job that the pool refused. -/
structure Refusal (J : Type) where
  ticket : Ticket
  job : J
  cause : ErrorKind

/-- The calls that wait until no ticket is out. -/
structure Waiters where
  /-- How many are about to look at the tickets. -/
  awake : Nat := 0
  asleep : Nat := 0
  returned : Nat := 0

/-- The calls and jobs under way, and what became of the others. -/
structure Floor (J W : Type) where
  /-- Submit calls with a ticket whose job is not sent yet. -/
  calling : List (Ticket × J) := []
  /-- Submit calls whose job was refused and whose ticket is not back yet. -/
  refused : List (Refusal J) := []
  running : List (Running J W) := []
  waiters : Waiters := {}
  /-- Does a shutdown call wait for the workers to leave? -/
  joining : Bool := false
  /-- How many shutdown calls have returned. -/
  shutdowns : Nat := 0
  submitted : List (Ticket × J) := []
  accepted : List (Ticket × J) := []
  begun : List (Ticket × J) := []
  finished : List (Running J W × Ending) := []
  rejected : List (Refusal J) := []
  /-- The signals that jobs and others have raised. -/
  signals : Nat := 0

/-- An executor at work. -/
structure Crew (J W : Type) where
  executor : Executor J
  store : Store
  floor : Floor J W := {}

/-- A move of a caller or of a worker. -/
inductive CrewMove (J W : Type) where
  /-- A submit call begins: it issues a ticket. -/
  | call (rule : String) (job : J)
  /-- A submit call sends its job. -/
  | send (index : Nat)
  /-- A refused submit call gives its ticket back. -/
  | giveBack (index : Nat)
  /-- An idle worker takes the next job. -/
  | take (begin : J → W)
  /-- A worker goes on with its job. -/
  | work (index : Nat) (progress : W) (change : Change)
  /-- A job is over, and its ticket goes back. -/
  | finish (index : Nat) (ending : Ending)
  /-- Somebody else acts on working memory. -/
  | act (change : Change)
  /-- A shutdown call begins. -/
  | shutdown
  /-- An idle worker leaves. -/
  | leave
  /-- A shutdown call returns after the last worker. -/
  | join
  /-- A call begins to wait until no ticket is out. -/
  | await
  /-- A waiting call looks at the tickets. -/
  | look

namespace CrewMove

variable {J W : Type}

/-- Is it a move of a worker? -/
def byWorkers : CrewMove J W → Bool
  | take _ | work _ _ _ | finish _ _ | leave => true
  | call _ _ | send _ | giveBack _ | act _ | shutdown | join | await | look => false

/-- Does it bring a submit call in progress nearer to its end? -/
def byCallers : CrewMove J W → Bool
  | send _ | giveBack _ => true
  | _ => false

/-- The job that a call submits, and for which rule. -/
def submission? : CrewMove J W → Option (String × J)
  | call rule job => some (rule, job)
  | _ => none

/-- Does a call begin to wait? -/
def awaits : CrewMove J W → Bool
  | await => true
  | _ => false

end CrewMove

namespace Running

variable {J W : Type}

def entry (running : Running J W) : Ticket × J := (running.ticket, running.job)

end Running

namespace Refusal

variable {J : Type}

def entry (refusal : Refusal J) : Ticket × J := (refusal.ticket, refusal.job)

end Refusal

/-- What was put at the end of a list is taken out again. -/
theorem eraseIdx_concat_length {α : Type} (l : List α) (a : α) : (l ++ [a]).eraseIdx l.length = l := by
  rw [List.eraseIdx_append_of_length_le (Nat.le_refl _), Nat.sub_self, List.eraseIdx_cons_zero, List.append_nil]

namespace Executor

variable {J : Type}

/-- Issues a ticket. -/
def issue (executor : Executor J) (rule : String) : Ticket × Executor J :=
  let ticket : Ticket := ⟨executor.issued, rule⟩
  (ticket, { executor with tickets := executor.tickets ++ [ticket], issued := executor.issued + 1 })

end Executor

namespace Waiters

/-- How many calls ever waited. -/
def total (waiters : Waiters) : Nat := waiters.awake + waiters.asleep + waiters.returned

/-- The last ticket wakes who sleeps. -/
def notify (tickets : List Ticket) (waiters : Waiters) : Waiters :=
  if tickets.isEmpty then { waiters with awake := waiters.awake + waiters.asleep, asleep := 0 } else waiters

/-- A call that is awake returns if no ticket is out, and goes to sleep if there is one. -/
def look (tickets : List Ticket) (waiters : Waiters) : Waiters :=
  match waiters.awake with
  | 0 => waiters
  | awake + 1 =>
    if tickets.isEmpty then { waiters with awake, returned := waiters.returned + 1 }
    else { waiters with awake, asleep := waiters.asleep + 1 }

end Waiters

namespace Floor

variable {J W : Type} (floor : Floor J W)

/-- The jobs that workers have in hand. -/
def inHand : List (Ticket × J) := floor.running.map Running.entry

/-- The jobs that are over. -/
def done : List (Ticket × J) := floor.finished.map (·.1.entry)

/-- The jobs that were turned away. -/
def turnedAway : List (Ticket × J) := floor.rejected.map Refusal.entry

/-- The jobs of submit calls in progress. -/
def inCalls : List (Ticket × J) := floor.calling ++ floor.refused.map Refusal.entry

end Floor

namespace Crew

variable {J W : Type}

def start (workers : Nat) (store : Store) : Crew J W := { executor := .start workers, store }

/-- The accepted jobs that are not over. -/
def unfinished (crew : Crew J W) : List (Ticket × J) := crew.executor.pool.queue ++ crew.floor.inHand

/-- The jobs in a submit call, queued, or with a worker. -/
def underWay (crew : Crew J W) : List (Ticket × J) := crew.floor.inCalls ++ crew.unfinished

def call (crew : Crew J W) (rule : String) (job : J) : Crew J W :=
  let (ticket, executor) := crew.executor.issue rule
  let floor := crew.floor
  { crew with
    executor
    floor :=
      { floor with
        calling := floor.calling ++ [(ticket, job)]
        submitted := floor.submitted ++ [(ticket, job)] } }

def send (crew : Crew J W) (index : Nat) : Crew J W :=
  let floor := crew.floor
  match floor.calling[index]? with
  | none => crew
  | some (ticket, job) =>
    let calling := floor.calling.eraseIdx index
    match crew.executor.pool.submit (ticket, job) with
    | .ok pool =>
      { crew with
        executor := { crew.executor with pool }
        floor := { floor with calling, accepted := floor.accepted ++ [(ticket, job)] } }
    | .error cause => { crew with floor := { floor with calling, refused := floor.refused ++ [⟨ticket, job, cause⟩] } }

/-- A ticket goes back, which wakes the loop, and who waits for the last ticket. -/
def release (crew : Crew J W) (ticket : Ticket) : Crew J W :=
  let (executor, store) := crew.executor.release crew.store ticket
  { executor, store, floor := { crew.floor with waiters := crew.floor.waiters.notify executor.tickets } }

def giveBack (crew : Crew J W) (index : Nat) : Crew J W :=
  match crew.floor.refused[index]? with
  | none => crew
  | some refusal =>
    let released := crew.release refusal.ticket
    { released with
      floor :=
        { released.floor with
          refused := crew.floor.refused.eraseIdx index
          rejected := crew.floor.rejected ++ [refusal] } }

def take (crew : Crew J W) (begin : J → W) : Crew J W :=
  let executor := crew.executor
  let floor := crew.floor
  if floor.running.length < executor.pool.workers then
    match executor.pool.queue with
    | [] => crew
    | (ticket, job) :: queue =>
      { crew with
        executor := { executor with pool := { executor.pool with queue } }
        floor :=
          { floor with
            running := floor.running ++ [⟨ticket, job, begin job⟩]
            begun := floor.begun ++ [(ticket, job)] } }
  else crew

def act (crew : Crew J W) (change : Change) : Crew J W :=
  { crew with
    store := change.apply crew.store
    floor := { crew.floor with signals := crew.floor.signals + change.signals } }

def work (crew : Crew J W) (index : Nat) (progress : W) (change : Change) : Crew J W :=
  match crew.floor.running[index]? with
  | none => crew
  | some running =>
    let acted := crew.act change
    { acted with floor := { acted.floor with running := acted.floor.running.set index { running with progress } } }

def finish (crew : Crew J W) (index : Nat) (ending : Ending) : Crew J W :=
  match crew.floor.running[index]? with
  | none => crew
  | some running =>
    let released := crew.release running.ticket
    { released with
      floor :=
        { released.floor with
          running := crew.floor.running.eraseIdx index
          finished := crew.floor.finished ++ [(running, ending)] } }

/-- A shutdown call begins. If the pool is closed, the call returns at once; there is only one at a time. -/
def shutdown (crew : Crew J W) : Crew J W :=
  let executor := crew.executor
  let floor := crew.floor
  if floor.joining then crew
  else if executor.pool.accepting then
    { crew with
      executor := { executor with pool := { executor.pool with accepting := false } }
      floor := { floor with joining := true } }
  else { crew with floor := { floor with shutdowns := floor.shutdowns + 1 } }

/-- A worker with no job leaves once the pool is closed and the queue empty. -/
def leave (crew : Crew J W) : Crew J W :=
  let pool := crew.executor.pool
  if !pool.accepting && pool.queue.isEmpty && crew.floor.running.length < pool.workers then
    { crew with executor := { crew.executor with pool := { pool with workers := pool.workers - 1 } } }
  else crew

def join (crew : Crew J W) : Crew J W :=
  let floor := crew.floor
  if floor.joining && crew.executor.pool.workers = 0 then
    { crew with floor := { floor with joining := false, shutdowns := floor.shutdowns + 1 } }
  else crew

def await (crew : Crew J W) : Crew J W :=
  let waiters := crew.floor.waiters
  { crew with floor := { crew.floor with waiters := { waiters with awake := waiters.awake + 1 } } }

def look (crew : Crew J W) : Crew J W :=
  { crew with floor := { crew.floor with waiters := crew.floor.waiters.look crew.executor.tickets } }

def step (crew : Crew J W) : CrewMove J W → Crew J W
  | .call rule job => crew.call rule job
  | .send index => crew.send index
  | .giveBack index => crew.giveBack index
  | .take begin => crew.take begin
  | .work index progress change => crew.work index progress change
  | .finish index ending => crew.finish index ending
  | .act change => crew.act change
  | .shutdown => crew.shutdown
  | .leave => crew.leave
  | .join => crew.join
  | .await => crew.await
  | .look => crew.look

def run (crew : Crew J W) (moves : List (CrewMove J W)) : Crew J W := moves.foldl step crew

/-- A property that each move keeps is kept by all of them. -/
theorem run_induction {P : Crew J W → Prop} (hstep : ∀ crew move, P crew → P (crew.step move)) {crew : Crew J W}
    (h : P crew) (moves : List (CrewMove J W)) : P (crew.run moves) :=
  List.foldlRecOn moves step h fun crew hcrew move _ => hstep crew move hcrew

section

variable {crew : Crew J W} {index : Nat} {ticket : Ticket} {job : J}

/-- An open pool queues the job. -/
theorem send_of_open (hcalling : crew.floor.calling[index]? = some (ticket, job))
    (hopen : crew.executor.pool.accepting = true) :
    crew.send index =
      { crew with
        executor :=
          { crew.executor with
            pool := { crew.executor.pool with queue := crew.executor.pool.queue ++ [(ticket, job)] } }
        floor :=
          { crew.floor with
            calling := crew.floor.calling.eraseIdx index
            accepted := crew.floor.accepted ++ [(ticket, job)] } } := by
  simp only [send, hcalling, WorkerPool.submit, hopen, if_true]

/-- A closed pool refuses the job. -/
theorem send_of_closed (hcalling : crew.floor.calling[index]? = some (ticket, job))
    (hclosed : crew.executor.pool.accepting = false) :
    crew.send index =
      { crew with
        floor :=
          { crew.floor with
            calling := crew.floor.calling.eraseIdx index
            refused := crew.floor.refused ++ [⟨ticket, job, .shutdown⟩] } } := by
  simp only [send, hcalling, WorkerPool.submit, hclosed, Bool.false_eq_true, if_false]

theorem giveBack_of_none (hrefused : crew.floor.refused[index]? = none) : crew.giveBack index = crew := by
  simp only [giveBack, hrefused]

theorem giveBack_of_some {refusal : Refusal J} (hrefused : crew.floor.refused[index]? = some refusal) :
    crew.giveBack index =
      { crew.release refusal.ticket with
        floor :=
          { crew.floor with
            refused := crew.floor.refused.eraseIdx index
            rejected := crew.floor.rejected ++ [refusal]
            waiters := crew.floor.waiters.notify (crew.release refusal.ticket).executor.tickets } } := by
  simp only [giveBack, hrefused]
  rfl

end

/-- A submit call that begins is the last of those in progress. -/
theorem getElem?_calling_call (crew : Crew J W) (rule : String) (job : J) :
    (crew.call rule job).floor.calling[crew.floor.calling.length]? = some ((crew.executor.issue rule).1, job) :=
  List.getElem?_concat_length

theorem eraseIdx_calling_call (crew : Crew J W) (rule : String) (job : J) :
    (crew.call rule job).floor.calling.eraseIdx crew.floor.calling.length = crew.floor.calling :=
  eraseIdx_concat_length _ _

/-- The moves of a submit call that nothing interrupts, whatever other calls are in progress. -/
def submission (crew : Crew J W) (rule : String) (job : J) : List (CrewMove J W) :=
  [.call rule job, .send crew.floor.calling.length, .giveBack crew.floor.refused.length]

/-- Submitting to an open pool: the job is accepted, and its ticket is out. -/
theorem run_submission_of_open {crew : Crew J W} (hopen : crew.executor.pool.accepting = true) (rule : String)
    (job : J) :
    let ticket := (crew.executor.issue rule).1
    let called := crew.run (crew.submission rule job)
    crew.executor.submit crew.store rule job = (.ok ticket, called.executor, called.store) ∧
      called.executor.tickets = crew.executor.tickets ++ [ticket] ∧
      called.floor =
        { crew.floor with
          submitted := crew.floor.submitted ++ [(ticket, job)]
          accepted := crew.floor.accepted ++ [(ticket, job)] } := by
  intro ticket called
  have hcalled : called =
      ((crew.call rule job).send crew.floor.calling.length).giveBack crew.floor.refused.length := rfl
  have hcalling := crew.getElem?_calling_call rule job
  have hrest := crew.eraseIdx_calling_call rule job
  have hsent := send_of_open hcalling hopen
  have hrefused : ((crew.call rule job).send crew.floor.calling.length).floor.refused[crew.floor.refused.length]? =
      none := by
    rw [hsent]
    exact List.getElem?_eq_none (Nat.le_refl _)
  rw [giveBack_of_none hrefused, hsent, hrest] at hcalled
  rw [hcalled, Executor.submit, WorkerPool.submit, if_pos hopen]
  exact ⟨rfl, rfl, rfl⟩

/-- Submitting to a closed pool: the job is turned away, and the ticket goes back at once. -/
theorem run_submission_of_closed {crew : Crew J W} (hclosed : crew.executor.pool.accepting = false) (rule : String)
    (job : J) :
    let ticket := (crew.executor.issue rule).1
    let called := crew.run (crew.submission rule job)
    crew.executor.submit crew.store rule job = (.error .shutdown, called.executor, called.store) ∧
      called.executor.tickets = (crew.executor.tickets ++ [ticket]).erase ticket ∧
      called.floor =
        { crew.floor with
          submitted := crew.floor.submitted ++ [(ticket, job)]
          rejected := crew.floor.rejected ++ [⟨ticket, job, .shutdown⟩]
          waiters := crew.floor.waiters.notify called.executor.tickets } := by
  intro ticket called
  have hcalled : called =
      ((crew.call rule job).send crew.floor.calling.length).giveBack crew.floor.refused.length := rfl
  have hcalling := crew.getElem?_calling_call rule job
  have hrest := crew.eraseIdx_calling_call rule job
  rw [send_of_closed hcalling hclosed, hrest, giveBack_of_some List.getElem?_concat_length] at hcalled
  dsimp only at hcalled
  rw [show (crew.call rule job).floor.refused = crew.floor.refused from rfl, eraseIdx_concat_length] at hcalled
  rw [hcalled, Executor.submit, WorkerPool.submit, hclosed]
  exact ⟨rfl, rfl, rfl⟩

end Crew

end ProductionSystem
