import TaskExchange.Scheduler.Poll
import TaskExchange.Scheduler.Priority
import TaskExchange.Scheduler.Regional
import TaskExchange.Scheduler.Report
import TaskExchange.Settings
import TaskExchange.Worker

/-!
The exchange: the scheduler together with the catalog of workers.  Each operation here is one step
as seen from outside, and what an operation does not find it refuses by name.  From time to time it
is swept: tasks whose leases have ended are given out again, and workers that were not seen for too
long are forgotten.
-/

namespace TaskExchange

/-- The scheduler and the catalog of workers. -/
structure Exchange where
  scheduler : Scheduler
  catalog : Catalog
  deriving Inhabited

namespace Exchange

/-- Nothing was ever submitted and no worker was ever seen. -/
def new (limits : Limits) : Exchange := ⟨.new limits, .empty⟩

/-- Records that a worker polls for a category. -/
def observe (x : Exchange) (now : Moment) (worker : WorkerId) (category : Category) : Exchange :=
  { x with catalog := x.catalog.record now.civil worker category }

/-- Opens the connection of a poll. -/
def openPoll (x : Exchange) : ConnectionId × Exchange :=
  let (c, polls) := x.scheduler.polls.connect
  (c, { x with scheduler := { x.scheduler with polls } })

/-- Opens the connection of a priority request. -/
def openRequest (x : Exchange) : ConnectionId × Exchange :=
  let (c, requesters) := x.scheduler.requesters.connect
  (c, { x with scheduler := { x.scheduler with requesters } })

/-- The waiting side of a poll leaves; nothing else is told of it. -/
def leavePoll (x : Exchange) (c : ConnectionId) : Exchange :=
  { x with scheduler := { x.scheduler with polls := x.scheduler.polls.leave c } }

/-- The waiting side of a priority request leaves; nothing else is told of it. -/
def leaveRequest (x : Exchange) (c : ConnectionId) : Exchange :=
  { x with scheduler := { x.scheduler with requesters := x.scheduler.requesters.leave c } }

/-- Reads what has come to a poll. -/
def readPoll (x : Exchange) (c : ConnectionId) : Option (List Task) × Exchange :=
  let (tasks, polls) := x.scheduler.polls.take c
  (tasks, { x with scheduler := { x.scheduler with polls } })

/-- Reads what has come to a priority request. -/
def readRequest (x : Exchange) (c : ConnectionId) : Option ByteArray × Exchange :=
  let (result, requesters) := x.scheduler.requesters.take c
  (result, { x with scheduler := { x.scheduler with requesters } })

/-- Accepts a batch of regional requests for one job. -/
def enqueueBatch (x : Exchange) (now : Moment) (requests : List Request) :
    Except Refusal (List TaskId × Exchange) :=
  (x.scheduler.enqueueBatch now requests).map fun (ids, s) => (ids, { x with scheduler := s })

/-- A worker polls on a connection. -/
def poll (x : Exchange) (now : Moment) (lane : Lane) (c : ConnectionId) :
    PollOutcome × Exchange :=
  let (outcome, s) := x.scheduler.poll now lane c
  (outcome, { x with scheduler := s })

/-- Acknowledges the completion of a regional task. -/
def acknowledge (x : Exchange) (id : TaskId) : Except Refusal Exchange :=
  match x.scheduler.acknowledge? id with
  | some s => .ok { x with scheduler := s }
  | none => .error (.taskNotFound id)

/-- The worker that was given a regional task is lost. -/
def reportLost (x : Exchange) (now : Moment) (id : TaskId) : Bool × Exchange :=
  let (found, s) := x.scheduler.reportLost now id
  (found, { x with scheduler := s })

/-- Takes back the tasks whose leases have ended by now. -/
def requeueExpired (x : Exchange) (now : Moment) : Nat × Exchange :=
  let (count, s) := x.scheduler.requeueExpired now now.steady
  (count, { x with scheduler := s })

/-- Deletes a job with the tasks it still has. -/
def deleteJob (x : Exchange) (job : JobId) : Except Refusal Exchange :=
  match x.scheduler.deleteJob? job with
  | some s => .ok { x with scheduler := s }
  | none => .error (.jobNotFound job)

/-- Accepts a request whose result is awaited on a connection. -/
def submit (x : Exchange) (now : Moment) (r : Request) (c : ConnectionId) : TaskId × Exchange :=
  let (id, s) := x.scheduler.submit now r c
  (id, { x with scheduler := s })

/-- Sends a worker's result to the requester of a priority task. -/
def complete (x : Exchange) (id : TaskId) (result : ByteArray) :
    Except Refusal ResultDelivery × Exchange :=
  let (outcome, s) := x.scheduler.complete id result
  (outcome, { x with scheduler := s })

/-- A requester is gone: its task is forgotten.  Tells whether there was one. -/
def cancel (x : Exchange) (id : TaskId) : Bool × Exchange :=
  let (producer, s) := x.scheduler.withdraw id
  (producer.isSome, { x with scheduler := s })

/-- A requester stops waiting: its task is forgotten, and it reads the result that may have come. -/
def releaseRequest (x : Exchange) (id : TaskId) (c : ConnectionId) :
    Option ByteArray × Exchange :=
  let (result, s) := x.scheduler.releaseRequest id c
  (result, { x with scheduler := s })

/-- A worker stops waiting in a lane and reads what may have come. -/
def releasePoll (x : Exchange) (lane : Lane) (c : ConnectionId) :
    Option (List Task) × Exchange :=
  let (tasks, s) := x.scheduler.releasePoll lane c
  (tasks, { x with scheduler := s })

/-- A worker that waits in a lane is gone: what it was given and did not read is taken back. -/
def abandonPoll (x : Exchange) (now : Moment) (lane : Lane) (c : ConnectionId) : Exchange :=
  { x with scheduler := (x.scheduler.abandonPoll now lane c).2 }

/-- The progress of every job, the oldest first, and of all of them together. -/
def jobStatuses (x : Exchange) : List JobStatus × JobSummary :=
  let statuses := x.scheduler.jobStatuses
  (statuses, .ofStatuses statuses)

/-- The latest observation of every worker. -/
def workers (x : Exchange) : List Observation := x.catalog.observations

/-- The sizes of the scheduler's parts. -/
def counts (x : Exchange) : Counts := x.scheduler.counts

/-! ### What is done from time to time -/

/-- Workers last seen before this time are forgotten, if there is such a time. -/
def purgeBefore? (settings : Settings) (now : Moment) : Option Timestamp :=
  settings.workerTtl?.bind now.civil.minusSeconds?

/-- Forgets the workers last seen before a time. -/
def purge (x : Exchange) (cutoff : Timestamp) : Exchange :=
  { x with catalog := (x.catalog.purge cutoff).2 }

/-- Sweeps once; tells how many tasks are given out again. -/
def sweep (x : Exchange) (settings : Settings) (now : Moment) : Nat × Exchange :=
  let (count, x) := x.requeueExpired now
  match purgeBefore? settings now with
  | some cutoff => (count, x.purge cutoff)
  | none => (count, x)

end Exchange

end TaskExchange
