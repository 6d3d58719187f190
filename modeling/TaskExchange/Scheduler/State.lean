import TaskExchange.Connection
import TaskExchange.Job
import TaskExchange.Lane
import TaskExchange.Refusal
import TaskExchange.Task
import TaskExchange.Time.Moment

/-!
The scheduler's state: one table owns the tasks, and jobs, lines and deliveries refer to them by
number.  A lane never has tasks and workers waiting at the same time: a worker waits only when its
lane's line is empty, and new work goes to waiting workers first.

This module holds the state and its smallest moves: a delivery begins, a delivery is undone, a task
joins its line, a task is forgotten.
-/

namespace TaskExchange

/-- What bounds the scheduler's work. -/
structure Limits where
  /-- How many regional tasks a poll is given at most; none counts as one. -/
  maxBatch : Nat
  /-- How many tasks a regional line may hold when a batch is accepted. -/
  maxDepth : Nat
  /-- How many nanoseconds a regional task may go unacknowledged before it is given out again. -/
  lease : Nat
  deriving DecidableEq

namespace Limits

/-- One task at a time, a hundred thousand in line, one minute. -/
def standard : Limits := ⟨1, 100000, 60 * Instant.second⟩

instance : Inhabited Limits := ⟨standard⟩

end Limits

/-- The tasks, the lines they wait in, and the connections of all who wait. -/
structure Scheduler where
  limits : Limits
  /-- The number of the next task. -/
  nextId : TaskId
  /-- Every task, under its number. -/
  tasks : Std.ExtTreeMap TaskId Task
  jobs : Std.ExtTreeMap JobId Job
  /-- The tasks that wait for workers. -/
  queues : Lanes TaskId
  /-- The tasks that workers were given, with the end of a regional task's lease if it has one. -/
  inFlight : Std.ExtTreeMap TaskId (Option Instant)
  /-- The connections on which the results of priority tasks are awaited. -/
  producers : Std.ExtTreeMap TaskId ConnectionId
  /-- The workers that wait for tasks. -/
  pool : Lanes ConnectionId
  /-- The waiting sides of polls. -/
  polls : Switchboard (List Task)
  /-- The waiting sides of priority requests. -/
  requesters : Switchboard ByteArray

namespace Scheduler

/-- Nothing was ever submitted. -/
def new (limits : Limits) : Scheduler where
  limits := limits
  nextId := ⟨1⟩
  tasks := ∅
  jobs := ∅
  queues := .empty
  inFlight := ∅
  producers := ∅
  pool := .empty
  polls := .empty
  requesters := .empty

instance : Inhabited Scheduler := ⟨new default⟩

/-- Accepts a request under the next number. -/
def accept (s : Scheduler) (now : Moment) (kind : Kind) (r : Request) : TaskId × Scheduler :=
  let id := s.nextId
  (id, { s with
    nextId := id.next
    tasks := s.tasks.insert id (Task.ofRequest id kind now.civil r) })

/-- When the lease of a task that is given out now will end. -/
def leaseEnd? (s : Scheduler) (now : Moment) (t : Task) : Option Instant :=
  if t.isRegional then now.steady.after? s.limits.lease else none

/-- Marks a task as given out, and makes the copy that the worker is given. -/
def startDelivery? (s : Scheduler) (now : Moment) (id : TaskId) : Option (Task × Scheduler) :=
  s.tasks[id]?.map fun t =>
    (t.dispatch, { s with
      tasks := s.tasks.insert id t.dispatch
      inFlight := s.inFlight.insert id (s.leaseEnd? now t) })

/-- Takes back a delivery that nobody received. -/
def undoDelivery (s : Scheduler) (id : TaskId) : Scheduler :=
  { s with
    tasks := s.tasks.modify id Task.undoDispatch
    inFlight := s.inFlight.erase id }

/-- Puts a task at the end of its line. -/
def queueBack (s : Scheduler) (id : TaskId) : Scheduler :=
  match s.tasks[id]? with
  | some t => { s with queues := s.queues.pushBack t.lane id }
  | none => s

/-- Puts a task at the head of its line. -/
def queueFront (s : Scheduler) (id : TaskId) : Scheduler :=
  match s.tasks[id]? with
  | some t => { s with queues := s.queues.pushFront t.lane id }
  | none => s

/-- Forgets a task: it leaves the table, its worker, and its line if it waits there. -/
def forget (s : Scheduler) (t : Task) : Scheduler :=
  { s with
    tasks := s.tasks.erase t.id
    inFlight := s.inFlight.erase t.id
    queues := if t.state = .queued then s.queues.keep t.lane (· ≠ t.id) else s.queues }

end Scheduler

end TaskExchange
