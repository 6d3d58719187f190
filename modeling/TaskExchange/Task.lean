import TaskExchange.Ident
import TaskExchange.Json.Value
import TaskExchange.Lane
import TaskExchange.Time.Timestamp

/-!
Tasks: a request is what a producer submits, and a task is a request that the exchange has accepted
under a number.  A task is queued or in flight; one that is done, answered or given up is no longer
a task.
-/

namespace TaskExchange

/-- A unit of work as submitted. -/
structure Request where
  /-- The job that the work belongs to; regional work needs one. -/
  job : Option JobId
  /-- Whose workers may do the work. -/
  category : Category
  /-- What is passed on to the worker. -/
  payload : Members
  deriving Inhabited

/-- Where a task stands. -/
inductive TaskState where
  /-- It waits in its lane. -/
  | queued
  /-- A worker was given it. -/
  | inFlight
  deriving DecidableEq, Inhabited

/-- A unit of work that the exchange has accepted. -/
structure Task where
  id : TaskId
  job : Option JobId
  category : Category
  kind : Kind
  payload : Members
  state : TaskState
  /-- How many times a worker was given the task; the count is exact for fewer than 2^32 handovers
  of the task. -/
  deliveries : Nat
  createdAt : Timestamp
  deriving Inhabited

namespace Task

/-- A request that has just been accepted. -/
def ofRequest (id : TaskId) (kind : Kind) (createdAt : Timestamp) (r : Request) : Task where
  id := id
  job := r.job
  category := r.category
  kind := kind
  payload := r.payload
  state := .queued
  deliveries := 0
  createdAt := createdAt

/-- The task, given to a worker. -/
def dispatch (t : Task) : Task := { t with state := .inFlight, deliveries := t.deliveries + 1 }

/-- The task, waiting once more. -/
def requeue (t : Task) : Task := { t with state := .queued }

/-- The task as it was before a worker was given it in vain. -/
def undoDispatch (t : Task) : Task := { t with state := .queued, deliveries := t.deliveries - 1 }

/-- Holds of a task of a job. -/
def isRegional (t : Task) : Bool := t.kind = .regional

/-- The lane that the task waits in. -/
def lane (t : Task) : Lane := ⟨t.kind, t.category⟩

/-- Giving a queued task away in vain leaves no mark on it. -/
theorem undoDispatch_dispatch {t : Task} (h : t.state = .queued) : t.dispatch.undoDispatch = t := by
  cases t; simp_all [dispatch, undoDispatch]

end Task

end TaskExchange
