import TaskExchange.Scheduler.State

/-!
Reports: the progress of the jobs, the oldest first, and the sizes of the scheduler's lines, pools
and tables.
-/

namespace TaskExchange

/-- The sizes of the scheduler's parts. -/
structure Counts where
  jobs : Nat
  queuedRegional : Nat
  queuedPriority : Nat
  inFlight : Nat
  /-- How many requesters wait for results. -/
  waitingProducers : Nat
  /-- How many workers wait for regional tasks. -/
  parkedRegional : Nat
  /-- How many workers wait for priority tasks. -/
  parkedPriority : Nat
  deriving DecidableEq

namespace JobStatus

/-- Takes one outstanding task of the job into account. -/
def count (status : JobStatus) (t : Task) : JobStatus :=
  let status := { status with deliveries := status.deliveries + t.deliveries }
  match t.state with
  | .queued => { status with queued := status.queued + 1 }
  | .inFlight => { status with inFlight := status.inFlight + 1 }

end JobStatus

namespace Scheduler

/-- The progress of a job. -/
def statusOf (s : Scheduler) (j : Job) : JobStatus :=
  (j.outstanding.toList.filterMap (s.tasks[·]?)).foldl JobStatus.count
    ⟨j.id, j.category.graph, j.category.version, j.total, 0, 0, j.completed, 0⟩

/-- The progress of the job of a name. -/
def jobStatus? (s : Scheduler) (job : JobId) : Option JobStatus := s.jobs[job]?.map s.statusOf

/-- Jobs are listed by the time of their creation, and by name when they are of the same time. -/
def listedBefore (a b : Job) : Bool :=
  ((compare a.createdAt b.createdAt).then (compare a.id b.id)).isLE

/-- The progress of every job, the oldest first. -/
def jobStatuses (s : Scheduler) : List JobStatus :=
  ((s.jobs.toList.map (·.2)).mergeSort listedBefore).map s.statusOf

/-- The sizes of all parts. -/
def counts (s : Scheduler) : Counts where
  jobs := s.jobs.size
  queuedRegional := s.queues.count .regional
  queuedPriority := s.queues.count .priority
  inFlight := s.inFlight.size
  waitingProducers := s.producers.size
  parkedRegional := s.pool.count .regional
  parkedPriority := s.pool.count .priority

end Scheduler

end TaskExchange
