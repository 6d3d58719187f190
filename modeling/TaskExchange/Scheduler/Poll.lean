import TaskExchange.Scheduler.Dispatch

/-!
Polls: a worker asks for tasks of a lane and is given some at once, or waits on a connection of its
own until one comes.  A worker that stops waiting leaves its line first and then reads what may have
come in the meantime; what a worker was given and never read is taken back.  So no task is lost on
the way.
-/

namespace TaskExchange

/-- What comes of a worker's poll. -/
inductive PollOutcome where
  /-- The worker is given tasks at once. -/
  | dispatched (tasks : List Task)
  /-- The worker waits until a task comes. -/
  | parked

namespace Scheduler

/-- How many tasks a poll is given at most. -/
def batchLimit (s : Scheduler) : Kind → Nat
  | .regional => max 1 s.limits.maxBatch
  | .priority => 1

/-- A worker polls on a connection of its own: it is given tasks from the head of its lane's line,
or waits at the end of the line of workers. -/
def poll (s : Scheduler) (now : Moment) (lane : Lane) (c : ConnectionId) :
    PollOutcome × Scheduler :=
  match s.takeQueued now lane (s.batchLimit lane.kind) with
  | ([], s) => (.parked, { s with pool := s.pool.pushBack lane c })
  | (tasks, s) => (.dispatched tasks, s)

/-! ### Polls that end -/

/-- A worker stops waiting in a lane and reads what may have come. -/
def releasePoll (s : Scheduler) (lane : Lane) (c : ConnectionId) :
    Option (List Task) × Scheduler :=
  let (tasks, polls) := s.polls.take c
  (tasks, { s with pool := s.pool.keep lane (· ≠ c), polls })

/-- Takes back tasks that were given to a worker which never read them; tells how many of them were
in flight. -/
def returnUndelivered (s : Scheduler) (now : Moment) (tasks : List Task) : Nat × Scheduler :=
  s.requeueFront now (tasks.map (·.id))

/-- A worker that waits in a lane is gone: what it was given and did not read is taken back. -/
def abandonPoll (s : Scheduler) (now : Moment) (lane : Lane) (c : ConnectionId) :
    Nat × Scheduler :=
  match s.releasePoll lane c with
  | (some tasks, s) => s.returnUndelivered now tasks
  | (none, s) => (0, s)

end Scheduler

end TaskExchange
