import TaskExchange.Scheduler.State

/-!
Dispatch: how a task reaches a worker.  A task that becomes ready is tried on the workers that wait
in its lane, the longest waiting first; a worker that has left in the meantime is dropped and the
next one is tried.  A poll takes from the head of its lane's line.  Tasks that come back from
workers go to waiting workers first and otherwise to the head of the line, in the order of their
numbers.
-/

namespace TaskExchange.Scheduler

/-- Tries the workers of a list, which is the lane's line in the pool, on a task; tells whether one
of them received it. -/
def tryWaiting (now : Moment) (id : TaskId) (lane : Lane) :
    List ConnectionId → Scheduler → Bool × Scheduler
  | [], s => (false, s)
  | c :: rest, s =>
    let s := { s with pool := s.pool.setLine lane rest }
    match s.startDelivery? now id with
    | none => (false, s)
    | some (t, s) =>
      match s.polls.send? c [t] with
      | some polls => (true, { s with polls })
      -- This worker has left: the task is again as it was, and the next worker is tried.
      | none => tryWaiting now id lane rest (s.undoDelivery id)

/-- Gives a task to a worker that waits in its lane; tells whether one received it. -/
def dispatchToWaiting (s : Scheduler) (now : Moment) (id : TaskId) : Bool × Scheduler :=
  match s.tasks[id]? with
  | some t => tryWaiting now id t.lane (s.pool.line t.lane) s
  | none => (false, s)

/-- Gives a new task to a waiting worker, or else puts it at the end of its line. -/
def offer (s : Scheduler) (now : Moment) (id : TaskId) : Scheduler :=
  match s.dispatchToWaiting now id with
  | (true, s) => s
  | (false, s) => s.queueBack id

/-- Takes at most so many tasks from the front of a list, which is the lane's line, and adds them to
those that were taken, the last one foremost; a number without a task is dropped. -/
def takeFrom (now : Moment) (lane : Lane) :
    Nat → List TaskId → List Task → Scheduler → List Task × Scheduler
  | 0, _, taken, s => (taken.reverse, s)
  | _, [], taken, s => (taken.reverse, s)
  | limit + 1, id :: rest, taken, s =>
    let s := { s with queues := s.queues.setLine lane rest }
    match s.startDelivery? now id with
    | none => takeFrom now lane (limit + 1) rest taken s
    | some (t, s) => takeFrom now lane limit rest (t :: taken) s

/-- Takes at most so many tasks from the head of a lane's line. -/
def takeQueued (s : Scheduler) (now : Moment) (lane : Lane) (limit : Nat) :
    List Task × Scheduler :=
  takeFrom now lane limit (s.queues.line lane) [] s

/-- Takes a task back from the worker that was given it; `none` if it is not in flight. -/
def takeBack? (s : Scheduler) (id : TaskId) : Option Scheduler :=
  if id ∈ s.inFlight then
    some { s with
      inFlight := s.inFlight.erase id
      tasks := s.tasks.modify id Task.requeue }
  else none

/-- Takes tasks back, and adds those that were in flight to a list, the last one foremost. -/
def takeBackEach : List TaskId → List TaskId → Scheduler → List TaskId × Scheduler
  | [], taken, s => (taken.reverse, s)
  | id :: rest, taken, s =>
    match s.takeBack? id with
    | some s => takeBackEach rest (id :: taken) s
    | none => takeBackEach rest taken s

/-- Gives tasks to waiting workers, one after the other, and adds those that nobody received to a
list, the last one foremost. -/
def dispatchEach (now : Moment) :
    List TaskId → List TaskId → Scheduler → List TaskId × Scheduler
  | [], left, s => (left.reverse, s)
  | id :: rest, left, s =>
    match s.dispatchToWaiting now id with
    | (true, s) => dispatchEach now rest left s
    | (false, s) => dispatchEach now rest (id :: left) s

/-- Puts tasks at the heads of their lines, the first of the list foremost. -/
def queueFrontEach (ids : List TaskId) (s : Scheduler) : Scheduler :=
  ids.foldr (fun id s => s.queueFront id) s

/-- Takes back those of the given tasks that are in flight, and gives them out again before all
others; tells how many they were. -/
def requeueFront (s : Scheduler) (now : Moment) (ids : List TaskId) : Nat × Scheduler :=
  let (taken, s) := takeBackEach (ids.mergeSort (· ≤ ·)) [] s
  let (left, s) := dispatchEach now taken [] s
  (taken.length, queueFrontEach left s)

end TaskExchange.Scheduler
