import TaskExchange.Scheduler.Dispatch

/-!
Regional work: batches of tasks that belong to jobs.  A batch is accepted as a whole or refused as a
whole.  A task stays until its completion is acknowledged or its job is deleted; a worker that was
given it and is not heard of again loses it, and it is given out before all others of its lane.
-/

namespace TaskExchange

namespace Scheduler

/-- The job and the category that all requests of a batch have in common. -/
def commonTarget : List Request → Except SubmissionFault (JobId × Category)
  | [] => .error .emptyBatch
  | first :: rest =>
    match first.job with
    | none => .error .missingJob
    | some job =>
      if rest.all fun r => r.job = some job && r.category = first.category then
        .ok (job, first.category)
      else .error .mixedBatch

/-- The job and the category of a batch, if the batch can be accepted as things stand. -/
def targetOf (s : Scheduler) (requests : List Request) : Except Refusal (JobId × Category) := do
  let (job, category) ← (commonTarget requests).mapError .submission
  if let some existing := s.jobs[job]? then
    if existing.category ≠ category then
      throw (.submission (.jobTaken job existing.category))
  let depth := (s.queues.line ⟨.regional, category⟩).length
  if s.limits.maxDepth < depth + requests.length then
    throw (.laneFull category depth)
  return (job, category)

/-- Accepts regional requests under consecutive numbers, and adds the numbers to a list, the last
one foremost. -/
def acceptEach (now : Moment) :
    List Request → List TaskId → Scheduler → List TaskId × Scheduler
  | [], ids, s => (ids.reverse, s)
  | r :: rest, ids, s =>
    let (id, s) := s.accept now .regional r
    acceptEach now rest (id :: ids) s

/-- Adds tasks to a job, which begins with them if there is none of that name. -/
def addToJob (s : Scheduler) (now : Moment) (job : JobId) (category : Category)
    (ids : List TaskId) : Scheduler :=
  let entry := s.jobs[job]?.getD (Job.new job category now.civil)
  { s with jobs := s.jobs.insert job (ids.foldl Job.add entry) }

/-- Accepts a batch of requests for one job: waiting workers are given its tasks, and those that
nobody received join the end of their line together. -/
def enqueueBatch (s : Scheduler) (now : Moment) (requests : List Request) :
    Except Refusal (List TaskId × Scheduler) := do
  let (job, category) ← s.targetOf requests
  let (ids, s) := acceptEach now requests [] s
  let (left, s) := dispatchEach now ids [] (s.addToJob now job category ids)
  return (ids, { s with queues := s.queues.append ⟨.regional, category⟩ left })

/-- Counts a task as completed in its job. -/
def countCompleted (s : Scheduler) (t : Task) : Scheduler :=
  match t.job with
  | none => s
  | some job =>
    match s.jobs[job]?.bind (·.complete? t.id) with
    | some entry => { s with jobs := s.jobs.insert job entry }
    | none => s

/-- The completion of a regional task is acknowledged; `none` if there is no such task, as when it
was acknowledged before. -/
def acknowledge? (s : Scheduler) (id : TaskId) : Option Scheduler :=
  match s.tasks[id]? with
  | some t => if t.isRegional then some ((s.forget t).countCompleted t) else none
  | none => none

/-- Holds of a regional task that is in flight. -/
def awaitsAcknowledgment (s : Scheduler) (id : TaskId) : Bool :=
  s.inFlight.contains id && s.tasks[id]?.any Task.isRegional

/-- The worker that was given a regional task is lost; tells whether the task was in flight. -/
def reportLost (s : Scheduler) (now : Moment) (id : TaskId) : Bool × Scheduler :=
  if s.awaitsAcknowledgment id then
    let (count, s) := s.requeueFront now [id]
    (count = 1, s)
  else (false, s)

/-- The tasks whose leases have ended at an instant. -/
def expired (s : Scheduler) (t : Instant) : List TaskId :=
  (s.inFlight.toList.filter fun entry => entry.2.any (· ≤ t)).map (·.1)

/-- Takes back the tasks whose leases have ended at an instant; tells how many they were. -/
def requeueExpired (s : Scheduler) (now : Moment) (t : Instant) : Nat × Scheduler :=
  s.requeueFront now (s.expired t)

/-- Deletes a job with the tasks it still has; `none` if there is no such job. -/
def deleteJob? (s : Scheduler) (job : JobId) : Option Scheduler :=
  s.jobs[job]?.map fun entry =>
    let tasks := entry.outstanding.toList.foldl (fun tasks id => tasks.erase id) s.tasks
    { s with
      jobs := s.jobs.erase job
      tasks
      inFlight := entry.outstanding.toList.foldl (fun m id => m.erase id) s.inFlight
      queues := s.queues.keep ⟨.regional, entry.category⟩ tasks.contains }

end Scheduler

end TaskExchange
