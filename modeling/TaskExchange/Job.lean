import Std.Data.ExtTreeSet
import TaskExchange.Task

/-!
Jobs: a named batch of regional tasks of one category.  A job keeps the numbers of its outstanding
tasks and counts what was ever added and what was completed; the tasks themselves are kept
elsewhere.
-/

namespace TaskExchange

/-- A named batch of regional tasks. -/
structure Job where
  id : JobId
  category : Category
  /-- The tasks that are not completed. -/
  outstanding : Std.ExtTreeSet TaskId
  /-- How many tasks were ever added. -/
  total : Nat
  /-- How many tasks were completed. -/
  completed : Nat
  /-- When the first batch came. -/
  createdAt : Timestamp

namespace Job

/-- A job without tasks. -/
def new (id : JobId) (category : Category) (createdAt : Timestamp) : Job :=
  ⟨id, category, ∅, 0, 0, createdAt⟩

instance : Inhabited Job := ⟨new default default default⟩

/-- Adds a task, unless it is there already. -/
def add (j : Job) (id : TaskId) : Job :=
  if id ∈ j.outstanding then j
  else { j with outstanding := j.outstanding.insert id, total := j.total + 1 }

/-- Completes a task that is outstanding. -/
def complete? (j : Job) (id : TaskId) : Option Job :=
  if id ∈ j.outstanding then
    some { j with outstanding := j.outstanding.erase id, completed := j.completed + 1 }
  else none

end Job

/-- The progress of one job. -/
structure JobStatus where
  job : JobId
  graph : String
  version : String
  total : Nat
  queued : Nat
  inFlight : Nat
  completed : Nat
  /-- How often workers were given the outstanding tasks. -/
  deliveries : Nat
  deriving DecidableEq, Inhabited

/-- The progress of all jobs together. -/
structure JobSummary where
  jobs : Nat
  total : Nat
  queued : Nat
  inFlight : Nat
  completed : Nat
  deliveries : Nat
  deriving DecidableEq, Inhabited

namespace JobSummary

/-- No jobs. -/
def zero : JobSummary := ⟨0, 0, 0, 0, 0, 0⟩

/-- Takes one more job into account. -/
def add (sum : JobSummary) (s : JobStatus) : JobSummary where
  jobs := sum.jobs + 1
  total := sum.total + s.total
  queued := sum.queued + s.queued
  inFlight := sum.inFlight + s.inFlight
  completed := sum.completed + s.completed
  deliveries := sum.deliveries + s.deliveries

/-- The sums over the jobs of a list. -/
def ofStatuses (statuses : List JobStatus) : JobSummary := statuses.foldl add zero

end JobSummary

end TaskExchange
