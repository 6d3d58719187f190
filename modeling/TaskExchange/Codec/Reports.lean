import TaskExchange.Codec.Values
import TaskExchange.Job
import TaskExchange.Worker

/-!
The JSON forms of what is reported: the progress of jobs and the observations of workers.
-/

namespace TaskExchange

/-- Counts are smaller than this. -/
def countBound : Nat := Text.wordBound

/-- Reads a count. -/
def readCount (d : Document) : Except Problem Nat := d.readNat countBound

namespace JobStatus

/-- The progress of a job as an object. -/
def toJson (s : JobStatus) : Json :=
  .object [("jobId", s.job.toJson), ("graphId", .string s.graph),
    ("workerVersion", .string s.version), ("total", .ofNat s.total), ("queued", .ofNat s.queued),
    ("inFlight", .ofNat s.inFlight), ("completed", .ofNat s.completed),
    ("deliveries", .ofNat s.deliveries)]

/-- How the progress of a job is read. -/
def record : Record JobStatus :=
  mk <$> .required "jobId" JobId.decode <*> .required "graphId" Document.readString
    <*> .required "workerVersion" Document.readString <*> .required "total" readCount
    <*> .required "queued" readCount <*> .required "inFlight" readCount
    <*> .required "completed" readCount
    <*> .required "deliveries" readCount

/-- Reads the progress of a job. -/
def decode (d : Document) : Except Problem JobStatus := record.decode d

end JobStatus

namespace JobSummary

/-- The progress of all jobs as an object. -/
def toJson (s : JobSummary) : Json :=
  .object [("jobs", .ofNat s.jobs), ("total", .ofNat s.total), ("queued", .ofNat s.queued),
    ("inFlight", .ofNat s.inFlight), ("completed", .ofNat s.completed),
    ("deliveries", .ofNat s.deliveries)]

/-- How the progress of all jobs is read. -/
def record : Record JobSummary :=
  mk <$> .required "jobs" readCount <*> .required "total" readCount
    <*> .required "queued" readCount <*> .required "inFlight" readCount
    <*> .required "completed" readCount
    <*> .required "deliveries" readCount

/-- Reads the progress of all jobs. -/
def decode (d : Document) : Except Problem JobSummary := record.decode d

end JobSummary

namespace Observation

/-- An observation as an object, in which the fields of the category stand among its own. -/
def toJson (o : Observation) : Json :=
  .object ([("workerId", o.worker.toJson)] ++ o.category.members ++
    [("lastSeen", o.lastSeen.toJson)])

/-- How the members of an observation are read that are not the category's. -/
def record : Record (WorkerId × Timestamp) :=
  Prod.mk <$> .required "workerId" WorkerId.decode <*> .required "lastSeen" Timestamp.decode

/-- Reads the category whose fields stand among other members.  By then every member has been looked
at, so whatever is wrong is that they do not say what they should. -/
def categoryAmong (members : Members) : Except Problem Category :=
  (Category.record.decode (.object (Document.ofMembers members) true)).mapError fun _ => .mismatch

/-- Reads an observation, which must be an object, in which so many levels of arrays and objects may
be opened. -/
def decodeWithin (levels : Nat) (d : Document) : Except Problem Observation := do
  let ((worker, lastSeen), others) ← record.decodeOpen levels d
  return ⟨worker, ← categoryAmong others, lastSeen⟩

/-- Reads an observation. -/
def decode (d : Document) : Except Problem Observation := decodeWithin Document.depthLimit d

end Observation

end TaskExchange
