import TaskExchange.Codec.Values
import TaskExchange.Refusal

/-!
Submissions and deliveries: what producers send and what workers are given.  Both are objects in
which the members that the exchange understands stand among those of the payload.  A producer's
guess at a task number is dropped; the worker is told the number that the exchange gave.
-/

namespace TaskExchange

/-- A unit of work as a producer sends it. -/
structure Submission where
  job : Option String
  graph : String
  version : String
  /-- All other members. -/
  payload : Members

namespace Submission

/-- How the members of a submission are read that the exchange understands. -/
def record : Record (Option String × String × String) :=
  (·, ·, ·) <$> .optional "jobId" Document.readString <*> .required "graphId" Document.readString
    <*> .required "workerVersion" Document.readString

/-- Reads a submission, which must be an object; so many levels of arrays and objects may be opened.
-/
def decode (levels : Nat) (d : Document) : Except Problem Submission := do
  let ((job, graph, version), others) ← record.decodeOpen levels d
  return ⟨job, graph, version, Members.normalize others⟩

/-- Reads a list of submissions. -/
def decodeList (d : Document) : Except Problem (List Submission) :=
  d.readList (decode (Document.depthLimit - 1))

/-- The request that a submission makes, if its category can be one. -/
def toRequest (s : Submission) : Except InputFault Request := do
  let category ← Category.read s.graph s.version
  return ⟨s.job.map .mk, category, s.payload.erase "taskId"⟩

end Submission

namespace Task

/-- A task as a worker is given it. -/
def delivery (t : Task) : Json :=
  let job := match t.job with
    | some job => [("jobId", job.toJson)]
    | none => []
  .object ([("taskId", t.id.toJson)] ++ job ++ t.category.members ++ t.payload)

end Task

end TaskExchange
