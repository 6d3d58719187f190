import TaskExchange.Category
import TaskExchange.Ident
import TaskExchange.Text.Quoted

/-!
Refusals: the causes for which a value or an operation is turned down, and the wording of each.  A
poll that finds no work is not refused; it waits.
-/

namespace TaskExchange

/-- Why a value was not accepted. -/
inductive InputFault where
  /-- The two fields make no category. -/
  | category (fault : CategoryFault)
  /-- The text spells no task number. -/
  | notATaskId (text : String)
  /-- A fault that the caller words itself. -/
  | other (reason : String)
  deriving DecidableEq

namespace InputFault

/-- The wording of a fault in a value. -/
def message : InputFault → String
  | category fault => "Invalid worker category: " ++ fault.reason
  | notATaskId text => "Invalid input: not a task id: " ++ Text.quoted text
  | other reason => "Invalid input: " ++ reason

end InputFault

/-- Why a batch was not accepted. -/
inductive SubmissionFault where
  | emptyBatch
  /-- The first request names no job. -/
  | missingJob
  /-- The requests differ in job or category. -/
  | mixedBatch
  /-- The job exists under another category. -/
  | jobTaken (job : JobId) (category : Category)
  /-- A value in the submission was not accepted. -/
  | input (fault : InputFault)
  /-- A fault that the caller words itself. -/
  | other (reason : String)
  deriving DecidableEq

namespace SubmissionFault

/-- The wording of a submission's fault. -/
def reason : SubmissionFault → String
  | emptyBatch => "Batch contains no tasks."
  | missingJob => "Regional tasks must carry a jobId."
  | mixedBatch => "All tasks must be for the same graph, job, and worker version."
  | jobTaken job category => "Job " ++ job.name ++ " already exists for " ++ category.label ++ "."
  | input fault => fault.message
  | other reason => reason

end SubmissionFault

/-- Why an operation of the exchange was turned down. -/
inductive Refusal where
  | submission (fault : SubmissionFault)
  /-- The lane of regional work already holds so many tasks that the batch does not fit. -/
  | laneFull (category : Category) (depth : Nat)
  | taskNotFound (id : TaskId)
  | jobNotFound (job : JobId)
  deriving DecidableEq

namespace Refusal

/-- The wording of a refusal. -/
def message : Refusal → String
  | submission fault => "Invalid submission: " ++ fault.reason
  | laneFull category depth =>
    "Queue for " ++ category.label ++ " is full (" ++ toString depth ++ " tasks)"
  | taskNotFound id => "Task not found: " ++ id.label
  | jobNotFound job => "Job not found: " ++ job.name

end Refusal

/-- Reads a task number out of a text. -/
def TaskId.read (text : String) : Except InputFault TaskId :=
  match TaskId.ofString? text with
  | some id => .ok id
  | none => .error (.notATaskId text)

/-- Makes a category of two fields. -/
def Category.read (graph version : String) : Except InputFault Category :=
  (Category.ofFields graph version).mapError .category

end TaskExchange
