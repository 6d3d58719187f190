import TaskExchange.Codec.Values

/-!
The JSON form of tasks, as they are stored: all that the exchange knows of a task, with the payload
as a member of its own.
-/

namespace TaskExchange.Task

/-- Numbers of deliveries are smaller than this. -/
def deliveriesBound : Nat := Nat.pow 2 32

/-- A task as an object. -/
def toJson (t : Task) : Json :=
  .object [("taskId", t.id.toJson), ("jobId", .ofOption JobId.toJson t.job),
    ("category", t.category.toJson), ("kind", t.kind.toJson), ("payload", .object t.payload),
    ("state", t.state.toJson), ("deliveries", .ofNat t.deliveries),
    ("createdAt", t.createdAt.toJson)]

/-- How a task is read; so many levels of arrays and objects may be opened. -/
def record (levels : Nat) : Record Task :=
  mk <$> .required "taskId" TaskId.decode <*> .optional "jobId" JobId.decode
    <*> .required "category" Category.decode <*> .required "kind" Kind.decode
    <*> .required "payload" (Document.readMembers (levels - 1))
    <*> .required "state" TaskState.decode
    <*> .required "deliveries" (Document.readNat deliveriesBound)
    <*> .required "createdAt" Timestamp.decode

/-- Reads a task in which so many levels of arrays and objects may be opened. -/
def decodeWithin (levels : Nat) (d : Document) : Except Problem Task := (record levels).decode d

/-- Reads a task. -/
def decode (d : Document) : Except Problem Task := decodeWithin Document.depthLimit d

end TaskExchange.Task
