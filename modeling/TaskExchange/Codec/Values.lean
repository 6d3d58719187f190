import TaskExchange.Json.Record
import TaskExchange.Task

/-!
The JSON forms of the smallest values: identifiers, kinds, states, time stamps and categories.
Nothing is asked of the fields of a category here but that they are texts.
-/

namespace TaskExchange

namespace TaskId

/-- A task number is a number. -/
def toJson (id : TaskId) : Json := .ofNat id.value

/-- Reads a task number. -/
def decode (d : Document) : Except Problem TaskId := (d.readNat bound).map .mk

end TaskId

namespace JobId

/-- A job's name is a text. -/
def toJson (id : JobId) : Json := .string id.name

/-- Reads a job's name. -/
def decode (d : Document) : Except Problem JobId := d.readString.map .mk

end JobId

namespace WorkerId

/-- A worker's name is a text. -/
def toJson (id : WorkerId) : Json := .string id.name

/-- Reads a worker's name. -/
def decode (d : Document) : Except Problem WorkerId := d.readString.map .mk

end WorkerId

namespace Kind

/-- The word for a kind. -/
def word : Kind → String
  | regional => "REGIONAL"
  | priority => "PRIORITY"

/-- A kind is its word. -/
def toJson (k : Kind) : Json := .string k.word

/-- Reads a kind. -/
def decode (d : Document) : Except Problem Kind :=
  d.readName ([priority, regional].map fun k => (k.word, k))

end Kind

namespace TaskState

/-- The word for a state. -/
def word : TaskState → String
  | queued => "QUEUED"
  | inFlight => "IN_FLIGHT"

/-- A state is its word. -/
def toJson (s : TaskState) : Json := .string s.word

/-- Reads a state. -/
def decode (d : Document) : Except Problem TaskState :=
  d.readName ([queued, inFlight].map fun s => (s.word, s))

end TaskState

namespace Timestamp

/-- A time stamp is its text in universal time. -/
def toJson (t : Timestamp) : Json := .string t.text

/-- Reads a time stamp. -/
def decode (d : Document) : Except Problem Timestamp := do
  match ofString? (← d.readString) with
  | some t => return t
  | none => throw .mismatch

end Timestamp

namespace Category

/-- The members of a category. -/
def members (c : Category) : Members :=
  [("graphId", .string c.graph), ("workerVersion", .string c.version)]

/-- A category is an object of its two fields. -/
def toJson (c : Category) : Json := .object c.members

/-- How a category is read. -/
def record : Record Category :=
  mk <$> .required "graphId" Document.readString <*> .required "workerVersion" Document.readString

/-- Reads a category. -/
def decode (d : Document) : Except Problem Category := record.decode d

end Category

end TaskExchange
