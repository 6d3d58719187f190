import TaskExchange.Codec.Values
import TaskExchange.Http.Message
import TaskExchange.Json.Printer
import TaskExchange.Refusal

/-!
Faults: why a request is answered with an error, and the response that tells so.  Every error is an
object with one text in it; the status tells apart what is wrong with the request, what is not
there, what is full and what took too long.
-/

namespace TaskExchange.Http

/-- Responses with JSON bodies. -/
def Response.json (status : Nat) (v : Json) : Response :=
  .typed status "application/json" v.text.toUTF8

/-- Why a request is answered with an error. -/
inductive Fault where
  /-- The body could not be decoded. -/
  | body (reason : String)
  /-- A value was not accepted. -/
  | input (reason : String)
  /-- The exchange refused. -/
  | refused (refusal : Refusal)
  /-- No worker's result came in time. -/
  | timeout
  deriving DecidableEq

namespace Fault

/-- A body that is not said to be JSON. -/
def notJson : Fault :=
  body "Expected request with `Content-Type: application/json`"

/-- What is told of a body that is too long. -/
def tooLongText : String := "Failed to buffer the request body: length limit exceeded"

/-- A body that is JSON, or should be, and not what is wanted. -/
def ofProblem : Problem → Fault
  | .malformed => body "Failed to parse the request body as JSON"
  | .mismatch => body "Failed to deserialize the JSON body into the target type"

/-- The status that a refusal is answered with. -/
def refusalStatus : Refusal → Nat
  | .submission _ => 400
  | .laneFull .. => 503
  | .taskNotFound _ | .jobNotFound _ => 404

/-- The status of a fault's response. -/
def status : Fault → Nat
  | body _ | input _ => 400
  | refused refusal => refusalStatus refusal
  | timeout => 504

/-- What is told of a fault. -/
def message : Fault → String
  | body reason => "Could not decode JSON payload: " ++ reason
  | input reason => reason
  | refused refusal => refusal.message
  | timeout => "No worker answered in time"

/-- The response that tells of a fault. -/
def response (f : Fault) : Response :=
  .json f.status (.object [("error", .string f.message)])

end Fault

end TaskExchange.Http
