import TaskExchange.Http.Message
import TaskExchange.Lane
import TaskExchange.Text.Scan

/-!
Routes: which paths there are and what is asked for under each.  A path is matched as it was sent,
and only then are the texts in it decoded.  A text at the end of a path is never empty, while one in
the midst may be.
-/

namespace TaskExchange.Http

/-- What can be asked for, with the texts from the path. -/
inductive Route where
  | enqueueRegional
  | enqueueSingle
  | dequeue (kind : Kind) (graph version : String)
  | complete (task : String)
  | acknowledge (task : String)
  | jobs
  | deleteJob (job : String)
  | workers
  | health
  | metrics
  deriving DecidableEq

namespace Route

/-- The parts of a list of characters between its slashes. -/
def parts : List Char → List (List Char)
  | [] => [[]]
  | c :: cs =>
    if c = '/' then [] :: parts cs
    else match parts cs with
      | part :: rest => (c :: part) :: rest
      | [] => [[c]]

/-- The parts of a path between its slashes. -/
def segments (path : String) : List String := (parts path.toList).map String.ofList

/-- The route of a path, its texts as they were sent. -/
def ofPath? (path : String) : Option Route :=
  match segments path with
  | ["", "enqueue", "regional"] => some enqueueRegional
  | ["", "enqueue", "single"] => some enqueueSingle
  | ["", "dequeue", kind, graph, version] =>
    if version.isEmpty then none
    else if kind = Kind.regional.pollName then some (dequeue .regional graph version)
    else if kind = Kind.priority.pollName then some (dequeue .priority graph version)
    else none
  | ["", "complete", "priority", task] => if task.isEmpty then none else some (complete task)
  | ["", "tasks", task] => if task.isEmpty then none else some (acknowledge task)
  | ["", "jobs"] => some jobs
  | ["", "jobs", job] => if job.isEmpty then none else some (deleteJob job)
  | ["", "workers"] => some workers
  | ["", "health"] => some health
  | ["", "metrics"] => some metrics
  | _ => none

/-- The methods that a route is asked for with. -/
def methods : Route → List String
  | enqueueRegional | enqueueSingle | dequeue .. | complete _ => ["POST"]
  | acknowledge _ | deleteJob _ => ["DELETE"]
  | jobs | workers | health | metrics => ["GET", "HEAD"]

/-- The methods of a route as a header. -/
def allow (route : Route) : String × String := ("allow", String.intercalate "," route.methods)

/-- Decodes a text from a path; when it is no text, the name of its place is told. -/
def decodeText (name text : String) : Except String String :=
  match Text.Percent.decode? text with
  | some s => .ok s
  | none => .error name

/-- The route with its texts decoded, or the name of the first one that is no text. -/
def decode : Route → Except String Route
  | dequeue kind graph version => do
    return dequeue kind (← decodeText "graph_id" graph) (← decodeText "worker_version" version)
  | complete task => (decodeText "task_id" task).map complete
  | acknowledge task => (decodeText "task_id" task).map acknowledge
  | deleteJob job => (decodeText "job_id" job).map deleteJob
  | route => .ok route

end Route

end TaskExchange.Http
