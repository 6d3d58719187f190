import TaskExchange.Codec.Reports
import TaskExchange.Codec.Submission
import TaskExchange.Http.Fault
import TaskExchange.Metrics

/-!
Answers: the responses to requests that went well, and how every response is completed before it is
sent.
-/

namespace TaskExchange.Http.Response

/-- A batch was accepted under these numbers. -/
def accepted (ids : List TaskId) : Response :=
  .json 202 (.object [("taskIds", .ofList TaskId.toJson ids)])

/-- A worker is given these tasks. -/
def tasks (ts : List Task) : Response := .json 200 (.ofList Task.delivery ts)

/-- A worker is given nothing and may ask again. -/
def noTasks : Response := .bare 204 []

/-- A requester is given the result of its task. -/
def result (body : ByteArray) : Response := .typed 200 "application/json" body

/-- Something was done, and there is nothing to tell of it. -/
def done : Response := .bare 200 []

/-- A short word on how things are. -/
def word (text : String) : Response := .json 200 (.object [("status", .string text)])

/-- The progress of every job and of all of them together. -/
def jobs (x : Exchange) : Response :=
  let (statuses, summary) := x.jobStatuses
  .json 200 (.object [("jobs", .ofList JobStatus.toJson statuses), ("summary", summary.toJson)])

/-- The latest observation of every worker. -/
def workers (x : Exchange) : Response := .json 200 (.ofList Observation.toJson x.workers)

/-- The metrics. -/
def metrics (x : Exchange) : Response :=
  .typed 200 "text/plain; version=0.0.4" (Metrics.text x).toUTF8

/-- A text in the path is no text. -/
def badPath (name : String) : Response :=
  .plain 400 ("Invalid URL: Invalid UTF-8 in `" ++ name ++ "`")

/-- The body is longer than bodies may be. -/
def tooLong : Response := .plain 413 Fault.tooLongText

/-- A response as it is sent. -/
def completed (r : Response) : Response := r.withLength.shared

/-! ### What the responses say -/

/-- A response gives a worker these tasks: it says that all went well, and its body is the list of
what is delivered of them, in their order. -/
structure Gives (r : Response) (ts : List Task) : Prop where
  status : r.status = 200
  body : r.body = ("[" ++ ",".intercalate (ts.map (·.delivery.text)) ++ "]").toUTF8

/-- A response tells a producer the numbers of its tasks, in their order. -/
structure Numbers (r : Response) (ids : List TaskId) : Prop where
  status : r.status = 202
  body : r.body =
    ("\x7b\"taskIds\":[" ++ ",".intercalate (ids.map TaskId.label) ++ "]\x7d").toUTF8

@[simp] theorem status_tasks (ts : List Task) : (tasks ts).status = 200 := rfl

@[simp] theorem body_tasks (ts : List Task) :
    (tasks ts).body = ("[" ++ ",".intercalate (ts.map (·.delivery.text)) ++ "]").toUTF8 := by
  rw [tasks, json, typed, Json.ofList, Json.text_array, List.map_map]
  rfl

theorem gives_tasks (ts : List Task) : (tasks ts).Gives ts := ⟨status_tasks ts, body_tasks ts⟩

@[simp] theorem status_accepted (ids : List TaskId) : (accepted ids).status = 202 := rfl

@[simp] theorem body_accepted (ids : List TaskId) : (accepted ids).body =
    ("\x7b\"taskIds\":[" ++ ",".intercalate (ids.map TaskId.label) ++ "]\x7d").toUTF8 := by
  have hlabels : ids.map (Json.text ∘ TaskId.toJson) = ids.map TaskId.label :=
    List.map_congr_left fun id _ => Json.text_ofNat id.value
  have hfront : "\x7b" ++ ((Json.string "taskIds").text ++ (":" ++ "[")) = "\x7b\"taskIds\":[" :=
    rfl
  have htext : (Json.object [("taskIds", .ofList TaskId.toJson ids)]).text =
      "\x7b\"taskIds\":[" ++ ",".intercalate (ids.map TaskId.label) ++ "]\x7d" := by
    rw [Json.text_object, List.map_singleton, String.intercalate_singleton, Json.memberText,
      Json.ofList, Json.text_array, List.map_map, hlabels, ← hfront]
    simp only [String.append_assoc]
    rfl
  exact congrArg String.toUTF8 htext

theorem numbers_accepted (ids : List TaskId) : (accepted ids).Numbers ids :=
  ⟨status_accepted ids, body_accepted ids⟩

@[simp] theorem status_noTasks : noTasks.status = 204 := rfl

@[simp] theorem body_noTasks : noTasks.body = .empty := rfl

@[simp] theorem status_result (body : ByteArray) : (result body).status = 200 := rfl

@[simp] theorem body_result (body : ByteArray) : (result body).body = body := rfl

@[simp] theorem status_response (f : Fault) : f.response.status = f.status := rfl

@[simp] theorem status_completed (r : Response) : r.completed.status = r.status := rfl

@[simp] theorem body_completed (r : Response) : r.completed.body = r.body := rfl

theorem Gives.completed {r : Response} {ts : List Task} (h : r.Gives ts) :
    r.completed.Gives ts where
  status := by rw [status_completed, h.status]
  body := by rw [body_completed, h.body]

theorem Numbers.completed {r : Response} {ids : List TaskId} (h : r.Numbers ids) :
    r.completed.Numbers ids where
  status := by rw [status_completed, h.status]
  body := by rw [body_completed, h.body]

end TaskExchange.Http.Response
