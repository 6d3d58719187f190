import TaskExchange.Http.MediaType
import TaskExchange.Http.Route
import TaskExchange.Json.Reader
import TaskExchange.Service.Waiting

/-!
Requests: what the service does with each.  A request is answered at once or held.  Nothing happens
to the state before everything that can be wrong with a request was looked at, so a request that is
refused leaves no trace.
-/

namespace TaskExchange

/-- What comes of a request. -/
inductive Reception where
  /-- The response. -/
  | answered (response : Http.Response)
  /-- The request is held. -/
  | held (id : HeldId)

namespace Service

open Http

/-- The longest body that is read, in bytes. -/
def bodyLimit : Nat := 64 * 1024 * 1024

/-- Decodes the body of a request as JSON. -/
def decodeBody {α : Type} (decode : Document → Except Problem α) (r : Http.Request) :
    Except Fault α :=
  if !MediaType.saysJson r.headers then .error .notJson
  else if bodyLimit < r.body.size then .error (.body Fault.tooLongText)
  else (Document.decodeFront decode r.body).mapError .ofProblem

/-- A value in a request that was not accepted. -/
def inputFault (f : InputFault) : Fault := .input f.message

/-- The batch of requests in a body. -/
def readBatch (r : Http.Request) : Except Fault (List Request) := do
  let submissions ← decodeBody Submission.decodeList r
  (submissions.mapM Submission.toRequest).mapError inputFault

/-- The single request in a body. -/
def readSingle (r : Http.Request) : Except Fault Request := do
  let submission ← decodeBody (Submission.decode Document.depthLimit) r
  submission.toRequest.mapError inputFault

/-- The name that a worker gives itself: visible characters, without blanks around them. -/
def workerOf? (headers : Headers) : Option WorkerId :=
  ((headers.text? "x-worker-id").map Text.trim).bind fun name =>
    if name.isEmpty then none else some ⟨name⟩

/-- Answers with a response, or with that of a fault, which leaves the state as it is. -/
def answer (s : Service) : Except Fault (Response × Service) → Reception × Service
  | .ok (response, s) => (.answered response, s)
  | .error fault => (.answered fault.response, s)

/-- Accepts a batch of regional requests. -/
def enqueueBatch (s : Service) (now : Moment) (r : Http.Request) :
    Except Fault (Response × Service) := do
  let requests ← readBatch r
  let (ids, exchange) ← (s.exchange.enqueueBatch now requests).mapError .refused
  return (.accepted ids, { s with exchange })

/-- Accepts a priority request and holds it until its result comes. -/
def submit (s : Service) (now : Moment) (r : Http.Request) : Reception × Service :=
  match readSingle r with
  | .error fault => (.answered fault.response, s)
  | .ok request =>
    let (c, exchange) := s.exchange.openRequest
    let (id, exchange) := exchange.submit now request c
    let (held, s) := { s with exchange }.hold (.result id c)
    (.held held, s)

/-- Notes that a worker polls for a category, if it gives its name. -/
def observe (s : Service) (now : Moment) (headers : Headers) (category : Category) : Service :=
  match workerOf? headers with
  | some worker => { s with exchange := s.exchange.observe now worker category }
  | none => s

/-- Gives a worker tasks of a lane, or holds its poll until one comes. -/
def dequeue (s : Service) (now : Moment) (lane : Lane) : Reception × Service :=
  let (c, exchange) := s.exchange.openPoll
  match exchange.poll now lane c with
  | (.dispatched tasks, exchange) =>
    (.answered (.tasks tasks), { s with exchange := exchange.leavePoll c })
  | (.parked, exchange) =>
    let (held, s) := { s with exchange }.hold (.work lane c)
    (.held held, s)

/-- Sends a worker's result to its requester. -/
def complete (s : Service) (text : String) (result : ByteArray) : Reception × Service :=
  if bodyLimit < result.size then (.answered .tooLong, s)
  else match TaskId.read text with
    | .error fault => (.answered (inputFault fault).response, s)
    | .ok id =>
      match s.exchange.complete id result with
      | (.ok _, exchange) => (.answered .done, { s with exchange })
      | (.error refusal, exchange) =>
        (.answered (Fault.refused refusal).response, { s with exchange })

/-- Acknowledges the completion of a regional task. -/
def acknowledge (s : Service) (text : String) : Except Fault (Response × Service) := do
  let id ← (TaskId.read text).mapError inputFault
  let exchange ← (s.exchange.acknowledge id).mapError .refused
  return (.done, { s with exchange })

/-- Deletes a job. -/
def deleteJob (s : Service) (job : String) : Except Fault (Response × Service) := do
  let exchange ← (s.exchange.deleteJob ⟨job⟩).mapError .refused
  return (.word "job deleted", { s with exchange })

/-- Does what is asked for under a route whose texts are decoded. -/
def serve (s : Service) (now : Moment) (r : Http.Request) : Route → Reception × Service
  | .enqueueRegional => s.answer (s.enqueueBatch now r)
  | .enqueueSingle => s.submit now r
  | .dequeue kind graph version =>
    match Category.read graph version with
    | .error fault => (.answered (inputFault fault).response, s)
    | .ok category => (s.observe now r.headers category).dequeue now ⟨kind, category⟩
  | .complete task => s.complete task r.body
  | .acknowledge task => s.answer (s.acknowledge task)
  | .jobs => (.answered (.jobs s.exchange), s)
  | .deleteJob job => s.answer (s.deleteJob job)
  | .workers => (.answered (.workers s.exchange), s)
  | .health => (.answered (.word "ok"), s)
  | .metrics => (.answered (.metrics s.exchange), s)

/-- The response to a request that only asks what may be asked. -/
def permissions (route : Option Route) : Response :=
  .bare 200 (Response.permission ++ (route.map Route.allow).toList)

/-- Does what a request asks for, as far as it asks for something that there is. -/
def dispatch (s : Service) (now : Moment) (r : Http.Request) : Reception × Service :=
  let route := Route.ofPath? r.path
  if r.method = "OPTIONS" then (.answered (permissions route), s)
  else match route with
    | none => (.answered (.bare 404 []), s)
    | some route =>
      if r.method ∉ route.methods then (.answered (.bare 405 [route.allow]), s)
      else match route.decode with
        | .error name => (.answered (.badPath name), s)
        | .ok route => s.serve now r route

/-- The response as it is sent in answer to a method. -/
def sent (method : String) (response : Response) : Response :=
  if method = "HEAD" then response.completed.withoutBody else response.completed

/-- Receives a request. -/
def receive (s : Service) (now : Moment) (r : Http.Request) : Reception × Service :=
  match s.dispatch now r with
  | (.answered response, s) => (.answered (sent r.method response), s)
  | (.held id, s) => (.held id, s)

end Service

end TaskExchange
