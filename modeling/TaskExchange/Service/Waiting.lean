import TaskExchange.Http.Answer
import TaskExchange.Service.State

/-!
Held requests, step by step: the answer is read, the timer fires, the request stops waiting, the
peer goes away, what it left is taken away.  Each of these is one step, and whatever else happens
may happen between two of them.  A request that stops waiting first gives up its place and then
looks once more whether its answer has come.
-/

namespace TaskExchange.Service

open Http

/-- The answer to a worker that was given these tasks, or none. -/
def workResponse : Option (List Task) → Response
  | some tasks => .tasks tasks
  | none => .noTasks

/-- The answer to a requester that was given this result, or none. -/
def resultResponse : Option ByteArray → Response
  | some body => .result body
  | none => Fault.timeout.response

/-- Reads what has come to a waiting request. -/
def read? (s : Service) (id : HeldId) : Option (Response × Service) :=
  match s.held[id]? with
  | some ⟨.work lane c, _, .waiting⟩ =>
    match s.exchange.readPoll c with
    | (some tasks, exchange) =>
      some (.tasks tasks, { s with exchange }.finish id (.work lane c))
    | (none, _) => none
  | some ⟨.result task c, _, .waiting⟩ =>
    match s.exchange.readRequest c with
    | (some body, exchange) =>
      some (.result body, { s with exchange }.finish id (.result task c))
    | (none, _) => none
  | _ => none

/-- The timer of a waiting request fires, if its time has come. -/
def fire (s : Service) (id : HeldId) : Service :=
  match s.held[id]? with
  | some ⟨_, deadline, .waiting⟩ => if deadline ≤ s.clock then s.setStage id .timedOut else s
  | _ => s

/-- A request whose timer has fired stops waiting and is answered. -/
def release? (s : Service) (id : HeldId) : Option (Response × Service) :=
  match s.held[id]? with
  | some ⟨.work lane c, _, .timedOut⟩ =>
    let (tasks, exchange) := s.exchange.releasePoll lane c
    some (workResponse tasks, { s with exchange }.finish id (.work lane c))
  | some ⟨.result task c, _, .timedOut⟩ =>
    let (body, exchange) := s.exchange.releaseRequest task c
    some (resultResponse body, { s with exchange }.finish id (.result task c))
  | _ => none

/-- The peer of a held request goes away, be it that the timer has fired already. -/
def desert (s : Service) (id : HeldId) : Service := s.setStage id .deserted

/-- Takes away what a request left behind whose peer is gone. -/
def clear (s : Service) (now : Moment) (id : HeldId) : Service :=
  match s.held[id]? with
  | some ⟨.work lane c, _, .deserted⟩ =>
    { s with exchange := s.exchange.abandonPoll now lane c }.finish id (.work lane c)
  | some ⟨.result task c, _, .deserted⟩ =>
    { s with exchange := (s.exchange.cancel task).2 }.finish id (.result task c)
  | _ => s

/-! ### What is ready is done -/

/-- Lets a held request do what it can: it reads its answer, or it stops waiting when its time has
come. -/
def wake (s : Service) (id : HeldId) : Option Response × Service :=
  match s.read? id with
  -- An answer that has come goes before a timer that is due.
  | some (response, s) => (some response, s)
  | none =>
    let s := s.fire id
    match s.release? id with
    | some (response, s) => (some response, s)
    | none => (none, s)

/-- Lets the requests of a list do what they can; lists those that are answered. -/
def wakeEach : List HeldId → Service → List (HeldId × Response) × Service
  | [], s => ([], s)
  | id :: rest, s =>
    match s.wake id with
    | (some response, s) =>
      let (answers, s) := wakeEach rest s
      ((id, response.completed) :: answers, s)
    | (none, s) => wakeEach rest s

/-- Lets every held request do what it can; lists those that are answered.  One round is enough:
nothing that a held request does gives another one something to do. -/
def settle (s : Service) : List (HeldId × Response) × Service := wakeEach s.held.keys s

/-- The peer of a held request goes away, and what it left is taken away at once. -/
def disconnect (s : Service) (now : Moment) (id : HeldId) : Service := (s.desert id).clear now id

end TaskExchange.Service
