import TaskExchange.Scheduler.Dispatch

/-!
Priority work: single requests whose senders wait for the result.  A priority task is there as long
as its requester's connection is kept; the result of a worker goes to that connection and to no
other.
-/

namespace TaskExchange

/-- What became of a result. -/
inductive ResultDelivery where
  /-- The requester has it. -/
  | delivered
  /-- The requester had left. -/
  | requesterGone
  deriving DecidableEq

namespace Scheduler

/-- Accepts a request whose result is awaited on a connection. -/
def submit (s : Scheduler) (now : Moment) (r : Request) (c : ConnectionId) :
    TaskId × Scheduler :=
  let (id, s) := s.accept now .priority r
  (id, { s with producers := s.producers.insert id c }.offer now id)

/-- Forgets a priority task, and gives the connection on which its result is awaited. -/
def withdraw (s : Scheduler) (id : TaskId) : Option ConnectionId × Scheduler :=
  match s.tasks[id]? with
  | some t =>
    if t.isRegional then (none, s)
    else (s.producers[id]?, { s.forget t with producers := s.producers.erase id })
  | none => (none, s)

/-- Sends a worker's result to the requester of a priority task, which is forgotten. -/
def complete (s : Scheduler) (id : TaskId) (result : ByteArray) :
    Except Refusal ResultDelivery × Scheduler :=
  match s.withdraw id with
  | (none, s) => (.error (.taskNotFound id), s)
  | (some c, s) =>
    match s.requesters.send? c result with
    | some requesters => (.ok .delivered, { s with requesters })
    | none => (.ok .requesterGone, s)

/-- A requester stops waiting: its task is forgotten, and it reads the result that may have come. -/
def releaseRequest (s : Scheduler) (id : TaskId) (c : ConnectionId) :
    Option ByteArray × Scheduler :=
  let s := (s.withdraw id).2
  let (result, requesters) := s.requesters.take c
  (result, { s with requesters })

end Scheduler

end TaskExchange
