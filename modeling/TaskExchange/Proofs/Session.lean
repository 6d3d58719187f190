import TaskExchange.Proofs.Precedence
import TaskExchange.Service.Receive

/-!
Sessions: the service as those outside see it.  Requests come in, those that are held go on step by
step, and callers within the program carry out operations of their own, each at a moment of its
own and in any order.  A waiting side belongs to whoever opened it: callers use those that callers
opened, and the side of a held request is used by the steps of this request alone.  A session is
kept as its events, and each event tells which operations on the scheduler it consists of and how it
ends a held request.
-/

namespace TaskExchange

open Scheduler (Operation)

/-- The side of a connection on which somebody waits. -/
inductive Side where
  | poll (c : ConnectionId)
  | request (c : ConnectionId)
  deriving DecidableEq

namespace Scheduler.Operation

/-- The waiting side that an operation is carried out with. -/
def side? : Operation → Option Side
  | leavePoll c | readPoll c | poll _ c | releasePoll _ c | abandonPoll _ c => some (.poll c)
  | leaveRequest c | readRequest c | submit _ c | releaseRequest _ c => some (.request c)
  | _ => none

/-- The waiting side that an operation opens. -/
def opened? (s : Scheduler) : Operation → Option Side
  | openPoll => some (.poll ⟨s.polls.next⟩)
  | openRequest => some (.request ⟨s.requesters.next⟩)
  | _ => none

/-- The request that an operation withdraws, if there is one of this number. -/
def withdrawn? : Operation → Option TaskId
  | withdraw id | releaseRequest id _ => some id
  | _ => none

end Scheduler.Operation

/-- How a held request ends. -/
inductive Ending where
  /-- It is answered. -/
  | answered (response : Http.Response)
  /-- Its peer is gone; these tasks had come to it and go back unread. -/
  | abandoned (unread : Option (List Task))
  /-- Its peer is gone; the task whose result it awaited is forgotten. -/
  | cancelled

namespace Errand

/-- The waiting side of a request that is held. -/
def side : Errand → Side
  | work _ c => .poll c
  | result _ c => .request c

/-- The response to a request to which something has come that is not read. -/
def news? (s : Scheduler) : Errand → Option Http.Response
  | work _ c => (s.polls.held? c).map .tasks
  | result _ c => (s.requesters.held? c).map .result

/-- The response to a request that stops waiting. -/
def lastWord (s : Scheduler) : Errand → Http.Response
  | work _ c => Service.workResponse (s.polls.held? c)
  | result _ c => Service.resultResponse (s.requesters.held? c)

/-- What has come is read. -/
def reading : Errand → Operation
  | work _ c => .readPoll c
  | result _ c => .readRequest c

/-- A request whose timer has fired stops waiting. -/
def releasing : Errand → Operation
  | work lane c => .releasePoll lane c
  | result task c => .releaseRequest task c

/-- What a request left whose peer is gone is taken away. -/
def clearing : Errand → Operation
  | work lane c => .abandonPoll lane c
  | result task _ => .withdraw task

/-- The ending of a request whose peer is gone. -/
def left (s : Scheduler) : Errand → Ending
  | work _ c => .abandoned (s.polls.held? c)
  | result .. => .cancelled

/-- The waiting side of a request that is over leaves. -/
def leaving : Errand → Operation
  | work _ c => .leavePoll c
  | result _ c => .leaveRequest c

end Errand

namespace Service

open Http

/-! ### What a request asks for -/

/-- What a request has the service do with the scheduler. -/
inductive Demand where
  | nothing
  | carryOut (op : Operation)
  | dequeue (lane : Lane)
  | submit (request : TaskExchange.Request)

/-- The route of a request, its texts decoded, if there is one for its method. -/
def route? (r : Http.Request) : Option Route :=
  if r.method = "OPTIONS" then none
  else (Route.ofPath? r.path).bind fun route =>
    if r.method ∈ route.methods then route.decode.toOption else none

/-- What is demanded under a route. -/
def demandUnder (r : Http.Request) : Route → Demand
  | .enqueueRegional =>
    match readBatch r with
    | .ok requests => .carryOut (.enqueueBatch requests)
    | .error _ => .nothing
  | .enqueueSingle =>
    match readSingle r with
    | .ok request => .submit request
    | .error _ => .nothing
  | .dequeue kind graph version =>
    match Category.read graph version with
    | .ok category => .dequeue ⟨kind, category⟩
    | .error _ => .nothing
  | .complete text =>
    if bodyLimit < r.body.size then .nothing
    else match TaskId.read text with
      | .ok id => .carryOut (.complete id r.body)
      | .error _ => .nothing
  | .acknowledge text =>
    match TaskId.read text with
    | .ok id => .carryOut (.acknowledge id)
    | .error _ => .nothing
  | .deleteJob job => .carryOut (.deleteJob ⟨job⟩)
  | .jobs | .workers | .health | .metrics => .nothing

/-- What a request demands. -/
def demand (r : Http.Request) : Demand :=
  match route? r with
  | some route => demandUnder r route
  | none => .nothing

/-- What a request is held for that is at a stage. -/
def heldAt (s : Service) (id : HeldId) (stage : Stage) : Option Errand :=
  (s.held[id]?.filter (·.stage = stage)).map (·.errand)

/-- The scheduler of the service. -/
def scheduler (s : Service) : Scheduler := s.exchange.scheduler

/-- The service with another scheduler. -/
def withScheduler (s : Service) (scheduler : Scheduler) : Service :=
  { s with exchange := { s.exchange with scheduler } }

end Service

/-- The service together with the callers that use its scheduler. -/
structure Session where
  service : Service
  /-- The waiting sides that callers opened. -/
  callers : List Side

namespace Session

/-- What happens in a session. -/
inductive Act where
  /-- A request comes in. -/
  | receive (r : Http.Request)
  /-- A caller carries out an operation. -/
  | call (op : Operation)
  /-- A held request reads what has come to it. -/
  | read (id : HeldId)
  /-- The timer of a held request fires, if its time has come. -/
  | fire (id : HeldId)
  /-- A held request whose timer has fired stops waiting. -/
  | release (id : HeldId)
  /-- The peer of a held request goes away. -/
  | desert (id : HeldId)
  /-- What a request left is taken away. -/
  | clear (id : HeldId)
  /-- Some milliseconds go by. -/
  | wait (ms : Nat)

/-- The scheduler of the service. -/
def scheduler (x : Session) : Scheduler := x.service.scheduler

/-- Nobody has used the service. -/
def new (settings : Settings) : Session := ⟨.new settings, []⟩

/-- Holds of the operations that callers can carry out: those with waiting sides that callers
opened, and those that need none. -/
def mayCall (x : Session) (op : Operation) : Bool := op.side?.all (· ∈ x.callers)

/-- A caller carries out an operation, if it can. -/
def call (x : Session) (now : Moment) (op : Operation) : Session :=
  if x.mayCall op then
    { service := x.service.withScheduler (x.scheduler.step now op).2
      callers := (op.opened? x.scheduler).toList ++ x.callers }
  else x

/-- What becomes of a session when something happens. -/
def act (x : Session) (now : Moment) : Act → Session
  | .receive r => { x with service := (x.service.receive now r).2 }
  | .call op => x.call now op
  | .read id => { x with service := ((x.service.read? id).map (·.2)).getD x.service }
  | .fire id => { x with service := x.service.fire id }
  | .release id => { x with service := ((x.service.release? id).map (·.2)).getD x.service }
  | .desert id => { x with service := x.service.desert id }
  | .clear id => { x with service := x.service.clear now id }
  | .wait ms => { x with service := { x.service with clock := x.service.clock + ms } }

/-- Things happen one after the other. -/
def run (x : Session) (acts : List (Moment × Act)) : Session :=
  acts.foldl (fun x a => x.act a.1 a.2) x

/-- Something that happens, with the session in which it does. -/
structure Event where
  before : Session
  now : Moment
  act : Act

/-- The session afterwards. -/
def Event.after (e : Event) : Session := e.before.act e.now e.act

/-- The events of a session, the first one in front. -/
def trace (x : Session) : List (Moment × Act) → List Event
  | [] => []
  | (now, a) :: rest => ⟨x, now, a⟩ :: trace (x.act now a) rest

/-! ### Operations on the scheduler -/

/-- What a demand has the service do with the scheduler. -/
def demanded (s : Scheduler) (now : Moment) : Service.Demand → List Operation
  | .nothing => []
  | .carryOut op => [op]
  | .dequeue lane =>
    match ((s.step now .openPoll).2.poll now lane ⟨s.polls.next⟩).1 with
    | .parked => [.openPoll, .poll lane ⟨s.polls.next⟩]
    | .dispatched _ => [.openPoll, .poll lane ⟨s.polls.next⟩, .leavePoll ⟨s.polls.next⟩]
  | .submit request => [.openRequest, .submit request ⟨s.requesters.next⟩]

/-- The operation with which a held request stops waiting, if something makes it stop. -/
def stopping? (x : Session) : Act → Option (HeldId × Errand × Operation)
  | .read id =>
    (x.service.heldAt id .waiting).bind fun errand =>
      (errand.news? x.scheduler).map fun _ => (id, errand, errand.reading)
  | .release id =>
    (x.service.heldAt id .timedOut).map fun errand => (id, errand, errand.releasing)
  | .clear id =>
    (x.service.heldAt id .deserted).map fun errand => (id, errand, errand.clearing)
  | _ => none

/-- The operations by which a held request is over that stops waiting. -/
def concluding : Option (HeldId × Errand × Operation) → List Operation
  | some (_, errand, op) => [op, errand.leaving]
  | none => []

namespace Event

/-- The operations on the scheduler that an event consists of. -/
def operations (e : Event) : List Operation :=
  match e.act with
  | .receive r => demanded e.before.scheduler e.now (Service.demand r)
  | .call op => if e.before.mayCall op then [op] else []
  | act => concluding (e.before.stopping? act)

/-- The same as events of the scheduler. -/
def calls (e : Event) : List Scheduler.Event :=
  e.before.scheduler.trace (e.operations.map (e.now, ·))

/-- The held request that an event ends, if it ends one. -/
def ended? (e : Event) : Option HeldId := (e.before.stopping? e.act).map (·.1)

/-- How an event ends a held request, if it does. -/
def ending? (e : Event) (id : HeldId) : Option Ending :=
  match e.act with
  | .read i => if i = id then (e.before.service.read? id).map (.answered ·.1) else none
  | .release i => if i = id then (e.before.service.release? id).map (.answered ·.1) else none
  | .clear i =>
    if i = id then (e.before.service.heldAt id .deserted).map (·.left e.before.scheduler) else none
  | _ => none

/-- From this event on a request is held for an errand. -/
def Begins (e : Event) (id : HeldId) (errand : Errand) : Prop :=
  e.before.service.held[id]? = none ∧ e.after.service.held[id]?.map (·.errand) = some errand

end Event

/-- What the events of a session do with the scheduler. -/
def history (events : List Event) : List Scheduler.Event := events.flatMap (·.calls)

variable {x : Session} {acts : List (Moment × Act)}

theorem trace_append (x : Session) (more : List (Moment × Act)) :
    ∀ acts : List (Moment × Act), x.trace (acts ++ more) = x.trace acts ++ (x.run acts).trace more
  | [] => rfl
  | _ :: acts => congrArg (List.cons _) (trace_append _ more acts)

/-- Whatever holds of no events and the first session, and is kept when an event follows, holds of
the events of every run and the session that is reached. -/
theorem trace_induction {P : List Event → Session → Prop} (first : P [] x)
    (next : ∀ past (e : Event), P past e.before → P (past ++ [e]) e.after) :
    P (x.trace acts) (x.run acts) := by
  induction acts using List.reverseRecOn with
  | nil => exact first
  | append_singleton acts a ih =>
    have hrun : x.run (acts ++ [a]) = (x.run acts).act a.1 a.2 := List.foldl_append
    rw [trace_append, hrun]
    exact next _ ⟨x.run acts, a.1, a.2⟩ ih

/-- The events before and after one of a run are runs themselves. -/
theorem trace_split {past future : List Event} {e : Event} :
    ∀ {acts : List (Moment × Act)} {x : Session}, x.trace acts = past ++ e :: future →
    ∃ xs ys, x.trace xs = past ∧ x.run xs = e.before ∧ e.after.trace ys = future ∧
      e.after.run ys = x.run acts := by
  induction past with
  | nil =>
    intro acts x h
    cases acts with
    | nil => cases h
    | cons a acts =>
      cases h
      exact ⟨[], acts, rfl, rfl, rfl, rfl⟩
  | cons d past ih =>
    intro acts x h
    cases acts with
    | nil => cases h
    | cons a acts =>
      obtain ⟨rfl, hrest⟩ := List.cons.inj h
      obtain ⟨xs, ys, hxs, hbefore, hys, hlast⟩ := ih hrest
      exact ⟨a :: xs, ys, by rw [trace, hxs], hbefore, hys, hlast⟩

/-- An event of a run finds a session that is reached, and the run goes on from there. -/
theorem exists_runs_of_mem {e : Event} (he : e ∈ x.trace acts) :
    ∃ xs ys, x.run xs = e.before ∧ e.after.run ys = x.run acts := by
  obtain ⟨past, future, hsplit⟩ := List.append_of_mem he
  obtain ⟨xs, ys, -, hbefore, -, hlast⟩ := trace_split hsplit
  exact ⟨xs, ys, hbefore, hlast⟩

end Session

end TaskExchange
