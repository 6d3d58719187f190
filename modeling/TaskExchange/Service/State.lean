import TaskExchange.Exchange
import TaskExchange.Http.Fault

/-!
The service's state: the exchange, and the requests that are held until their answers come.  A held
request has a timer, which runs on a clock of the service's own, and three ways to end: its answer
comes, its timer fires, or its peer goes away.  After the last two there is something to be cleaned
up, and other things may happen before it is.
-/

namespace TaskExchange

/-- The number of a held request. -/
structure HeldId where
  value : Nat
  deriving DecidableEq, Inhabited

namespace HeldId

instance : Ord HeldId := ⟨compareOn value⟩

instance : Std.TransOrd HeldId := inferInstanceAs (Std.TransCmp (compareOn value))

instance : Std.LawfulEqOrd HeldId where
  eq_of_compare {a b} h := by
    cases a; cases b
    exact congrArg mk (Std.LawfulEqOrd.eq_of_compare h)

end HeldId

/-- What a request is held for. -/
inductive Errand where
  /-- A worker waits in a lane for tasks. -/
  | work (lane : Lane) (connection : ConnectionId)
  /-- A requester waits for the result of its task. -/
  | result (task : TaskId) (connection : ConnectionId)
  deriving DecidableEq

/-- How far a held request is. -/
inductive Stage where
  /-- It waits for its answer. -/
  | waiting
  /-- Its timer has fired; it has still to stop waiting. -/
  | timedOut
  /-- Its peer is gone; what it leaves behind has still to be taken away. -/
  | deserted
  deriving DecidableEq

/-- A request that is held until its answer comes. -/
structure Held where
  errand : Errand
  /-- When the timer fires, in milliseconds of the service's clock. -/
  deadline : Nat
  stage : Stage
  deriving DecidableEq

/-- The service. -/
structure Service where
  settings : Settings
  exchange : Exchange
  held : Std.ExtTreeMap HeldId Held
  /-- The number of the next held request. -/
  nextHeld : HeldId
  /-- How many milliseconds the service's clock has counted. -/
  clock : Nat
  /-- When the next sweep is due, if there is someone to sweep. -/
  nextSweep : Option Nat

namespace Service

/-- A service that nobody has used. -/
def new (settings : Settings) : Service where
  settings := settings
  exchange := .new settings.limits
  held := ∅
  nextHeld := ⟨0⟩
  clock := 0
  nextSweep := none

instance : Inhabited Service := ⟨new default⟩

/-- How many milliseconds a request of an errand is held at most. -/
def patience (s : Service) : Errand → Nat
  | .work .. => 1000 * s.settings.pollTimeout
  | .result .. => 1000 * s.settings.priorityTimeout

/-- Holds a request for an errand. -/
def hold (s : Service) (errand : Errand) : HeldId × Service :=
  (s.nextHeld, { s with
    held := s.held.insert s.nextHeld ⟨errand, s.clock + s.patience errand, .waiting⟩
    nextHeld := ⟨s.nextHeld.value + 1⟩ })

/-- Gives a held request another stage. -/
def setStage (s : Service) (id : HeldId) (stage : Stage) : Service :=
  { s with held := s.held.modify id fun h => { h with stage } }

/-- A held request is over: it is not held any more, and its waiting side leaves. -/
def finish (s : Service) (id : HeldId) (errand : Errand) : Service :=
  let s := { s with held := s.held.erase id }
  match errand with
  | .work _ c => { s with exchange := s.exchange.leavePoll c }
  | .result _ c => { s with exchange := s.exchange.leaveRequest c }

end Service

end TaskExchange
