import TaskExchange.Service.Waiting

/-!
The service's clock: it goes on in small pieces, and after each piece whatever is due is done.
Timers fire, and a sweep is made if one is due; the next one is due an interval later.
-/

namespace TaskExchange.Service

open Http

/-- Sweeps once; tells how many tasks are given out again. -/
def sweep (s : Service) (now : Moment) : Nat × Service :=
  let (count, exchange) := s.exchange.sweep s.settings now
  (count, { s with exchange })

/-- Sweeps if a sweep is due. -/
def sweepIfDue (s : Service) (now : Moment) : Service :=
  match s.nextSweep with
  | some due =>
    if due ≤ s.clock then
      { (s.sweep now).2 with nextSweep := some (s.clock + 1000 * s.settings.sweepInterval) }
    else s
  | none => s

/-- From now on there are sweeps, the first one at once. -/
def startSweeper (s : Service) (now : Moment) : Service :=
  { s with nextSweep := some s.clock }.sweepIfDue now

/-- From now on there are no sweeps but those that are asked for. -/
def stopSweeper (s : Service) : Service := { s with nextSweep := none }

/-- The clock goes on by some milliseconds, and what is due is done; lists the requests that are
answered. -/
def tick (s : Service) (now : Moment) (ms : Nat) : List (HeldId × Response) × Service :=
  let (fired, s) := { s with clock := s.clock + ms }.settle
  let (given, s) := (s.sweepIfDue now).settle
  (fired ++ given, s)

/-- How many milliseconds the clock goes on at a time. -/
def piece : Nat := 500

/-- The clock goes on by some pieces. -/
def advance (now : Moment) : Nat → Service → List (HeldId × Response) × Service
  | 0, s => ([], s)
  | n + 1, s =>
    let (first, s) := s.tick now piece
    let (more, s) := advance now n s
    (first ++ more, s)

end TaskExchange.Service
