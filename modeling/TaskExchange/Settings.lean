import TaskExchange.Scheduler.State

/-!
Settings: where the service listens, how long requests wait, what bounds the scheduler, and how
often the house is swept.  All times are whole seconds.
-/

namespace TaskExchange

/-- The settings of the service. -/
structure Settings where
  /-- The address to listen on. -/
  address : String
  /-- How long a worker's poll waits before it is answered with nothing. -/
  pollTimeout : Nat
  /-- How long a requester waits for the result of a priority task. -/
  priorityTimeout : Nat
  /-- How long a regional task may go unacknowledged. -/
  lease : Nat
  /-- How many regional tasks a poll is given at most. -/
  maxBatch : Nat
  /-- How many tasks a regional line may hold when a batch is accepted. -/
  maxDepth : Nat
  /-- The time between sweeps as it was asked for. -/
  sweepEvery : Nat
  /-- How long a worker is remembered after it was last seen. -/
  workerTtl : Nat
  deriving DecidableEq

namespace Settings

/-- The settings that hold when nothing else is said. -/
def standard : Settings where
  address := "0.0.0.0:9001"
  pollTimeout := 30
  priorityTimeout := 60
  lease := 60
  maxBatch := 1
  maxDepth := 100000
  sweepEvery := 5
  workerTtl := 300

instance : Inhabited Settings := ⟨standard⟩

/-- The time between sweeps, which is one second at least. -/
def sweepInterval (s : Settings) : Nat := max 1 s.sweepEvery

/-- Spans of civil time are counted in signed 64-bit milliseconds, so this is the longest one in
whole seconds. -/
def longestSpan : Nat := (Nat.pow 2 63 - 1) / 1000

/-- How long a worker is remembered; `none` when it is never forgotten because the time is too long
to be counted. -/
def workerTtl? (s : Settings) : Option Nat :=
  if s.workerTtl ≤ longestSpan then some s.workerTtl else none

/-- What bounds the scheduler. -/
def limits (s : Settings) : Limits := ⟨s.maxBatch, s.maxDepth, s.lease * Instant.second⟩

end Settings

end TaskExchange
