import TaskExchange.Time.Timestamp

/-!
Moments: what the two clocks of the exchange show at once.  Leases are measured on the steady clock,
which only goes forward and counts nanoseconds, and what is reported carries the civil time.  A
lease ends some time after it began, unless the end lies beyond the last reading that the steady
clock can have; then it never ends.
-/

namespace TaskExchange

/-- A reading of the steady clock, in nanoseconds. -/
abbrev Instant := Nat

namespace Instant

/-- One second of the steady clock. -/
def second : Nat := Nat.pow 10 9

/-- The steady clock counts whole seconds in a signed 64-bit word, so this is its last reading. -/
def last : Instant := Nat.pow 2 63 * second - 1

/-- The reading some nanoseconds later, if the clock can show it. -/
def after? (t : Instant) (span : Nat) : Option Instant :=
  if t + span ≤ last then some (t + span) else none

theorem after?_eq_some_iff {t e : Instant} {n : Nat} :
    after? t n = some e ↔ e = t + n ∧ t + n ≤ last := by
  unfold after?
  by_cases h : t + n ≤ last
  · simp [h, eq_comm]
  · simp [h]

end Instant

/-- What the clocks show at one moment. -/
structure Moment where
  /-- The reading of the steady clock. -/
  steady : Instant
  /-- The civil time. -/
  civil : Timestamp
  deriving DecidableEq, Inhabited

end TaskExchange
