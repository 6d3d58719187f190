import TaskExchange.Proofs.Requeue
import TaskExchange.Proofs.Sighting
import TaskExchange.Service.Clock

/-!
Sweeping: what one sweep does to a service in whatever state, however long workers are remembered.
The time for which they are goes through two conversions that may fail, to a span of civil time and
from there to a time stamp; if one of them does, nobody is forgotten, and the leases are looked at
all the same.  Main statement: `sweeps`, which says what is left after a sweep and that no worker is
lost by remembering workers longer.
-/

namespace TaskExchange

namespace Timestamp

variable {t now cutoff : Timestamp} {ttl : Nat}

theorem before_iff : t.before cutoff ↔
    t.seconds < cutoff.seconds ∨ t.seconds = cutoff.seconds ∧ t.nanos < cutoff.nanos := by
  rw [before, compare_eq, Ordering.isLT_then, Bool.or_eq_true, Bool.and_eq_true]
  simp [Ordering.isLT_iff_eq_lt, Ordering.isEq_iff_eq_eq, compare_lt_iff_lt]

theorem minusSeconds?_eq_some_iff : now.minusSeconds? ttl = some cutoff ↔
    firstSecond ≤ now.seconds - ttl ∧ cutoff = ⟨now.seconds - ttl, now.nanos⟩ := by
  rw [minusSeconds?]
  split
  · next h => simp [h, eq_comm]
  · next h => simp [h]

end Timestamp

namespace Observation

/-- Holds of an observation that is forgotten at some time, when workers are remembered for some
seconds. -/
structure Outlived (ttl : Nat) (now : Timestamp) (o : Observation) : Prop where
  /-- So many milliseconds can be counted. -/
  counted : 1000 * ttl ≤ 2 ^ 63 - 1
  /-- The time so many seconds ago can be named. -/
  named : Timestamp.firstSecond ≤ now.seconds - ttl
  /-- The worker was last seen before that. -/
  older : o.lastSeen.seconds < now.seconds - ttl ∨
    o.lastSeen.seconds = now.seconds - ttl ∧ o.lastSeen.nanos < now.nanos

instance (ttl : Nat) (now : Timestamp) (o : Observation) : Decidable (o.Outlived ttl now) :=
  decidable_of_iff
    (1000 * ttl ≤ 2 ^ 63 - 1 ∧ Timestamp.firstSecond ≤ now.seconds - ttl ∧
      (o.lastSeen.seconds < now.seconds - ttl ∨
        o.lastSeen.seconds = now.seconds - ttl ∧ o.lastSeen.nanos < now.nanos))
    ⟨fun h => ⟨h.1, h.2.1, h.2.2⟩, fun h => ⟨h.counted, h.named, h.older⟩⟩

variable {a b ttl : Nat} {now : Timestamp} {o : Observation}

/-- What is forgotten although workers are remembered longer is forgotten anyway. -/
theorem Outlived.anti (h : o.Outlived b now) (hab : a ≤ b) : o.Outlived a now where
  counted := Nat.le_trans (Nat.mul_le_mul_left 1000 hab) h.counted
  named := by
    have := h.named
    omega
  older := by
    have := h.older
    omega

/-- Who was just seen is not forgotten. -/
theorem not_outlived_of_recent (h : o.lastSeen.before now = false) : ¬ o.Outlived ttl now := by
  intro hold
  refine Bool.eq_false_iff.mp h (Timestamp.before_iff.mpr ?_)
  have := hold.older
  omega

end Observation

namespace Service

/-- The service, but workers are remembered for another time. -/
def remembering (s : Service) (ttl : Nat) : Service :=
  { s with settings := { s.settings with workerTtl := ttl } }

/-- What a sweep makes of a service, with the number it tells. -/
structure Swept (s : Service) (now : Moment) (result : Nat × Service) : Prop where
  /-- Tasks are given out again as if that were all, and their number is told. -/
  requeued : (result.1, result.2.exchange.scheduler) =
    s.exchange.scheduler.requeueExpired now now.steady
  /-- They are those whose leases have ended. -/
  ended : result.1 =
    s.exchange.scheduler.inFlight.toList.countP fun entry => entry.2.any (· ≤ now.steady)
  /-- Of each worker there is what there was, if it is not forgotten. -/
  seen : ∀ worker, result.2.exchange.catalog.get? worker =
    (s.exchange.catalog.get? worker).filter (¬ ·.Outlived s.settings.workerTtl now.civil)
  workers : result.2.exchange.workers =
    s.exchange.workers.filter (¬ ·.Outlived s.settings.workerTtl now.civil)
  /-- Nobody is forgotten if the time is too long to be counted or reaches back too far. -/
  boundless : 2 ^ 63 - 1 < 1000 * s.settings.workerTtl ∨
      now.civil.seconds - s.settings.workerTtl < Timestamp.firstSecond →
    result.2.exchange.catalog = s.exchange.catalog
  rest : result.2 = { s with exchange := result.2.exchange }

/-- What sweeps do at some moment. -/
structure Sweeps (s : Service) (now : Moment) : Prop where
  swept : Swept s now (s.sweep now)
  /-- Who is remembered is remembered also when workers are remembered longer. -/
  longer : ∀ a b, a ≤ b → ∀ worker o,
    ((s.remembering a).sweep now).2.exchange.catalog.get? worker = some o →
    ((s.remembering b).sweep now).2.exchange.catalog.get? worker = some o
  /-- Who was just seen is remembered, however short or long the time is. -/
  recent : ∀ ttl worker o, s.exchange.catalog.get? worker = some o →
    o.lastSeen.before now.civil = false →
    ((s.remembering ttl).sweep now).2.exchange.catalog.get? worker = some o

variable {s : Service} {now : Moment} {cutoff : Timestamp} {o : Observation}

/-! ### The cutoff -/

theorem workerTtl?_eq_some_iff {settings : Settings} {ttl : Nat} :
    settings.workerTtl? = some ttl ↔
      1000 * settings.workerTtl ≤ 2 ^ 63 - 1 ∧ ttl = settings.workerTtl := by
  have hlongest : settings.workerTtl ≤ Settings.longestSpan ↔
      1000 * settings.workerTtl ≤ 2 ^ 63 - 1 := by
    rw [Settings.longestSpan, Nat.le_div_iff_mul_le (by decide), Nat.mul_comm]
    rfl
  rw [Settings.workerTtl?, ← hlongest]
  split
  · next h => simp [h, eq_comm]
  · next h => simp [h]

/-- There is a cutoff if both conversions go well. -/
theorem purgeBefore?_eq_some_iff {settings : Settings} :
    Exchange.purgeBefore? settings now = some cutoff ↔
      1000 * settings.workerTtl ≤ 2 ^ 63 - 1 ∧
      Timestamp.firstSecond ≤ now.civil.seconds - settings.workerTtl ∧
      cutoff = ⟨now.civil.seconds - settings.workerTtl, now.civil.nanos⟩ := by
  rw [Exchange.purgeBefore?, Option.bind_eq_some_iff]
  simp only [workerTtl?_eq_some_iff, Timestamp.minusSeconds?_eq_some_iff]
  constructor
  · rintro ⟨ttl, ⟨hcounted, rfl⟩, hnamed, rfl⟩
    exact ⟨hcounted, hnamed, rfl⟩
  · rintro ⟨hcounted, hnamed, rfl⟩
    exact ⟨_, ⟨hcounted, rfl⟩, hnamed, rfl⟩

/-- An observation is before the cutoff if it is to be forgotten. -/
theorem before_purgeBefore_iff {settings : Settings}
    (h : Exchange.purgeBefore? settings now = some cutoff) :
    o.lastSeen.before cutoff ↔ o.Outlived settings.workerTtl now.civil := by
  obtain ⟨hcounted, hnamed, rfl⟩ := purgeBefore?_eq_some_iff.mp h
  rw [Timestamp.before_iff]
  exact ⟨fun hold => ⟨hcounted, hnamed, hold⟩, fun hold => hold.older⟩

/-- Without a cutoff nothing is forgotten. -/
theorem not_outlived_of_none {settings : Settings}
    (h : Exchange.purgeBefore? settings now = none) :
    ¬ o.Outlived settings.workerTtl now.civil := by
  intro hold
  have := purgeBefore?_eq_some_iff.mpr ⟨hold.counted, hold.named, rfl⟩
  rw [h] at this
  cases this

theorem purgeBefore?_eq_none {settings : Settings}
    (h : 2 ^ 63 - 1 < 1000 * settings.workerTtl ∨
      now.civil.seconds - settings.workerTtl < Timestamp.firstSecond) :
    Exchange.purgeBefore? settings now = none := by
  refine Option.eq_none_iff_forall_ne_some.mpr fun cutoff hcutoff => ?_
  obtain ⟨hcounted, hnamed, -⟩ := purgeBefore?_eq_some_iff.mp hcutoff
  omega

/-! ### The two parts of a sweep -/

/-- A purge asks of each worker alone whether it was last seen too long ago. -/
theorem get?_purge (c : Catalog) (cutoff : Timestamp) (worker : WorkerId) :
    (c.purge cutoff).2.get? worker = (c.get? worker).filter (!·.lastSeen.before cutoff) := by
  simp only [Catalog.get?, Catalog.purge]
  exact Std.ExtTreeMap.getElem?_filter'

/-- As many tasks come back as leases have ended. -/
theorem requeueExpired_fst (s : Scheduler) (now : Moment) (t : Instant) :
    (s.requeueExpired now t).1 = s.inFlight.toList.countP fun entry => entry.2.any (· ≤ t) := by
  obtain ⟨back, mid, heach, -, hreturn⟩ := Scheduler.returning_takeBackEach s (s.expired t)
  have hcount : (s.requeueExpired now t).1 = back.length := by
    rw [Scheduler.requeueExpired, Scheduler.requeueFront, heach]
  have hexpired : (s.expired t).Nodup := by
    refine List.Nodup.sublist (List.filter_sublist.map _) ?_
    rw [Std.ExtTreeMap.map_fst_toList_eq_keys]
    exact Std.ExtTreeMap.nodup_keys
  have hperm : back.Perm (s.expired t) := by
    refine (List.perm_ext_iff_of_nodup hreturn.nodup hexpired).mpr fun id => ?_
    rw [hreturn.mem_iff]
    refine and_iff_left_of_imp fun hid => ?_
    obtain ⟨lease, hlease, -⟩ := Scheduler.mem_expired.mp hid
    exact (Std.ExtTreeMap.getElem?_eq_some_iff.mp hlease).1
  rw [hcount, hperm.length_eq, Scheduler.expired, List.length_map, List.countP_eq_length_filter]

/-- A sweep is a requeue and then a purge, if there is a cutoff. -/
theorem sweep_eq (s : Service) (now : Moment) :
    s.sweep now = ((s.exchange.scheduler.requeueExpired now now.steady).1, { s with
      exchange := ⟨(s.exchange.scheduler.requeueExpired now now.steady).2,
        match Exchange.purgeBefore? s.settings now with
        | some cutoff => (s.exchange.catalog.purge cutoff).2
        | none => s.exchange.catalog⟩ }) := by
  rw [sweep, Exchange.sweep]
  cases Exchange.purgeBefore? s.settings now <;> rfl

theorem catalog_sweep (s : Service) (now : Moment) : (s.sweep now).2.exchange.catalog =
    match Exchange.purgeBefore? s.settings now with
    | some cutoff => (s.exchange.catalog.purge cutoff).2
    | none => s.exchange.catalog := by
  rw [sweep_eq]

/-- Of each worker there is what there was, if it is not forgotten. -/
theorem get?_sweep (s : Service) (now : Moment) (worker : WorkerId) :
    (s.sweep now).2.exchange.catalog.get? worker =
      (s.exchange.catalog.get? worker).filter
        (¬ ·.Outlived s.settings.workerTtl now.civil) := by
  rw [catalog_sweep]
  cases hcutoff : Exchange.purgeBefore? s.settings now with
  | none =>
    cases s.exchange.catalog.get? worker with
    | none => rfl
    | some o => simp [Option.filter, not_outlived_of_none hcutoff]
  | some cutoff =>
    refine (get?_purge ..).trans ?_
    cases s.exchange.catalog.get? worker with
    | none => rfl
    | some o => simp [Option.filter, ← before_purgeBefore_iff hcutoff]

theorem workers_sweep (s : Service) (now : Moment) : (s.sweep now).2.exchange.workers =
    s.exchange.workers.filter (¬ ·.Outlived s.settings.workerTtl now.civil) := by
  rw [Exchange.workers, catalog_sweep]
  cases hcutoff : Exchange.purgeBefore? s.settings now with
  | none => simp [not_outlived_of_none hcutoff, Exchange.workers]
  | some cutoff =>
    rw [Catalog.observations_purge, Exchange.workers]
    refine List.filter_congr fun o _ => ?_
    rw [Bool.eq_iff_iff]
    simp [← before_purgeBefore_iff hcutoff]

theorem swept_sweep (s : Service) (now : Moment) : Swept s now (s.sweep now) where
  requeued := by rw [sweep_eq]
  ended := by rw [sweep_eq, requeueExpired_fst]
  seen := get?_sweep s now
  workers := workers_sweep s now
  boundless h := by rw [catalog_sweep, purgeBefore?_eq_none h]
  rest := by rw [sweep_eq]

/-! ### Every sweep -/

/-- A worker is remembered if it was and has not outlived its time. -/
theorem get?_sweep_remembering {ttl : Nat} {worker : WorkerId} :
    ((s.remembering ttl).sweep now).2.exchange.catalog.get? worker = some o ↔
      s.exchange.catalog.get? worker = some o ∧ ¬ o.Outlived ttl now.civil := by
  rw [get?_sweep, Option.filter_eq_some_iff, decide_eq_true_eq]
  rfl

/-- In every state and at every moment a sweep gives out again exactly what has to be, forgets
exactly the workers that were last seen too long ago, and does nothing else. -/
theorem sweeps (s : Service) (now : Moment) : Sweeps s now where
  swept := swept_sweep s now
  longer a b hab worker o ho := by
    obtain ⟨hseen, hkept⟩ := get?_sweep_remembering.mp ho
    exact get?_sweep_remembering.mpr ⟨hseen, fun hold => hkept (hold.anti hab)⟩
  recent ttl worker o hseen hrecent :=
    get?_sweep_remembering.mpr ⟨hseen, Observation.not_outlived_of_recent hrecent⟩

/-- A worker is seen at the beginning of 1970 and given a task under a lease that ends at once. -/
def oneWorker : Service :=
  let s := Service.new { Settings.standard with lease := 0 }
  let x := s.exchange.observe default ⟨"worker"⟩ ⟨"graph", "1"⟩
  { s with exchange := { x with
    scheduler := Scheduler.run x.scheduler ([.openPoll,
      .enqueueBatch [⟨some ⟨"job"⟩, ⟨"graph", "1"⟩, default⟩],
      .poll ⟨.regional, ⟨"graph", "1"⟩⟩ ⟨0⟩].map fun op => (default, op)) } }

/-- Ten minutes later its task is given out again in any case.  The worker is forgotten if workers
are remembered for five minutes; it is not if the time is longer than civil time can reach back, or
too long to be counted. -/
theorem sweeps_oneWorker :
    let now : Moment := ⟨600 * Instant.second, ⟨600, 0⟩⟩
    Sweeps oneWorker now ∧
    [300, 600, Settings.longestSpan, Settings.longestSpan + 1, 10 ^ 16, 2 ^ 64 - 1].map
      (fun ttl => (((oneWorker.remembering ttl).sweep now).1,
        ((oneWorker.remembering ttl).sweep now).2.exchange.workers.length)) =
      [(1, 0), (1, 1), (1, 1), (1, 1), (1, 1), (1, 1)] :=
  ⟨sweeps _ _, by decide +kernel⟩

end Service

end TaskExchange
