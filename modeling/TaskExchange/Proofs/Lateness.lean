import TaskExchange.Proofs.Departure
import TaskExchange.Proofs.Requeue

/-!
Lateness: a completion that is acknowledged after its task was taken back.  Where no worker waits
for it, the task only moves from its worker to the head of its line, from where the acknowledgment
takes it; whatever happens to other tasks happens to them just as without it.  Main statements: what
a requeue does to a state, it does to the state without tasks that no worker waits for
(`Sidelined.requeueFront`), and so it makes no difference whether an acknowledgment comes before or
after a requeue (`lateness_run`).
-/

namespace TaskExchange.Scheduler

/-- One map has what the other has, but for some tasks. -/
def Lacks {β : Type} (gone : List TaskId) (m m' : Std.ExtTreeMap TaskId β) : Prop :=
  ∀ id, m'[id]? = if id ∈ gone then none else m[id]?

/-- Tasks of one lane have left, and no worker waits in it. -/
structure Sidelined (lane : Lane) (gone : List TaskId) (s s' : Scheduler) : Prop
    extends Removal s gone s' where
  housed : ∀ id ∈ gone, ∀ t, s.tasks[id]? = some t → t.lane = lane
  idle : s.pool.line lane = []

variable {now : Moment} {s s' r r' : Scheduler} {gone back ids : List TaskId} {id : TaskId}
  {lane other : Lane} {t : Task}

namespace Lacks

variable {β : Type} {m m' : Std.ExtTreeMap TaskId β}

theorem insert (h : Lacks gone m m') (hid : id ∉ gone) (x : β) :
    Lacks gone (m.insert id x) (m'.insert id x) := by
  intro k
  rw [Std.ExtTreeMap.getElem?_insert, Std.ExtTreeMap.getElem?_insert, h k]
  split
  · next heq =>
    obtain rfl := Std.LawfulEqOrd.compare_eq_iff_eq.mp heq
    rw [if_neg hid]
  · rfl

theorem modify (h : Lacks gone m m') (hid : id ∉ gone) (f : β → β) :
    Lacks gone (m.modify id f) (m'.modify id f) := by
  intro k
  rw [Std.ExtTreeMap.getElem?_modify, Std.ExtTreeMap.getElem?_modify, h k, h id, if_neg hid]
  split
  · next heq =>
    obtain rfl := Std.LawfulEqOrd.compare_eq_iff_eq.mp heq
    rw [if_neg hid]
  · rfl

theorem erase (h : Lacks gone m m') (id : TaskId) : Lacks gone (m.erase id) (m'.erase id) := by
  intro k
  rw [Std.ExtTreeMap.getElem?_erase, Std.ExtTreeMap.getElem?_erase, h k]
  split
  · exact (ite_self _).symm
  · rfl

end Lacks

namespace Sidelined

/-! ### Giving other tasks to workers -/

theorem task (h : Sidelined lane gone s s') (hid : id ∉ gone) : s'.tasks[id]? = s.tasks[id]? := by
  rw [h.tasks, if_neg hid]

theorem setWorkers (h : Sidelined lane gone s s') (hne : other ≠ lane) (line : List ConnectionId) :
    Sidelined lane gone (s.setWorkers other line) (s'.setWorkers other line) :=
  { h with
    pool := congrArg (·.setLine other line) h.pool
    idle := (Lanes.line_setLine_of_ne _ _ hne).trans h.idle }

theorem startDelivery? (h : Sidelined lane gone s s') (now : Moment) (hid : id ∉ gone) :
    (s.startDelivery? now id = none ∧ s'.startDelivery? now id = none) ∨
    ∃ t r r', s.startDelivery? now id = some (t, r) ∧ s'.startDelivery? now id = some (t, r') ∧
      Sidelined lane gone r r' := by
  rw [Scheduler.startDelivery?, Scheduler.startDelivery?, h.task hid]
  cases ht : s.tasks[id]? with
  | none => exact Or.inl ⟨rfl, rfl⟩
  | some t =>
    refine Or.inr ⟨_, _, _, rfl, rfl, ?_⟩
    have hlease : s'.leaseEnd? now t = s.leaseEnd? now t := by
      rw [leaseEnd?, leaseEnd?, h.limits]
    rw [hlease]
    refine { h with
      tasks := Lacks.insert h.tasks hid _
      inFlight := Lacks.insert h.inFlight hid _
      housed := fun k hk u hu => ?_ }
    rw [Std.ExtTreeMap.getElem?_insert] at hu
    split at hu
    · next heq =>
      obtain rfl := Std.LawfulEqOrd.compare_eq_iff_eq.mp heq
      exact absurd hk hid
    · exact h.housed k hk u hu

theorem undoDelivery (h : Sidelined lane gone s s') (hid : id ∉ gone) :
    Sidelined lane gone (s.undoDelivery id) (s'.undoDelivery id) := by
  refine { h with
    tasks := Lacks.modify h.tasks hid _
    inFlight := Lacks.erase h.inFlight id
    housed := fun k hk u hu => ?_ }
  have hne : id ≠ k := fun heq => hid (heq ▸ hk)
  refine h.housed k hk u ?_
  simpa [Scheduler.undoDelivery, Std.ExtTreeMap.getElem?_modify, hne] using hu

theorem tryWaiting (now : Moment) (hid : id ∉ gone) (hne : other ≠ lane) :
    ∀ {line : List ConnectionId} {s s' : Scheduler}, Sidelined lane gone s s' →
    ∃ given r r', tryWaiting now id other line s = (given, r) ∧
      tryWaiting now id other line s' = (given, r') ∧ Sidelined lane gone r r'
  | [], s, s', h => ⟨false, s, s', rfl, rfl, h⟩
  | c :: rest, s, s', h => by
    have hset := h.setWorkers hne rest
    simp only [Scheduler.setWorkers] at hset
    rw [Scheduler.tryWaiting, Scheduler.tryWaiting]
    rcases hset.startDelivery? now hid with ⟨hnone, hnone'⟩ | ⟨t, r, r', hsome, hsome', hr⟩
    · simp only [hnone, hnone']
      exact ⟨false, _, _, rfl, rfl, hset⟩
    · simp only [hsome, hsome', hr.polls]
      cases r.polls.send? c [t] with
      | none => exact tryWaiting now hid hne (hr.undoDelivery hid)
      | some polls => exact ⟨true, _, _, rfl, rfl, { hr with polls := rfl }⟩

theorem dispatchToWaiting (h : Sidelined lane gone s s') (now : Moment) (hid : id ∉ gone) :
    ∃ given r r', s.dispatchToWaiting now id = (given, r) ∧
      s'.dispatchToWaiting now id = (given, r') ∧ Sidelined lane gone r r' := by
  rw [Scheduler.dispatchToWaiting, Scheduler.dispatchToWaiting, h.task hid]
  cases s.tasks[id]? with
  | none => exact ⟨false, s, s', rfl, rfl, h⟩
  | some t =>
    simp only [h.pool]
    by_cases hlane : t.lane = lane
    · rw [hlane, h.idle]
      exact ⟨false, s, s', rfl, rfl, h⟩
    · exact tryWaiting now hid hlane h

/-- No worker is there for a task that has left in the other state. -/
theorem dispatchToWaiting_of_mem (h : Sidelined lane gone s s') (now : Moment) (hid : id ∈ gone) :
    s.dispatchToWaiting now id = (false, s) := by
  rw [Scheduler.dispatchToWaiting]
  cases ht : s.tasks[id]? with
  | none => rfl
  | some t =>
    simp only [h.housed id hid t ht, h.idle]
    rfl

/-- The workers that are there are given the same tasks, and those that have left are never among
them. -/
theorem dispatchEach (now : Moment) : ∀ (ids left : List TaskId) {s s' : Scheduler},
    Sidelined lane gone s s' → ∃ rest r r', dispatchEach now ids left s = (rest, r) ∧
      dispatchEach now (ids.filter (· ∉ gone)) (left.filter (· ∉ gone)) s' =
        (rest.filter (· ∉ gone), r') ∧ Sidelined lane gone r r'
  | [], left, s, s', h =>
    ⟨left.reverse, s, s', rfl, by rw [List.filter_reverse]; rfl, h⟩
  | id :: ids, left, s, s', h => by
    rw [Scheduler.dispatchEach]
    by_cases hid : id ∈ gone
    · rw [h.dispatchToWaiting_of_mem now hid, List.filter_cons_of_neg (by simpa using hid)]
      have hrest := dispatchEach now ids (id :: left) h
      rwa [List.filter_cons_of_neg (by simpa using hid)] at hrest
    · obtain ⟨given, r, r', heq, heq', hr⟩ := h.dispatchToWaiting now hid
      rw [heq, List.filter_cons_of_pos (by simpa using hid), Scheduler.dispatchEach, heq']
      cases given with
      | true => exact dispatchEach now ids left hr
      | false =>
        have hrest := dispatchEach now ids (id :: left) hr
        rwa [List.filter_cons_of_pos (by simpa using hid)] at hrest

/-! ### Tasks that come back -/

theorem recalled (h : Sidelined lane gone s s') (hr : Recall s back r)
    (hr' : Recall s' (back.filter (· ∉ gone)) r') : Sidelined lane gone r r' := by
  have hfilter : ∀ k, k ∈ back.filter (· ∉ gone) ↔ k ∈ back ∧ k ∉ gone := by simp
  refine ⟨⟨?_, ?_, ?_, ?_, ?_, fun k => ?_, fun k => ?_, fun l => ?_⟩, fun k hk u hu => ?_, ?_⟩
  · rw [hr'.rest, hr.rest, h.limits]
  · rw [hr'.nextId, hr.nextId, h.nextId]
  · rw [hr'.pool, hr.pool, h.pool]
  · rw [hr'.polls, hr.polls, h.polls]
  · rw [hr'.rest, hr.rest, h.requesters]
  · rw [hr'.tasks, hr.tasks, h.tasks]
    by_cases hk : k ∈ gone <;> simp [hk]
  · rw [hr'.inFlight, hr.inFlight, h.inFlight]
    by_cases hk : k ∈ gone <;> simp [hk]
  · rw [hr'.queues, hr.queues, h.line]
  · rw [hr.tasks] at hu
    split at hu
    · obtain ⟨v, hv, rfl⟩ := Option.map_eq_some_iff.mp hu
      exact h.housed k hk v hv
    · exact h.housed k hk u hu
  · rw [hr.pool, h.idle]

theorem inLane (h : Sidelined lane gone s s') (other : Lane) (ids : List TaskId) :
    s'.inLane other (ids.filter (· ∉ gone)) = (s.inLane other ids).filter (· ∉ gone) := by
  rw [Scheduler.inLane, Scheduler.inLane, List.filter_filter, List.filter_filter]
  refine List.filter_congr fun k _ => ?_
  by_cases hk : k ∈ gone
  · simp [hk]
  · simp [hk, h.task hk]

theorem queueFrontEach (h : Sidelined lane gone s s') (ids : List TaskId) :
    Sidelined lane gone (queueFrontEach ids s)
      (queueFrontEach (ids.filter (· ∉ gone)) s') := by
  obtain ⟨queues, heq, hline⟩ := queueFrontEach_eq s ids
  obtain ⟨queues', heq', hline'⟩ := queueFrontEach_eq s' (ids.filter (· ∉ gone))
  rw [heq, heq']
  refine { h with line := fun other => ?_ }
  rw [hline', hline, h.inLane, h.line, List.filter_append]

/-- What a requeue does to a state, it does to the state without some tasks of a lane in which no
worker waits. -/
theorem requeueFront (h : Sidelined lane gone s s') (now : Moment) (ids : List TaskId) :
    Sidelined lane gone (s.requeueFront now ids).2 (s'.requeueFront now ids).2 := by
  obtain ⟨back, r, hback, hrecall, hreturn⟩ := returning_takeBackEach s ids
  obtain ⟨back', r', hback', hrecall', hreturn'⟩ := returning_takeBackEach s' ids
  have hfilter : Returning s' ids (back.filter (· ∉ gone)) := by
    refine ⟨hreturn.increasing.filter _, fun k => ?_⟩
    rw [List.mem_filter, hreturn.mem_iff, h.mem_inFlight_iff, decide_eq_true_eq]
    tauto
  obtain rfl : back' = back.filter (· ∉ gone) := hreturn'.unique hfilter fun _ _ => Iff.rfl
  obtain ⟨rest, u, u', heq, heq', hu⟩ :=
    dispatchEach now back [] (h.recalled hrecall hrecall')
  rw [List.filter_nil] at heq'
  simp only [Scheduler.requeueFront, hback, hback', heq, heq']
  exact hu.queueFrontEach rest

end Sidelined

/-! ### Acknowledging before and after -/

theorem requeueFront_books (hp : Placed s ∅) (now : Moment) (ids : List TaskId) :
    SameBooks s (s.requeueFront now ids).2 := by
  obtain ⟨back, mid, hrecall, -, hshifts, -⟩ := shifts_requeueFront now hp ids
  exact hrecall.books.trans hshifts.books

theorem Sound.requeueFront (hs : Sound s ∅) (now : Moment) (ids : List TaskId) :
    Sound (s.requeueFront now ids).2 ∅ := by
  obtain ⟨back, mid, hrecall, -, hshifts, -⟩ := shifts_requeueFront now hs.placed ids
  exact hshifts.sound (hrecall.sound hs)

/-- Where no worker waits for a task, its acknowledgment leaves it out of all that follows. -/
theorem Sound.sidelined (hs : Sound s ∅) (ht : s.tasks[id]? = some t)
    (hidle : s.pool.line t.lane = []) (h : s.acknowledge? id = some s') :
    Sidelined t.lane [id] s s' := by
  obtain ⟨-, -, -, hremoval⟩ := removal_acknowledge hs.placed hs.ledger h
  refine ⟨hremoval, fun k hk u hu => ?_, hidle⟩
  obtain rfl := List.mem_singleton.mp hk
  cases ht.symm.trans hu
  rfl

/-- It makes no difference whether a task is acknowledged before a requeue or after it. -/
theorem Sound.acknowledge?_requeueFront (hs : Sound s ∅) (ht : s.tasks[id]? = some t)
    (hkind : t.kind = .regional) (hidle : s.pool.line t.lane = [])
    (h : s.acknowledge? id = some s') (now : Moment) (ids : List TaskId) :
    (s.requeueFront now ids).2.acknowledge? id = some (s'.requeueFront now ids).2 := by
  have hback := hs.requeueFront now ids
  have hbooks := requeueFront_books hs.placed now ids
  have hbooks' := requeueFront_books (hs.acknowledge h).placed now ids
  obtain ⟨u, hu, hsame⟩ := hbooks.task ht
  obtain ⟨job, j, hjob, hj, -, hearly⟩ := hs.acknowledge?_eq ht hkind
  obtain ⟨job', j', hjob', hj', -, hlate⟩ :=
    hback.acknowledge?_eq hu ((u.kind_eq_of_asAccepted hsame).trans hkind)
  obtain ⟨-, -, -, hremoval⟩ := removal_acknowledge hback.placed hback.ledger hlate
  -- The job that the task is counted in is the same, and stands as it stood.
  obtain rfl : job' = job := by
    rw [u.job_eq_of_asAccepted hsame, hjob] at hjob'
    exact (Option.some.inj hjob').symm
  rw [hbooks.jobs, hj] at hj'
  obtain rfl := Option.some.inj hj'
  obtain rfl := Option.some.inj (h.symm.trans hearly)
  have hlast := ((hs.sidelined ht hidle h).requeueFront now ids).toRemoval
  refine hlate.trans (congrArg some (hremoval.unique hlast ?_ ?_))
  · rw [hbooks'.jobs, hbooks.jobs]
  · rw [hbooks'.producers]
    exact hbooks.producers

/-! ### A lease that ends, and a worker that is lost -/

/-- A task that is acknowledged is not among those whose leases have ended. -/
theorem Sidelined.requeueFront_expired (h : Sidelined lane gone s s') (now : Moment)
    (t : Instant) : s'.requeueFront now (s'.expired t) = s'.requeueFront now (s.expired t) := by
  refine requeueFront_congr now fun k hk => ?_
  rw [mem_expired, mem_expired, h.inFlight, if_neg (h.mem_inFlight_iff.mp hk).1]

/-- Of two requeues of the same numbers, one without a task, the other counts the task if it is
among them. -/
theorem Sidelined.requeueFront_fst (h : Sidelined lane [id] s s') (hs : Sound s ∅)
    (hs' : Sound s' ∅) (hflight : id ∈ s.inFlight) (now : Moment) (ids : List TaskId) :
    (s.requeueFront now ids).1 = (s'.requeueFront now ids).1 + if id ∈ ids then 1 else 0 := by
  have hset : ids.toFinset.filter (· ∈ s'.inFlight) =
      (ids.toFinset.filter (· ∈ s.inFlight)).erase id := by
    ext k
    simp only [Finset.mem_erase, Finset.mem_filter, h.mem_inFlight_iff, List.mem_singleton]
    tauto
  rw [Scheduler.requeueFront_fst hs, Scheduler.requeueFront_fst hs', hset]
  split
  · next hid =>
    refine (Finset.card_erase_add_one ?_).symm
    simp [hid, hflight]
  · next hid =>
    rw [Finset.erase_eq_of_notMem (by simp [hid]), Nat.add_zero]

/-- An acknowledgment that comes late does what one does that comes in time. -/
structure Lateness (s : Scheduler) (now : Moment) (id : TaskId) : Prop where
  /-- The tasks whose leases have ended are taken back after the acknowledgment or before it; the
  task is counted among them if its own lease has ended. -/
  expired : ∀ t : Instant, ∃ early late last count,
    s.step now (.acknowledge id) = (.found true, early) ∧
    early.step now (.requeueExpired t) = (.requeued count, last) ∧
    s.step now (.requeueExpired t) =
      (.requeued (if s.inFlight[id]?.join.any (· ≤ t) then count + 1 else count), late) ∧
    late.step now (.acknowledge id) = (.found true, last)
  /-- The task's worker is reported lost after the acknowledgment, and nothing happens, or before
  it. -/
  lost : ∃ late last,
    s.step now (.acknowledge id) = (.found true, last) ∧
    last.step now (.reportLost id) = (.found false, last) ∧
    s.step now (.reportLost id) = (.found true, late) ∧
    late.step now (.acknowledge id) = (.found true, last)

theorem Sound.lateness (hs : Sound s ∅) (ht : s.tasks[id]? = some t) (hkind : t.kind = .regional)
    (hflight : id ∈ s.inFlight) (hidle : s.pool.line t.lane = []) (now : Moment) :
    Lateness s now id := by
  obtain ⟨early, hearly⟩ :=
    Option.isSome_iff_exists.mp (acknowledge?_isSome_iff.mpr ⟨t, ht, hkind⟩)
  have hside := hs.sidelined ht hidle hearly
  have hlate := hs.acknowledge?_requeueFront ht hkind hidle hearly now
  have hcount := hside.requeueFront_fst hs (hs.acknowledge hearly) hflight now
  constructor
  case expired =>
    intro τ
    have hended : s.inFlight[id]?.join.any (· ≤ τ) = true ↔ id ∈ s.expired τ := by
      simp [mem_expired, Option.any_eq_true, Option.join_eq_some_iff]
    refine ⟨early, (s.requeueExpired now τ).2, (early.requeueExpired now τ).2,
      (early.requeueExpired now τ).1, by simp [step, hearly], rfl, ?_, ?_⟩
    · rw [step, requeueExpired, requeueExpired, hside.requeueFront_expired, hcount]
      simp only [hended]
      split <;> rfl
    · rw [step, requeueExpired, requeueExpired, hside.requeueFront_expired, hlate]
      rfl
  case lost =>
    have hgone : id ∉ early.inFlight := fun h =>
      (hside.mem_inFlight_iff.mp h).1 (List.mem_singleton_self id)
    have hnone : early.requeueFront now [id] = early.requeueFront now [] := by
      refine requeueFront_congr now fun k hk => ?_
      simp only [List.mem_singleton, List.not_mem_nil, iff_false]
      rintro rfl
      exact hgone hk
    have hnothing : early.requeueFront now [] = (0, early) := by
      simp [Scheduler.requeueFront, takeBackEach, dispatchEach, queueFrontEach]
    have hawaits : s.awaitsAcknowledgment id = true := by
      simp [awaitsAcknowledgment, hflight, ht, Task.isRegional, hkind]
    have hawaits' : early.awaitsAcknowledgment id = false := by
      simp [awaitsAcknowledgment, hgone]
    refine ⟨(s.requeueFront now [id]).2, early, by simp [step, hearly], ?_, ?_, ?_⟩
    · simp [step, reportLost, hawaits']
    · simp [step, reportLost, hawaits, hcount, hnone, hnothing]
    · rw [step, hlate, hnone, hnothing]
      rfl

/-! ### Every run -/

/-- After every run, where no worker waits for a regional task in flight, its acknowledgment may
come before or after its lease ends or its worker is lost: the state is the same in the end. -/
theorem lateness_run (limits : Limits) (steps : List (Moment × Operation)) (now : Moment)
    (ht : ((new limits).run steps).tasks[id]? = some t) (hkind : t.kind = .regional)
    (hflight : id ∈ ((new limits).run steps).inFlight)
    (hidle : ((new limits).run steps).pool.line ⟨.regional, t.category⟩ = []) :
    Lateness ((new limits).run steps) now id := by
  have hlane : t.lane = ⟨.regional, t.category⟩ := by rw [Task.lane, hkind]
  exact (sound_run limits steps).lateness ht hkind hflight (hlane ▸ hidle) now

/-- Two workers are given a task each, and a third task stands in line. -/
def twoWorkers : List (Moment × Operation) :=
  [.enqueueBatch (List.replicate 3 ⟨some ⟨"job"⟩, ⟨"graph", "1"⟩, default⟩),
    .openPoll, .poll ⟨.regional, ⟨"graph", "1"⟩⟩ ⟨0⟩, .openPoll,
    .poll ⟨.regional, ⟨"graph", "1"⟩⟩ ⟨1⟩].map fun op => (default, op)

/-- The leases of both end at once, with the third task in line and no worker left. -/
theorem lateness_twoWorkers : Lateness ((new .standard).run twoWorkers) default ⟨2⟩ ∧
    ((new .standard).run twoWorkers).expired Limits.standard.lease = [⟨1⟩, ⟨2⟩] ∧
    ((new .standard).run twoWorkers).queues.line ⟨.regional, ⟨"graph", "1"⟩⟩ = [⟨3⟩] ∧
    ((new .standard).run twoWorkers).pool.line ⟨.regional, ⟨"graph", "1"⟩⟩ = [] := by
  have htask : ((new .standard).run twoWorkers).tasks[(⟨2⟩ : TaskId)]?.any
      (fun t => t.kind = .regional ∧ t.category = ⟨"graph", "1"⟩) = true := by decide +kernel
  obtain ⟨t, ht, hkind⟩ := (Option.any_eq_true ..).mp htask
  obtain ⟨hkind, hcategory⟩ := of_decide_eq_true hkind
  have hidle : ((new .standard).run twoWorkers).pool.line ⟨.regional, ⟨"graph", "1"⟩⟩ = [] := by
    decide +kernel
  exact ⟨lateness_run _ _ _ ht hkind (by decide +kernel) (hcategory ▸ hidle),
    by decide +kernel, by decide +kernel, hidle⟩

end TaskExchange.Scheduler
