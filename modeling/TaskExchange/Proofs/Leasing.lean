import TaskExchange.Proofs.Redelivery

/-!
Leasing: for how long a task stays with a worker that is not heard of again.  Main statement:
`leases_run`.  In every run a task that is with a worker has the lease that began when it was handed
over last, and none from before; when leases are called in, those regional tasks come back whose
leases have ended, are counted, and nothing else is touched.
-/

namespace TaskExchange.Scheduler

/-- The lease of a task that is given to a worker at a moment: none for a priority task, and none
that ends beyond the last reading of the clock. -/
def leaseFrom (limits : Limits) (now : Moment) : Kind → Option Instant
  | .regional =>
    if now.steady + limits.lease ≤ Instant.last then some (now.steady + limits.lease) else none
  | .priority => none

/-- A regional task that a worker has, and that was last handed over so long before an instant that
its lease has ended. -/
structure Overdue (limits : Limits) (past : List Event) (s : Scheduler) (t : Instant)
    (id : TaskId) : Prop where
  inFlight : id ∈ s.inFlight
  regional : ∃ task, s.tasks[id]? = some task ∧ task.kind = .regional
  ended : ∃ d, Latest (·.Hands id) past d ∧ d.now.steady + limits.lease ≤ Instant.last ∧
    d.now.steady + limits.lease ≤ t

/-- After some events the leases that have ended at an instant are called in, and these tasks come
back. -/
structure Expiry (limits : Limits) (past : List Event) (e : Event) (t : Instant)
    (back : Finset TaskId) : Prop where
  overdue : ∀ id, id ∈ back ↔ Overdue limits past e.before t id
  told : e.outcome = .requeued back.card
  /-- One that a worker received that waited is with it under a whole lease. -/
  again : ∀ id ∈ back, e.Hands id → ∃ task, e.before.tasks[id]? = some task ∧
    e.after.tasks[id]? = some task.requeue.dispatch ∧
    e.after.inFlight[id]? = some (leaseFrom limits e.now .regional)
  /-- One that nobody received waits in its line, and has no lease. -/
  waits : ∀ id ∈ back, ¬ e.Hands id → ∃ task, e.before.tasks[id]? = some task ∧
    e.after.tasks[id]? = some task.requeue ∧ id ∈ e.after.queues.line task.lane ∧
    id ∉ e.after.inFlight
  /-- They stand before all that stood in their lines, which are else as they were. -/
  lines : ∀ lane, ∃ front, e.after.queues.line lane = front ++ e.before.queues.line lane ∧
    ∀ id ∈ front, id ∈ back
  /-- All other tasks stay as they are, with as many deliveries and under the same leases. -/
  others : ∀ id, id ∉ back → ¬ e.Hands id ∧ e.after.tasks[id]? = e.before.tasks[id]? ∧
    e.after.inFlight[id]? = e.before.inFlight[id]?
  nothing : back = ∅ → e.after = e.before

/-- Leases belong to the latest handovers, in a run with these events and this last state. -/
structure Leases (limits : Limits) (trace : List Event) (last : Scheduler) : Prop where
  /-- A task that is with a worker is there under the lease of its latest handover. -/
  latest : ∀ id ∈ last.inFlight, ∃ d task, Latest (·.Hands id) trace d ∧
    last.tasks[id]? = some task ∧ last.inFlight[id]? = some (leaseFrom limits d.now task.kind)
  /-- Whenever a worker is given a task, a lease begins. -/
  fresh : ∀ e ∈ trace, ∀ id, e.Hands id → ∃ task, e.after.tasks[id]? = some task ∧
    e.after.inFlight[id]? = some (leaseFrom limits e.now task.kind)
  /-- No lease is left behind of a task that was to be given out and that no worker received, and no
  other lease begins. -/
  vain : ∀ e ∈ trace, ∀ id, ¬ e.Hands id → (id ∈ e.hand → id ∉ e.after.inFlight) ∧
    (id ∈ e.after.inFlight → e.after.inFlight[id]? = e.before.inFlight[id]?)
  expiry : ∀ past e future, trace = past ++ e :: future → ∀ t, e.op = .requeueExpired t →
    ∃ back, Expiry limits past e t back

variable {now : Moment} {s s' mid : Scheduler} {hand hand' : Finset TaskId}
  {log : List Handover} {entry : Entry} {past : List Event} {e d : Event} {id : TaskId} {t : Task}
  {lease : Option Instant} {limits : Limits}

/-! ### Leases that begin -/

/-- A lease is that of a regional task and ends so long after it began, on a reading that the clock
can have. -/
theorem leaseFrom_eq_some_iff {kind : Kind} {ends : Instant} :
    leaseFrom limits now kind = some ends ↔ kind = .regional ∧
      ends = now.steady + limits.lease ∧ now.steady + limits.lease ≤ Instant.last := by
  cases kind with
  | regional =>
    rw [leaseFrom]
    split
    · next hlast => simp [hlast, eq_comm]
    · next hlast => simp [hlast]
  | priority => simp [leaseFrom]

theorem leaseEnd?_eq (s : Scheduler) (now : Moment) (t : Task) :
    s.leaseEnd? now t = leaseFrom s.limits now t.kind := by
  ext ends
  rw [leaseFrom_eq_some_iff, leaseEnd?, Task.isRegional]
  cases t.kind with
  | regional => simp [Instant.after?_eq_some_iff]
  | priority => simp

theorem Shift.lease_of_mem (h : Shift now s hand log s' hand') {g : Handover} (hg : g ∈ log) :
    s'.inFlight[g.task.id]? = some (leaseFrom s.limits now g.task.kind) := by
  cases h with
  | @give t dead c rest ht =>
    obtain rfl := List.mem_singleton.mp hg
    simp [handTo, setWorkers, deliver, Task.dispatch, leaseEnd?_eq]
  | @take t rest ht =>
    obtain rfl := List.mem_singleton.mp hg
    simp [deliver, Task.dispatch, leaseEnd?_eq]
  | drop => cases hg
  | join => cases hg

/-- What workers are given they have under leases that have just begun. -/
theorem Shifts.lease_of_mem (h : Shifts now s hand log s' hand') (hp : Placed s hand)
    {g : Handover} (hg : g ∈ log) :
    s'.inFlight[g.task.id]? = some (leaseFrom s.limits now g.task.kind) := by
  induction h with
  | refl => cases hg
  | @tail log more s' s'' _ _ hshifts hshift ih =>
    rcases List.mem_append.mp hg with hg | hg
    · -- It is in flight now, so the next shift is about another task.
      have hnot : g.task.id ∉ handedOver more := by
        intro hmem
        obtain ⟨g', hg', hid⟩ := mem_handedOver.mp hmem
        have hflight := hshifts.inFlight_iff.mpr (Or.inr ⟨g, hg, rfl⟩)
        exact hshift.not_inFlight_of_mem (hshifts.placed hp) hg' (hid ▸ hflight)
      exact (hshift.unchanged hnot).2.trans (ih hg)
    · exact hshifts.books.limits ▸ hshift.lease_of_mem hg

/-- No lease begins before tasks are passed on. -/
theorem Enters.inFlight_of_some (h : Enters now s entry mid hand) (hs : Sound s ∅)
    (hid : mid.inFlight[id]? = some lease) : s.inFlight[id]? = some lease := by
  have hremoval : ∀ {gone mid}, Removal s gone mid → mid.inFlight[id]? = some lease →
      s.inFlight[id]? = some lease := by
    intro gone mid hr hid
    rw [hr.inFlight] at hid
    split at hid
    · cases hid
    · exact hid
  cases h with
  | connections _ _ hrecall =>
    rw [hrecall.inFlight] at hid
    split at hid
    · cases hid
    · exact hid
  | park => exact hid
  | batch => rwa [enroll_inFlight] at hid
  | single => exact hid
  | acknowledge hmid =>
    obtain ⟨u, -, -, hr⟩ := removal_acknowledge hs.placed hs.ledger hmid
    exact hremoval hr hid
  | withdraw hu hkind => exact hremoval (removal_withdraw hs.placed hu hkind) hid
  | withdrawNothing => exact hid
  | deleteJob hmid =>
    obtain ⟨j, -, hr⟩ := removal_deleteJob hs.placed hs.ledger hmid
    exact hremoval hr hid

namespace Event

/-- Whoever is given a task has it under a lease that begins then. -/
theorem lease_of_hands (e : Event) (hs : Sound e.before ∅) (h : e.Hands id) :
    ∃ task, e.after.tasks[id]? = some task ∧
      e.after.inFlight[id]? = some (leaseFrom e.before.limits e.now task.kind) := by
  obtain ⟨mid, he⟩ := e.enters hs
  obtain ⟨g, hg, rfl⟩ := mem_handedOver.mp ((e.hands_iff hs).mp h)
  have hmid := (he.enters.sound hs).placed
  refine ⟨g.task, (he.shifts.copy_of_mem hmid hg).1, ?_⟩
  exact he.enters.limits hs ▸ he.shifts.lease_of_mem hmid hg

/-- A task that no worker is given has the lease it had, if any. -/
theorem lease_of_not_hands (e : Event) (hs : Sound e.before ∅) (h : ¬ e.Hands id)
    (hid : e.after.inFlight[id]? = some lease) : e.before.inFlight[id]? = some lease := by
  obtain ⟨mid, he⟩ := e.enters hs
  have hsame := (he.shifts.unchanged (mt (e.hands_iff hs).mpr h)).2
  exact he.enters.inFlight_of_some hs (hsame ▸ hid)

/-- A task that was to be given out is with a worker only if one received it. -/
theorem notMem_inFlight_of_hand (e : Event) (hs : Sound e.before ∅) (hid : id ∈ e.hand)
    (h : ¬ e.Hands id) : id ∉ e.after.inFlight := by
  obtain ⟨mid, he⟩ := e.enters hs
  have hmid := (he.enters.sound hs).placed
  obtain ⟨t, ht, hq⟩ := hmid.inHand hid
  obtain rfl := hmid.key ht
  rw [he.shifts.inFlight_iff, ← mem_handedOver, ← e.hands_iff hs, not_or]
  exact ⟨hmid.not_inFlight ht hq, h⟩

/-- A task that stays keeps its kind. -/
theorem kind_after (e : Event) (hs : Sound e.before ∅) {u : Task}
    (ht : e.before.tasks[id]? = some t) (hu : e.after.tasks[id]? = some u) : u.kind = t.kind := by
  rcases (e.roll_iff hs).mp (roll?_of_task hu) with ⟨hroll, -⟩ | ⟨hnew, hid⟩
  · rw [roll?_of_task ht] at hroll
    exact (Task.kind_eq_of_asAccepted (Option.some.inj hroll)).symm
  · have hle := e.le_of_mem_tasks hs hnew
    have hlt := (hs.numbered.below (mem_tasks ht)).2
    rw [hid] at hle
    exact absurd hle (Nat.not_le.mpr hlt)

end Event

/-! ### Every lease is that of the latest handover -/

/-- Whoever has a task has it under the lease of its latest handover. -/
def Leased (limits : Limits) (past : List Event) (s : Scheduler) : Prop :=
  ∀ id ∈ s.inFlight, ∃ d task, Latest (·.Hands id) past d ∧ s.tasks[id]? = some task ∧
    s.inFlight[id]? = some (leaseFrom limits d.now task.kind)

theorem Leased.after (h : Leased limits past e.before) (hs : Sound e.before ∅)
    (hlimits : e.before.limits = limits) : Leased limits (past ++ [e]) e.after := by
  intro id hid
  by_cases hhands : e.Hands id
  · obtain ⟨task, ht, hlease⟩ := e.lease_of_hands hs hhands
    exact ⟨e, task, .last hhands, ht, hlimits ▸ hlease⟩
  · obtain ⟨lease, hlease⟩ := Option.isSome_iff_exists.mp
      (Std.ExtTreeMap.mem_iff_isSome_getElem?.mp hid)
    have hbefore := e.lease_of_not_hands hs hhands hlease
    obtain ⟨d, task, hlast, ht, hgiven⟩ := h id (Std.ExtTreeMap.getElem?_eq_some_iff.mp hbefore).1
    obtain ⟨u, hu⟩ := exists_of_mem_tasks ((e.sound_after hs).mem_tasks_of_inFlight hid)
    refine ⟨d, u, hlast.concat hhands, hu, ?_⟩
    rw [e.kind_after hs ht hu, hlease, ← hbefore, hgiven]

theorem leased_run (limits : Limits) (steps : List (Moment × Operation)) :
    Leased limits ((new limits).trace steps) ((new limits).run steps) := by
  refine ((Sound.new limits).trace_induction (P := fun past s => Leased limits past s ∧
    s.limits = limits) ⟨?_, rfl⟩ ?_).1
  · intro id hid
    simp [Scheduler.new] at hid
  · rintro past e - hs ⟨h, hlimits⟩
    obtain ⟨mid, he⟩ := e.enters hs
    refine ⟨h.after hs hlimits, ?_⟩
    rw [he.shifts.books.limits, he.enters.limits hs, hlimits]

/-! ### Leases that are called in -/

/-- The tasks whose leases have ended are those that were last handed over long enough ago. -/
theorem Leased.mem_expired_iff (h : Leased limits past s) (hs : Sound s ∅) {t : Instant} :
    id ∈ s.expired t ↔ Overdue limits past s t id := by
  rw [mem_expired]
  constructor
  · rintro ⟨lease, hlease, hle⟩
    have hid := (Std.ExtTreeMap.getElem?_eq_some_iff.mp hlease).1
    obtain ⟨task, ht, hkind⟩ := hs.regional_of_expired (mem_expired.mpr ⟨lease, hlease, hle⟩)
    obtain ⟨d, u, hlast, hu, hgiven⟩ := h id hid
    obtain rfl : task = u := Option.some.inj (ht.symm.trans hu)
    rw [hlease, hkind] at hgiven
    obtain ⟨-, rfl, hends⟩ := leaseFrom_eq_some_iff.mp (Option.some.inj hgiven).symm
    exact ⟨hid, ⟨task, ht, hkind⟩, d, hlast, hends, hle⟩
  · rintro ⟨hid, ⟨task, ht, hkind⟩, d, hlast, hends, hle⟩
    obtain ⟨d', u, hlast', hu, hgiven⟩ := h id hid
    obtain rfl : task = u := Option.some.inj (ht.symm.trans hu)
    obtain rfl := hlast.unique hlast'
    have hlease := leaseFrom_eq_some_iff.mpr ⟨rfl, rfl, hends⟩
    rw [hkind, hlease] at hgiven
    exact ⟨_, hgiven, hle⟩

/-- Nothing happens when no lease has ended. -/
theorem requeueExpired_of_nil {t : Instant} (h : s.expired t = []) :
    (s.requeueExpired now t).2 = s := by
  simp [requeueExpired, requeueFront, h, takeBackEach, dispatchEach, queueFrontEach]

/-- What is taken back from a worker waits when tasks are passed on, as it was accepted and with as
many deliveries. -/
theorem Event.Explained.recalled (he : e.Explained mid) (hs : Sound e.before ∅)
    (hid : id ∈ e.requeued) :
    ∃ task, e.before.tasks[id]? = some task ∧ task.state = .inFlight ∧
      mid.tasks[id]? = some task.requeue := by
  have hhand : id ∈ e.hand := Finset.mem_union_right _ hid
  obtain ⟨task, ht, hstate⟩ := hs.placed.inFlight.mp (Finset.mem_filter.mp hid).2
  obtain ⟨u, hu, -⟩ := (he.enters.sound hs).placed.inHand hhand
  obtain rfl := (he.enters.sound hs).placed.key hu
  refine ⟨task, ht, hstate, hu.trans (congrArg some ?_)⟩
  rcases he.enters.ready hs hu with hnew | ⟨v, hv, -, rfl⟩ | ⟨-, hnot⟩
  · have hle := e.le_of_mem_tasks hs hnew
    exact absurd hle (Nat.not_le.mpr (hs.numbered.below (mem_tasks ht)).2)
  · rw [Option.some.inj (ht.symm.trans hv)]
  · exact absurd hhand hnot

/-- Tasks that come back and are passed on join their lines before all others. -/
theorem Shifts.line_of_given (h : Shifts now s hand log s' hand')
    (hgiven : ∀ id ∈ hand, ∀ lane, ¬ s.FreshIn lane id)
    (hlog : ∀ g ∈ log, g.receiver ≠ none) (lane : Lane) :
    ∃ front, s'.queues.line lane = front ++ s.queues.line lane ∧ ∀ id ∈ front, id ∈ hand := by
  induction h with
  | refl => exact ⟨[], rfl, by simp⟩
  | @tail log more s' s'' _ _ hshifts hshift ih =>
    obtain ⟨front, hline, hfront⟩ := ih fun g hg => hlog g (List.mem_append_left _ hg)
    cases hshift with
    | give => exact ⟨front, hline, hfront⟩
    | drop => exact ⟨front, hline, hfront⟩
    | take => exact absurd rfl (hlog _ (List.mem_append_right _ (List.mem_singleton_self _)))
    | @join t xs ht hh _ hxs =>
      have hin := hshifts.subset_hand hh
      rcases hxs with ⟨hzero, -⟩ | ⟨-, rfl⟩
      · exact absurd (hshifts.freshIn_iff.mp ⟨t, ht, rfl, hzero⟩).1 (hgiven t.id hin t.lane)
      · rw [Lanes.line_setLine]
        split
        · next hlane =>
          subst hlane
          refine ⟨t.id :: front, by rw [hline, List.cons_append], fun id hid => ?_⟩
          rcases List.mem_cons.mp hid with rfl | hid
          · exact hin
          · exact hfront id hid
        · exact ⟨front, hline, hfront⟩

theorem Enters.queues_of_nothing (h : Enters now s .nothing mid hand) : mid.queues = s.queues := by
  cases h with
  | connections _ _ hrecall => exact hrecall.queues
  | park => rfl

/-- A task that is taken back and received by another worker is delivered once more. -/
theorem Event.again_of_requeued (hs : Sound e.before ∅) (hid : id ∈ e.requeued)
    (hhands : e.Hands id) :
    ∃ task, e.before.tasks[id]? = some task ∧ e.after.tasks[id]? = some task.requeue.dispatch ∧
      e.after.inFlight[id]? = some (leaseFrom e.before.limits e.now task.kind) := by
  obtain ⟨mid, he⟩ := e.enters hs
  obtain ⟨task, ht, -, hback⟩ := he.recalled hs hid
  obtain ⟨g, hg, rfl⟩ := mem_handedOver.mp ((e.hands_iff hs).mp hhands)
  obtain ⟨hentry, u, hu, -, hcopy⟩ := he.shifts.copy_of_mem (he.enters.sound hs).placed hg
  obtain rfl : task.requeue = u := Option.some.inj (hback.symm.trans hu)
  obtain ⟨v, hv, hlease⟩ := e.lease_of_hands hs hhands
  obtain rfl : g.task = v := Option.some.inj (hentry.symm.trans hv)
  refine ⟨task, ht, hcopy ▸ hentry, ?_⟩
  rw [hlease, e.kind_after hs ht hv]

/-- A task that is taken back and not received waits in its line. -/
theorem Event.waits_of_requeued (hs : Sound e.before ∅) (hid : id ∈ e.requeued)
    (hhands : ¬ e.Hands id) :
    ∃ task, e.before.tasks[id]? = some task ∧ e.after.tasks[id]? = some task.requeue ∧
      id ∈ e.after.queues.line task.lane ∧ id ∉ e.after.inFlight := by
  obtain ⟨mid, he⟩ := e.enters hs
  obtain ⟨task, ht, -, hback⟩ := he.recalled hs hid
  have hafter : e.after.tasks[id]? = some task.requeue := by
    rw [(he.shifts.unchanged (mt (e.hands_iff hs).mpr hhands)).1, hback]
  have hline : id ∈ e.after.queues.line task.requeue.lane :=
    (e.sound_after hs).placed.queued hafter rfl (Finset.notMem_empty _)
  exact ⟨task, ht, hafter, hline,
    e.notMem_inFlight_of_hand hs (Finset.mem_union_right _ hid) hhands⟩

section

variable {t : Instant} (hop : e.op = .requeueExpired t)

include hop

theorem Event.entry_of_requeueExpired : e.entry = .nothing := by
  obtain ⟨s, now, op⟩ := e
  cases hop
  rfl

theorem Event.hand_of_requeueExpired : e.hand = e.requeued :=
  hand_of_nothing (entry_of_requeueExpired hop)

theorem Event.mem_requeued_iff_expired : id ∈ e.requeued ↔ id ∈ e.before.expired t := by
  obtain ⟨s, now, op⟩ := e
  cases hop
  exact mem_requeued_of_requeueExpired

variable (hs : Sound e.before ∅)

include hs

theorem Event.line_of_requeueExpired (lane : Lane) :
    ∃ front, e.after.queues.line lane = front ++ e.before.queues.line lane ∧
      ∀ id ∈ front, id ∈ e.requeued := by
  obtain ⟨mid, he⟩ := e.enters hs
  have hhand := hand_of_requeueExpired hop
  have hqueues := (entry_of_requeueExpired hop ▸ he.enters).queues_of_nothing
  rw [← hqueues, ← hhand]
  refine he.shifts.line_of_given (fun id hid lane hfresh => ?_) (fun g hg => ?_) lane
  · obtain ⟨task, ht, hstate, hback⟩ := he.recalled hs (hhand ▸ hid)
    have hzero : task.deliveries = 0 := (freshIn_lane hfresh hback).2
    exact Nat.ne_of_gt (hs.placed.given ht hstate) hzero
  · obtain ⟨s, now, op⟩ := e
    cases hop
    obtain ⟨-, c, hc⟩ := received_of_requeueExpired hs hg
    exact hc ▸ Option.some_ne_none c

/-- Tasks that are not taken back stay as they are. -/
theorem Event.unchanged_of_requeueExpired (hid : id ∉ e.requeued) :
    ¬ e.Hands id ∧ e.after.tasks[id]? = e.before.tasks[id]? ∧
      e.after.inFlight[id]? = e.before.inFlight[id]? := by
  obtain ⟨mid, henters, hshifts, -⟩ := e.enters hs
  rw [hand_of_requeueExpired hop, entry_of_requeueExpired hop] at henters
  have hnot : id ∉ handedOver e.handovers := by
    intro hin
    obtain ⟨g, hg, rfl⟩ := mem_handedOver.mp hin
    obtain ⟨s, now, op⟩ := e
    cases hop
    exact hid (received_of_requeueExpired hs hg).1
  rw [e.hands_iff hs]
  obtain ⟨htasks, hflight⟩ := Enters.unchanged henters hid
  obtain ⟨htasks', hflight'⟩ := hshifts.unchanged hnot
  exact ⟨hnot, htasks'.trans htasks, hflight'.trans hflight⟩

theorem Leased.expiry (h : Leased limits past e.before) (hlimits : e.before.limits = limits) :
    Expiry limits past e t e.requeued := by
  have hoverdue : ∀ id, id ∈ e.requeued ↔ Overdue limits past e.before t id := fun id =>
    (Event.mem_requeued_iff_expired hop).trans (h.mem_expired_iff hs)
  refine ⟨hoverdue, ?_, ?_, fun id => Event.waits_of_requeued hs,
    Event.line_of_requeueExpired hop hs, fun id => Event.unchanged_of_requeueExpired hop hs, ?_⟩
  · have houtcome : e.outcome = .requeued (e.before.requeueExpired e.now t).1 := by
      rw [Event.outcome, hop]
      rfl
    rw [houtcome, e.counted hs houtcome]
  · intro id hid hhands
    obtain ⟨task, ht, hafter, hlease⟩ := Event.again_of_requeued hs hid hhands
    obtain ⟨u, hu, hkind⟩ := ((hoverdue id).mp hid).regional
    obtain rfl : task = u := Option.some.inj (ht.symm.trans hu)
    rw [hkind, hlimits] at hlease
    exact ⟨task, ht, hafter, hlease⟩
  · intro hempty
    have hnil : e.before.expired t = [] := by
      refine List.eq_nil_iff_forall_not_mem.mpr fun id hid => ?_
      exact Finset.notMem_empty id (hempty ▸ (Event.mem_requeued_iff_expired hop).mpr hid)
    rw [Event.after, hop]
    exact requeueExpired_of_nil hnil

end

/-- In every run leases belong to the latest handovers, and tasks come back when these have
ended. -/
theorem leases_run (limits : Limits) (steps : List (Moment × Operation)) :
    Leases limits ((new limits).trace steps) ((new limits).run steps) := by
  have hsound : ∀ e ∈ (new limits).trace steps, Sound e.before ∅ := fun _ he =>
    sound_of_mem_trace he
  have hlimits : ∀ e ∈ (new limits).trace steps, e.before.limits = limits := fun e he => by
    obtain ⟨xs, hbefore⟩ := exists_run_of_mem he
    exact hbefore ▸ limits_run limits xs
  refine ⟨leased_run limits steps, fun e he id hhands => ?_, fun e he id hhands => ⟨?_, ?_⟩, ?_⟩
  · exact hlimits e he ▸ e.lease_of_hands (hsound e he) hhands
  · exact fun hid => e.notMem_inFlight_of_hand (hsound e he) hid hhands
  · intro hid
    obtain ⟨lease, hlease⟩ := Option.isSome_iff_exists.mp
      (Std.ExtTreeMap.mem_iff_isSome_getElem?.mp hid)
    rw [hlease, e.lease_of_not_hands (hsound e he) hhands hlease]
  · intro past e future hsplit t hop
    have he : e ∈ (new limits).trace steps := hsplit ▸ List.mem_append_cons_self
    obtain ⟨xs, -, rfl, hbefore, -⟩ := trace_split hsplit
    exact ⟨e.requeued, (hbefore ▸ leased_run limits xs).expiry hop (hsound e he) (hlimits e he)⟩

/-- One worker is given a task and another one waits.  Then leases are called in now and again, each
time those that have ended by then. -/
def expiring : List (Moment × Operation) :=
  ([.enqueueBatch [⟨some ⟨"job"⟩, ⟨"graph", "1"⟩, default⟩], .openPoll,
    .poll ⟨.regional, ⟨"graph", "1"⟩⟩ ⟨0⟩, .openPoll,
    .poll ⟨.regional, ⟨"graph", "1"⟩⟩ ⟨1⟩].map fun op => (⟨0, default⟩, op)) ++
  [60 * Instant.second - 1, 60 * Instant.second, 120 * Instant.second - 1,
    120 * Instant.second].map fun t => (⟨t, default⟩, .requeueExpired t)

/-- A lease of a minute has ended after a minute and not a nanosecond earlier.  The task comes back
and goes to the worker that waits, and a minute later it comes back again. -/
theorem leases_twoWorkers :
    let limits : Limits := ⟨1, 10, 60 * Instant.second⟩
    Leases limits ((new limits).trace expiring) ((new limits).run expiring) ∧
    (((new limits).trace expiring).filterMap fun e => match e.outcome with
      | .requeued count => some (e.now.steady, count)
      | _ => none) =
      [(60 * Instant.second - 1, 0), (60 * Instant.second, 1), (120 * Instant.second - 1, 0),
        (120 * Instant.second, 1)] :=
  ⟨leases_run _ _, by decide +kernel⟩

end TaskExchange.Scheduler
