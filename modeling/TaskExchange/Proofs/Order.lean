import TaskExchange.Proofs.Consistency
import TaskExchange.Proofs.Roll

/-!
Order: who comes first.  In a line the tasks that come back from workers stand before those that no
worker was ever given, and the latter in the order of their acceptance (`InOrder`).  Main
statements: the order is kept when tasks are passed on (`Shifts.inOrder`), and when tasks are
accepted, taken back or removed (`Enters.renewal`, `Renewal.inOrder`).
-/

namespace TaskExchange.Scheduler

/-- In every lane the tasks that were given to workers are older than the fresh ones, and behind a
fresh task stand younger fresh ones only. -/
structure InOrder (s : Scheduler) (hand : Finset TaskId) : Prop where
  older : ∀ {id : TaskId} {t : Task}, s.tasks[id]? = some t → 0 < t.deliveries →
    ∀ other, s.FreshIn t.lane other → id.value < other.value
  line : ∀ lane, (s.queues.line lane).Pairwise fun a b =>
    s.FreshIn lane a → s.FreshIn lane b ∧ a.value < b.value
  inHand : ∀ {lane : Lane} {a b : TaskId}, a ∈ s.queues.line lane → s.FreshIn lane a → b ∈ hand →
    s.FreshIn lane b → a.value < b.value

variable {now : Moment} {s s' mid : Scheduler} {hand hand' : Finset TaskId}
  {log more : List Handover} {entry : Entry} {lane : Lane} {id : TaskId} {t : Task}

theorem InOrder.new (limits : Limits) : InOrder (.new limits) ∅ := by
  constructor <;> simp [Scheduler.new]

theorem freshIn_lane (h : s.FreshIn lane id) (ht : s.tasks[id]? = some t) :
    t.lane = lane ∧ t.deliveries = 0 := by
  obtain ⟨u, hu, hlane, hzero⟩ := h
  rw [ht] at hu
  cases hu
  exact ⟨hlane, hzero⟩

/-- A fresh task stands in its line, if it is not in the hand. -/
theorem Placed.mem_line_of_freshIn (hp : Placed s hand) (h : s.FreshIn lane id) (hid : id ∉ hand) :
    id ∈ s.queues.line lane := by
  obtain ⟨t, ht, rfl, hzero⟩ := h
  refine hp.queued ht ?_ hid
  cases hstate : t.state with
  | queued => rfl
  | inFlight => exact absurd hzero (Nat.ne_of_gt (hp.given ht hstate))

/-! ### Shifts -/

namespace InOrder

/-- The head of a line may be taken out. -/
theorem tail (ho : InOrder s hand) {rest : List TaskId} (hline : s.queues.line lane = id :: rest) :
    InOrder { s with queues := s.queues.setLine lane rest } hand := by
  have hsub : ∀ other, ((s.queues.setLine lane rest).line other).Sublist (s.queues.line other) := by
    intro other
    rw [Lanes.line_setLine]
    split
    · next h =>
      subst h
      rw [hline]
      exact List.sublist_cons_self ..
    · exact .refl _
  exact ⟨ho.older, fun other => (ho.line other).sublist (hsub other),
    fun ha => ho.inHand ((hsub _).subset ha)⟩

/-- A task that stands in no line may be given out, if all fresh tasks of its lane are younger. -/
theorem deliver (ho : InOrder s hand) (now : Moment)
    (hline : ∀ lane, t.id ∉ s.queues.line lane)
    (hfirst : ∀ other, s.FreshIn t.lane other → other ≠ t.id → t.id.value < other.value) :
    InOrder (s.deliver now t) hand := by
  have htask : ∀ x, (s.deliver now t).tasks[x]? = if t.id = x then some t.dispatch
      else s.tasks[x]? := fun x => by
    simp [Scheduler.deliver, Std.ExtTreeMap.getElem?_insert]
  have hfresh : ∀ {lane x}, (s.deliver now t).FreshIn lane x ↔ s.FreshIn lane x ∧ x ≠ t.id := by
    intro lane x
    simp only [FreshIn, htask]
    by_cases h : t.id = x
    · simp [h, Task.dispatch]
    · simp [h, Ne.symm h]
  refine ⟨?_, ?_, ?_⟩
  · intro x u hu hpos other hother
    obtain ⟨hother, hne⟩ := hfresh.mp hother
    rw [htask] at hu
    split at hu
    · next h =>
      cases hu
      exact h ▸ hfirst other hother hne
    · exact ho.older hu hpos other hother
  · intro lane
    refine (ho.line lane).imp_of_mem fun {a b} _ hb hab ha => ?_
    obtain ⟨hb', hlt⟩ := hab (hfresh.mp ha).1
    exact ⟨hfresh.mpr ⟨hb', fun h => hline lane (h ▸ hb)⟩, hlt⟩
  · intro lane a b ha hfa hb hfb
    exact ho.inHand ha (hfresh.mp hfa).1 hb (hfresh.mp hfb).1

/-- A task joins its line: a fresh one at the end, before all younger ones, and one that comes back
at the head. -/
theorem join (ho : InOrder s hand) (ht : s.tasks[t.id]? = some t) (hh : t.id ∈ hand)
    {xs : List TaskId}
    (hxs : (t.deliveries = 0 ∧ Foremost s hand t ∧ xs = s.queues.line t.lane ++ [t.id]) ∨
      (0 < t.deliveries ∧ xs = t.id :: s.queues.line t.lane)) :
    InOrder { s with queues := s.queues.setLine t.lane xs } (hand.erase t.id) := by
  have hgiven : 0 < t.deliveries → ∀ lane, ¬ s.FreshIn lane t.id := fun hpos lane h =>
    Nat.ne_of_gt hpos (freshIn_lane h ht).2
  refine ⟨ho.older, ?_, ?_⟩
  · intro lane
    rw [Lanes.line_setLine]
    split
    · next h =>
      subst h
      rcases hxs with ⟨hzero, hfirst, rfl⟩ | ⟨hpos, rfl⟩
      · refine List.pairwise_append.mpr ⟨ho.line t.lane, List.pairwise_singleton .., ?_⟩
        intro a ha b hb hfresh
        obtain rfl := List.mem_singleton.mp hb
        have hb : s.FreshIn t.lane t.id := ⟨t, ht, rfl, hzero⟩
        exact ⟨hb, ho.inHand ha hfresh hh hb⟩
      · exact List.pairwise_cons.mpr ⟨fun b _ h => absurd h (hgiven hpos _), ho.line t.lane⟩
    · exact ho.line lane
  · intro lane a b ha hfa hb hfb
    obtain ⟨hne, hb⟩ := Finset.mem_erase.mp hb
    rw [Lanes.line_setLine] at ha
    split at ha
    · next h =>
      subst h
      have hold : a ∈ s.queues.line t.lane → a.value < b.value := fun ha =>
        ho.inHand ha hfa hb hfb
      rcases hxs with ⟨hzero, hfirst, rfl⟩ | ⟨hpos, rfl⟩
      · rcases List.mem_append.mp ha with ha | ha
        · exact hold ha
        · obtain rfl := List.mem_singleton.mp ha
          have hle := hfirst b hb hfb
          have hvalue : t.id.value ≠ b.value := fun h => hne (congrArg TaskId.mk h).symm
          omega
      · rcases List.mem_cons.mp ha with rfl | ha
        · exact absurd hfa (hgiven hpos _)
        · exact hold ha
    · exact ho.inHand ha hfa hb hfb

end InOrder

theorem Shift.inOrder (h : Shift now s hand log s' hand') (hp : Placed s hand)
    (hidle : NoIdleWorker s) (ho : InOrder s hand) : InOrder s' hand' := by
  cases h with
  | @give t dead c rest ht hh hforemost hwaiting =>
    have hline : s.queues.line t.lane = [] :=
      (hidle t.lane).resolve_right (by simp [hwaiting])
    have hdeliver : InOrder (s.deliver now t) hand := by
      refine ho.deliver now (fun lane hin => (hp.inLine hin).1 hh) fun other hfresh hne => ?_
      -- A worker waits in this lane, so a fresh task of it can only be in the hand.
      have hother : other ∈ hand := by
        by_contra hnot
        have hin := hp.mem_line_of_freshIn hfresh hnot
        rw [hline] at hin
        cases hin
      have hle := hforemost other hother hfresh
      have hvalue : t.id.value ≠ other.value := fun h => hne (congrArg TaskId.mk h).symm
      omega
    exact ⟨hdeliver.older, hdeliver.line, fun ha hfa hb =>
      hdeliver.inHand ha hfa (Finset.mem_of_mem_erase hb)⟩
  | drop => exact ⟨ho.older, ho.line, ho.inHand⟩
  | join ht hh _ hxs => exact ho.join ht hh hxs
  | @take t rest ht hline =>
    have hnodup : (t.id :: rest).Nodup := hline ▸ hp.once t.lane
    refine (ho.tail hline).deliver now (fun lane hin => ?_) fun other hfresh hne => ?_
    · rw [Lanes.line_setLine] at hin
      split at hin
      · exact (List.nodup_cons.mp hnodup).1 hin
      · next h => exact h (hp.eq_lane hin ht)
    · -- The head of a line is older than the fresh tasks behind it and those in the hand.
      have hhead : t.id ∈ s.queues.line t.lane := hline ▸ List.mem_cons_self ..
      rcases Nat.eq_zero_or_pos t.deliveries with hzero | hpos
      · have hfirst : s.FreshIn t.lane t.id := ⟨t, ht, rfl, hzero⟩
        by_cases hother : other ∈ hand
        · exact ho.inHand hhead hfirst hother hfresh
        · have hin := hp.mem_line_of_freshIn hfresh hother
          have hpairs := ho.line t.lane
          rw [hline] at hin hpairs
          have hrest : other ∈ rest := (List.mem_cons.mp hin).resolve_left hne
          exact ((List.pairwise_cons.mp hpairs).1 other hrest hfirst).2
      · exact ho.older ht hpos other hfresh

theorem Shifts.inOrder (h : Shifts now s hand log s' hand') (hp : Placed s hand)
    (hidle : NoIdleWorker s) (ho : InOrder s hand) : InOrder s' hand' := by
  induction h with
  | refl => exact ho
  | tail hshifts hshift ih =>
    exact hshift.inOrder (hshifts.placed hp) (hshifts.noIdleWorker hidle) ih

/-! ### Entries -/

/-- What an entry makes of the table and the lines: tasks are new, or are what they were, with as
many deliveries, and a task leaves its line only with the table. -/
structure Renewal (s mid : Scheduler) (hand : Finset TaskId) : Prop where
  task : ∀ {id : TaskId} {t : Task}, mid.tasks[id]? = some t →
    (∃ u, s.tasks[id]? = some u ∧ u.lane = t.lane ∧ u.deliveries = t.deliveries) ∨
      (s.nextId.value ≤ id.value ∧ t.deliveries = 0)
  line : ∀ lane, (mid.queues.line lane).Sublist (s.queues.line lane)
  stays : ∀ {lane : Lane} {id : TaskId}, id ∈ s.queues.line lane → id ∈ mid.tasks →
    id ∈ mid.queues.line lane
  inHand : ∀ {lane : Lane} {id : TaskId}, id ∈ hand → mid.FreshIn lane id →
    s.nextId.value ≤ id.value

theorem Removal.renewal {gone : List TaskId} (h : Removal s gone mid) : Renewal s mid ∅ where
  task ht := Or.inl ⟨_, (h.task_iff.mp ht).2, rfl, rfl⟩
  line lane := by
    rw [h.line]
    exact List.filter_sublist
  stays hline hid := h.mem_line_iff.mpr ⟨(h.mem_tasks_iff.mp hid).1, hline⟩
  inHand hid := absurd hid (Finset.notMem_empty _)

/-- Nothing has happened to the table and the lines. -/
theorem Renewal.of_eq (htasks : mid.tasks = s.tasks) (hqueues : mid.queues = s.queues) :
    Renewal s mid ∅ where
  task ht := Or.inl ⟨_, htasks ▸ ht, rfl, rfl⟩
  line lane := by rw [hqueues]
  stays hline _ := hqueues ▸ hline
  inHand hid := absurd hid (Finset.notMem_empty _)

theorem Enters.renewal (h : Enters now s entry mid hand) (hs : Sound s ∅) :
    Renewal s mid hand := by
  cases h with
  | @connections pool polls requesters back _ _ _ hrecall =>
    have hp : Placed { s with pool, polls, requesters } ∅ := hs.placed.congr rfl rfl rfl
    refine ⟨fun {id t} ht => Or.inl ?_, fun lane => by rw [hrecall.queues],
      fun hline _ => hrecall.queues ▸ hline, fun {lane id} hid hfresh => ?_⟩
    · by_cases hid : id ∈ back
      · obtain ⟨u, hu, -, hu'⟩ := hrecall.exists_of_mem hp hid
        rw [hu'] at ht
        cases ht
        exact ⟨u, hu, rfl, rfl⟩
      · exact ⟨t, hrecall.task_of_notMem hid ▸ ht, rfl, rfl⟩
    · obtain ⟨t, ht, -, hzero⟩ := hfresh
      have hpos := hrecall.deliveries_pos hp (List.mem_toFinset.mp hid) ht
      exact absurd hzero (Nat.ne_of_gt hpos)
  | park => exact .of_eq rfl rfl
  | batch =>
    refine ⟨fun {id t} ht => ?_, fun lane => by rw [enroll_queues],
      fun hline _ => by rwa [enroll_queues], fun hid _ => ?_⟩
    · rcases enroll_task ht with ⟨r, -, rfl, hid⟩ | ht
      · exact Or.inr ⟨(mem_numbersFrom.mp hid).1, rfl⟩
      · exact Or.inl ⟨t, ht, rfl, rfl⟩
    · exact (mem_numbersFrom.mp (List.mem_toFinset.mp hid)).1
  | single =>
    refine ⟨fun {id t} ht => ?_, fun _ => .refl _, fun hline _ => hline, fun hid _ => ?_⟩
    · rw [getElem?_enrollSingle] at ht
      split at ht
      · next h =>
        cases ht
        exact Or.inr ⟨h ▸ Nat.le_refl _, rfl⟩
      · exact Or.inl ⟨t, ht, rfl, rfl⟩
    · rw [Finset.mem_singleton.mp hid]
  | acknowledge hmid =>
    obtain ⟨t, -, -, hr⟩ := removal_acknowledge hs.placed hs.ledger hmid
    exact hr.renewal
  | withdraw ht hkind =>
    have hr := (removal_withdraw hs.placed ht hkind).renewal
    exact ⟨hr.task, hr.line, hr.stays, hr.inHand⟩
  | withdrawNothing => exact .of_eq rfl rfl
  | deleteJob hmid =>
    obtain ⟨j, -, hr⟩ := removal_deleteJob hs.placed hs.ledger hmid
    exact hr.renewal

/-- Requests of a lane are accepted as these tasks, and nothing else changes that matters there. -/
structure Intake (s mid : Scheduler) (accepted : List Task) (lane : Lane) : Prop where
  queues : mid.queues = s.queues
  pool : mid.pool = s.pool
  polls : mid.polls = s.polls
  tasks : ∀ t ∈ accepted, mid.tasks[t.id]? = some t
  lane : ∀ t ∈ accepted, t.lane = lane
  fresh : ∀ t ∈ accepted, t.deliveries = 0

/-- All requests that are accepted at once are of one lane. -/
theorem Enters.intake (h : Enters now s entry mid hand) (ht : t ∈ entry.tasks) :
    Intake s mid entry.tasks t.lane := by
  cases h with
  | @batch requests job category htarget =>
    have hnew : ∀ u ∈ batchTasks now (numbersFrom s.nextId.value requests.length) requests,
        ∃ r ∈ requests, requestUnder s.nextId.value requests u.id = some r ∧
          Task.ofRequest u.id .regional now.civil r = u := by
      intro u hu
      obtain ⟨r, hr, hru⟩ := Option.map_eq_some_iff.mp (mem_batchTasks.mp ⟨hu, rfl⟩)
      exact ⟨r, mem_of_requestUnder hr, hr, hru⟩
    have hlane : ∀ u ∈ batchTasks now (numbersFrom s.nextId.value requests.length) requests,
        u.lane = ⟨.regional, category⟩ := by
      intro u hu
      obtain ⟨r, hmem, -, hru⟩ := hnew u hu
      rw [← hru, ← ((targetOf_ok htarget).2.1 r hmem).2]
      rfl
    refine ⟨enroll_queues, enroll_pool, enroll_polls, fun u hu => ?_,
      fun u hu => (hlane u hu).trans (hlane t ht).symm, fun u hu => ?_⟩
    · obtain ⟨r, -, hr, hru⟩ := hnew u hu
      rw [getElem?_enroll, hr, Option.map_some, Option.some_or, hru]
    · obtain ⟨r, -, -, hru⟩ := hnew u hu
      rw [← hru]
      rfl
  | single =>
    obtain rfl := List.mem_singleton.mp ht
    refine ⟨rfl, rfl, rfl, fun u hu => ?_, fun u hu => ?_, fun u hu => ?_⟩
    · obtain rfl := List.mem_singleton.mp hu
      exact (getElem?_enrollSingle ..).trans (if_pos rfl)
    · obtain rfl := List.mem_singleton.mp hu
      rfl
    · obtain rfl := List.mem_singleton.mp hu
      rfl
  | connections => cases ht
  | park => cases ht
  | acknowledge => cases ht
  | withdraw => cases ht
  | withdrawNothing => cases ht
  | deleteJob => cases ht

theorem Renewal.inOrder (h : Renewal s mid hand) (hs : Sound s ∅) (hmid : Placed mid hand)
    (ho : InOrder s ∅) : InOrder mid hand := by
  have hbelow : ∀ {id : TaskId} {t : Task}, s.tasks[id]? = some t →
      id.value < s.nextId.value := fun ht => (hs.numbered.below (mem_tasks ht)).2
  have hfresh : ∀ {lane id}, mid.FreshIn lane id →
      s.FreshIn lane id ∨ s.nextId.value ≤ id.value := by
    rintro lane id ⟨t, ht, rfl, hzero⟩
    refine (h.task ht).imp ?_ fun hnew => hnew.1
    rintro ⟨u, hu, hlane, hdeliveries⟩
    exact ⟨u, hu, hlane, hdeliveries.trans hzero⟩
  have hqueued : ∀ {lane id}, id ∈ mid.queues.line lane →
      (mid.FreshIn lane id ↔ s.FreshIn lane id) := by
    intro lane id hid
    obtain ⟨-, t, ht, -, rfl⟩ := hs.placed.inLine ((h.line lane).subset hid)
    refine ⟨fun hmid => (hfresh hmid).resolve_right (Nat.not_le.mpr (hbelow ht)), ?_⟩
    rintro ⟨u, hu, hlane, hzero⟩
    obtain ⟨-, u', hu', -, hlane'⟩ := hmid.inLine hid
    rcases h.task hu' with ⟨v, hv, -, hdeliveries⟩ | ⟨-, hzero'⟩
    · rw [hu] at hv
      cases hv
      exact ⟨u', hu', hlane', hdeliveries.symm.trans hzero⟩
    · exact ⟨u', hu', hlane', hzero'⟩
  refine ⟨?_, ?_, ?_⟩
  · intro id t ht hpos other hother
    rcases h.task ht with ⟨u, hu, hlane, hdeliveries⟩ | ⟨-, hzero⟩
    · rcases hfresh hother with hother | hnew
      · exact ho.older hu (hdeliveries ▸ hpos) other (hlane ▸ hother)
      · exact Nat.lt_of_lt_of_le (hbelow hu) hnew
    · exact absurd hzero (Nat.ne_of_gt hpos)
  · intro lane
    refine ((ho.line lane).sublist (h.line lane)).imp_of_mem fun {a b} ha hb hab hfa => ?_
    obtain ⟨hfb, hlt⟩ := hab ((hqueued ha).mp hfa)
    exact ⟨(hqueued hb).mpr hfb, hlt⟩
  · intro lane a b ha _ hb hfb
    obtain ⟨-, t, ht, -⟩ := hs.placed.inLine ((h.line lane).subset ha)
    exact Nat.lt_of_lt_of_le (hbelow ht) (h.inHand hb hfb)

end TaskExchange.Scheduler
