import TaskExchange.Proofs.Attendance
import TaskExchange.Proofs.Isolation

/-!
Frames: what is left as it was in some lanes by an event that is about others.  Main statement:
`Event.sameIn`.  An event that accepts, ends and takes back no task of these lanes, and is no poll
in them and the end of none, leaves their tasks, their deliveries and their lines as they were.
-/

namespace TaskExchange.Scheduler

/-- Two states have the same tasks, deliveries and lines in some lanes. -/
structure SameIn (p : Lane → Prop) (s s' : Scheduler) : Prop where
  task_iff : ∀ {id : TaskId} {t : Task}, p t.lane → (s'.tasks[id]? = some t ↔ s.tasks[id]? = some t)
  inFlight : ∀ {id : TaskId} {t : Task}, s.tasks[id]? = some t → p t.lane →
    s'.inFlight[id]? = s.inFlight[id]?
  queue : ∀ lane, p lane → s'.queues.line lane = s.queues.line lane
  pool : ∀ lane, p lane → s'.pool.line lane = s.pool.line lane

/-- An event is about other lanes than these. -/
structure Event.Elsewhere (e : Event) (p : Lane → Prop) : Prop where
  accepted : ∀ t ∈ e.entry.tasks, ¬ p t.lane
  ended : ∀ {id : TaskId} {t : Task}, e.before.tasks[id]? = some t → e.entry.ends t → ¬ p t.lane
  back : ∀ {id : TaskId} {t : Task}, e.before.tasks[id]? = some t → id ∈ e.requeued → ¬ p t.lane
  polls : ∀ lane c, p lane → e.op ≠ .poll lane c ∧ ¬ e.Releases lane c

variable {now : Moment} {s s' s'' mid : Scheduler} {hand hand' : Finset TaskId}
  {log : List Handover} {entry : Entry} {e : Event} {p : Lane → Prop} {id : TaskId} {t : Task}

namespace SameIn

theorem refl (p : Lane → Prop) (s : Scheduler) : SameIn p s s := by
  constructor <;> simp

theorem trans (h : SameIn p s s') (h' : SameIn p s' s'') : SameIn p s s'' where
  task_iff hp := (h'.task_iff hp).trans (h.task_iff hp)
  inFlight ht hp := (h'.inFlight ((h.task_iff hp).mpr ht) hp).trans (h.inFlight ht hp)
  queue lane hp := (h'.queue lane hp).trans (h.queue lane hp)
  pool lane hp := (h'.pool lane hp).trans (h.pool lane hp)

/-- A task of another lane may be given out. -/
theorem deliver (now : Moment) (ht : s.tasks[t.id]? = some t) (hp : ¬ p t.lane) :
    SameIn p s (s.deliver now t) where
  task_iff {id u} hu := by
    rw [Scheduler.deliver, Std.ExtTreeMap.getElem?_insert]
    split
    · next heq =>
      obtain rfl := Std.LawfulEqOrd.compare_eq_iff_eq.mp heq
      rw [ht]
      have hne : ∀ {v : Task}, v.lane = t.lane → some v ≠ some u := fun hlane h =>
        hp (hlane ▸ Option.some.inj h ▸ hu)
      exact iff_of_false (hne rfl) (hne rfl)
    · exact Iff.rfl
  inFlight {id u} hu hlane := by
    rw [Scheduler.deliver, Std.ExtTreeMap.getElem?_insert, if_neg]
    intro heq
    obtain rfl := Std.LawfulEqOrd.compare_eq_iff_eq.mp heq
    rw [ht] at hu
    exact hp (Option.some.inj hu ▸ hlane)
  queue _ _ := rfl
  pool _ _ := rfl

/-- The workers of another lane may change. -/
theorem setWorkers (s : Scheduler) {lane : Lane} (workers : List ConnectionId) (hp : ¬ p lane) :
    SameIn p s (s.setWorkers lane workers) where
  task_iff _ := Iff.rfl
  inFlight _ _ := rfl
  queue _ _ := rfl
  pool _ hother := Lanes.line_setLine_of_ne _ _ fun h => hp (h ▸ hother)

/-- The line of another lane may change. -/
theorem setLine (s : Scheduler) {lane : Lane} (ids : List TaskId) (hp : ¬ p lane) :
    SameIn p s { s with queues := s.queues.setLine lane ids } where
  task_iff _ := Iff.rfl
  inFlight _ _ := rfl
  queue _ hother := Lanes.line_setLine_of_ne _ _ fun h => hp (h ▸ hother)
  pool _ _ := rfl

end SameIn

/-! ### Shifts -/

theorem Shift.sameIn (h : Shift now s hand log s' hand')
    (hhand : ∀ id ∈ hand, ∀ t, s.tasks[id]? = some t → ¬ p t.lane)
    (hlog : ∀ g ∈ log, ¬ p g.task.lane) : SameIn p s s' := by
  cases h with
  | @give t dead c rest ht hh =>
    have hp := hhand t.id hh t ht
    obtain ⟨h₁, h₂, h₃, h₄⟩ := (SameIn.deliver now ht hp).trans (.setWorkers _ rest hp)
    exact ⟨h₁, h₂, h₃, h₄⟩
  | @drop t ht hh => exact .setWorkers s [] (hhand t.id hh t ht)
  | @join t xs ht hh => exact .setLine s xs (hhand t.id hh t ht)
  | @take t rest ht =>
    have hp : ¬ p t.lane := hlog _ (List.mem_singleton_self _)
    exact (SameIn.setLine s rest hp).trans (.deliver now ht hp)

/-- Passing on tasks of other lanes leaves these lanes as they are. -/
theorem Shifts.sameIn (h : Shifts now s hand log s' hand')
    (hhand : ∀ id ∈ hand, ∀ t, s.tasks[id]? = some t → ¬ p t.lane)
    (hlog : ∀ g ∈ log, ¬ p g.task.lane) : SameIn p s s' := by
  induction h with
  | refl => exact .refl p s
  | tail hshifts hshift ih =>
    have hbefore := ih fun g hg => hlog g (List.mem_append_left _ hg)
    refine hbefore.trans (hshift.sameIn (fun id hid t ht hp => ?_) fun g hg =>
      hlog g (List.mem_append_right _ hg))
    exact hhand id (hshifts.subset_hand hid) t ((hbefore.task_iff hp).mp ht) hp

/-! ### Entries -/

/-- Whether a task is to end is not a matter of its deliveries. -/
theorem Entry.ends_asAccepted : entry.ends t.asAccepted ↔ entry.ends t := by
  cases entry <;> rfl

/-- A task that stays in the table and is not in the hand stays as it is. -/
theorem Enters.unchanged_of_mem (h : Enters now s entry mid hand) (hs : Sound s ∅)
    (hid : id ∉ hand) (hmid : id ∈ mid.tasks) :
    mid.tasks[id]? = s.tasks[id]? ∧ mid.inFlight[id]? = s.inFlight[id]? := by
  have hremoval : ∀ {gone mid}, Removal s gone mid → id ∈ mid.tasks →
      mid.tasks[id]? = s.tasks[id]? ∧ mid.inFlight[id]? = s.inFlight[id]? := by
    intro gone mid hr hmid
    have hgone := (hr.mem_tasks_iff.mp hmid).1
    rw [hr.tasks, hr.inFlight, if_neg hgone, if_neg hgone]
    exact ⟨rfl, rfl⟩
  cases h with
  | connections _ _ hrecall =>
    have hback := fun h => hid (List.mem_toFinset.mpr h)
    exact ⟨hrecall.task_of_notMem hback, by rw [hrecall.inFlight, if_neg hback]⟩
  | park => exact ⟨rfl, rfl⟩
  | batch =>
    have hnew := fun h => hid (List.mem_toFinset.mpr h)
    exact ⟨enroll_task_of_notMem hnew, by rw [enroll_inFlight]⟩
  | single =>
    rw [getElem?_enrollSingle, if_neg fun h => hid (Finset.mem_singleton.mpr h.symm)]
    exact ⟨rfl, rfl⟩
  | acknowledge hacknowledged =>
    obtain ⟨u, -, -, hr⟩ := removal_acknowledge hs.placed hs.ledger hacknowledged
    exact hremoval hr hmid
  | withdraw hu hkind =>
    have hsame := hremoval (removal_withdraw hs.placed hu hkind) hmid
    exact hsame
  | withdrawNothing => exact ⟨rfl, rfl⟩
  | deleteJob hdeleted =>
    obtain ⟨j, -, hr⟩ := removal_deleteJob hs.placed hs.ledger hdeleted
    exact hremoval hr hmid

/-- A line whose tasks all stay in the table stays as it is. -/
theorem Enters.line_of_mem (h : Enters now s entry mid hand) (hs : Sound s ∅) {lane : Lane}
    (hstay : ∀ id ∈ s.queues.line lane, id ∈ mid.tasks) :
    mid.queues.line lane = s.queues.line lane := by
  have hrenewal := h.renewal hs
  have hsub : s.queues.line lane ⊆ mid.queues.line lane := fun id hid =>
    hrenewal.stays hid (hstay id hid)
  exact (hrenewal.line lane).eq_of_length_le
    (List.subperm_of_subset (hs.placed.once lane) hsub).length_le

/-- An entry that accepts, ends and takes back no task of some lanes, and leaves the workers there
as they are, leaves these lanes as they are. -/
theorem Enters.sameIn (h : Enters now s entry mid hand) (hs : Sound s ∅)
    (haccepted : ∀ t ∈ entry.tasks, ¬ p t.lane)
    (hended : ∀ {id : TaskId} {t : Task}, s.tasks[id]? = some t → entry.ends t → ¬ p t.lane)
    (hback : ∀ {id : TaskId} {t : Task}, s.tasks[id]? = some t → id ∈ hand → ¬ p t.lane)
    (hpool : ∀ lane, p lane → mid.pool.line lane = s.pool.line lane) : SameIn p s mid := by
  have hmid : ∀ {id : TaskId} {t : Task}, s.tasks[id]? = some t → p t.lane → id ∈ mid.tasks := by
    intro id t ht hp
    have hroll := (h.roll_iff hs).mpr (Or.inl ⟨roll?_of_task ht, fun hends => ?_⟩)
    · exact mem_tasks_iff_roll?.mpr ⟨_, hroll⟩
    · exact hended ht (Entry.ends_asAccepted.mp hends) hp
  have hsame : ∀ {id : TaskId} {t : Task}, s.tasks[id]? = some t → p t.lane →
      mid.tasks[id]? = s.tasks[id]? ∧ mid.inFlight[id]? = s.inFlight[id]? := fun ht hp =>
    h.unchanged_of_mem hs (fun hid => hback ht hid hp) (hmid ht hp)
  refine ⟨fun {id t} hp => ⟨fun ht => ?_, fun ht => (hsame ht hp).1.trans ht⟩,
    fun ht hp => (hsame ht hp).2, fun lane hp => h.line_of_mem hs fun id hid => ?_, hpool⟩
  · obtain rfl := (h.sound hs).placed.key ht
    rcases h.ready hs ht with hnew | ⟨u, hu, hid, rfl⟩ | ⟨hu, -⟩
    · exact absurd hp (haccepted t hnew)
    · have hnot := hback hu hid
      exact absurd hp hnot
    · exact hu
  · obtain ⟨-, t, ht, -, rfl⟩ := hs.placed.inLine hid
    exact hmid ht hp

/-! ### Events -/

namespace Event

/-- The workers of a lane stay where they are if nobody polls there or is told to stop. -/
theorem pool_line_of_ne {lane : Lane} (h : ∀ c, e.op ≠ .poll lane c ∧ ¬ e.Releases lane c) :
    e.pool.line lane = e.before.pool.line lane := by
  obtain ⟨s, now, op⟩ := e
  cases op with
  | poll other d =>
    have hne : other ≠ lane := fun heq => (h d).1 (heq ▸ rfl)
    rw [pool]
    split
    · next heq _ =>
      cases heq
      exact Lanes.line_setLine_of_ne _ _ hne
    · next heq => cases heq
    · next heq => cases heq
    · rfl
  | releasePoll other d =>
    have hne : other ≠ lane := fun heq => (h d).2 (Or.inl (heq ▸ rfl))
    exact Lanes.line_setLine_of_ne _ _ hne
  | abandonPoll other d =>
    have hne : other ≠ lane := fun heq => (h d).2 (Or.inr (heq ▸ rfl))
    exact Lanes.line_setLine_of_ne _ _ hne
  | _ => rfl

/-- What an event has in hand of the tasks that were there it has taken back. -/
theorem mem_requeued_of_hand (hs : Sound e.before ∅) (ht : e.before.tasks[id]? = some t)
    (hid : id ∈ e.hand) : id ∈ e.requeued := by
  refine (Finset.mem_union.mp hid).resolve_left fun hnew => ?_
  obtain ⟨u, hu, rfl⟩ := List.mem_map.mp (List.mem_toFinset.mp hnew)
  exact absurd (e.le_of_mem_tasks hs hu) (Nat.not_le.mpr (hs.numbered.below (mem_tasks ht)).2)

namespace Elsewhere

/-- An event that enters nothing in the books and takes nothing back is about no lane in which
nobody polls or is told to stop. -/
theorem of_nothing (hentry : e.entry = .nothing) (hback : e.requeued = ∅)
    (hpolls : ∀ lane c, p lane → e.op ≠ .poll lane c ∧ ¬ e.Releases lane c) : e.Elsewhere p where
  accepted t ht := by
    rw [hentry] at ht
    cases ht
  ended _ hends := by
    rw [hentry] at hends
    cases hends
  back _ hid := by
    rw [hback] at hid
    cases hid
  polls := hpolls

/-- No task of these lanes is given to anybody. -/
theorem handover (h : e.Elsewhere p) (hs : Sound e.before ∅) {g : Handover}
    (hg : g ∈ e.handovers) : ¬ p g.task.lane := by
  obtain ⟨t, receiver⟩ := g
  cases receiver with
  | none =>
    obtain ⟨tasks, houtcome⟩ := e.dispatched_of_mem hg
    obtain ⟨lane, c, hop⟩ := e.poll_of_polled houtcome
    rcases e.polled hs hop with ⟨-, hparked, -⟩ | ⟨-, tasks', hdispatched, hserves⟩
    · rw [houtcome] at hparked
      cases hparked
    · rw [houtcome] at hdispatched
      cases hdispatched
      rw [e.handovers_of_dispatched houtcome] at hg
      have hgives := hserves.each t (by simpa using hg)
      have hlane : t.lane = lane := by rw [Task.lane, hgives.kind, hgives.category]
      exact hlane ▸ fun hp => (h.polls lane c hp).1 hop
  | some c =>
    obtain ⟨mid, he⟩ := e.enters hs
    have hid : t.id ∈ e.hand := he.shifts.mem_hand_of_mem hg rfl
    obtain ⟨u, hready, -, rfl⟩ := (e.gives hs hg).taken
    cases hready with
    | new hnew => exact h.accepted u hnew
    | back hu hback =>
      have hp := h.back hu hback
      exact hp
    | same hu hnot => exact absurd (mem_requeued_of_hand hs hu hid) hnot

end Elsewhere

/-- An event leaves the lanes that it is not about as they are. -/
theorem sameIn (hs : Sound e.before ∅) (h : e.Elsewhere p) : SameIn p e.before e.after := by
  obtain ⟨mid, he⟩ := e.enters hs
  have hback : ∀ {id : TaskId} {t : Task}, e.before.tasks[id]? = some t → id ∈ e.hand →
      ¬ p t.lane :=
    fun ht hid => h.back ht (mem_requeued_of_hand hs ht hid)
  have hmid := he.enters.sameIn hs h.accepted h.ended hback fun lane hp => by
    rw [he.pool, pool_line_of_ne fun c => h.polls lane c hp]
  refine hmid.trans (he.shifts.sameIn (fun id hid t ht hp => ?_) fun g hg => h.handover hs hg)
  rcases he.enters.ready hs ((he.enters.sound hs).placed.key ht ▸ ht) with
    hnew | ⟨u, hu, hid', rfl⟩ | ⟨hu, hnot⟩
  · exact h.accepted t hnew hp
  · exact hback hu hid' hp
  · exact hnot ((he.enters.sound hs).placed.key ht ▸ hid)

end Event

end TaskExchange.Scheduler
