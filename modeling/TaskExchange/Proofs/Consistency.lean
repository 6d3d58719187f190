import TaskExchange.Proofs.Entry

/-!
Consistency: what anybody may rely on in every state that a scheduler reaches.  Main statements:
`consistent_run`, that the table, the lines, the deliveries and the producers agree at any time, and
`noIdleWorker_run`, that no worker waits in a lane where a task does.
-/

namespace TaskExchange.Scheduler

/-- The table, the lines, the deliveries and the producers agree, and no empty line is kept. -/
structure Consistent (s : Scheduler) : Prop where
  key : ∀ {id : TaskId} {t : Task}, s.tasks[id]? = some t → t.id = id
  /-- A task is queued if and only if it stands in the line of its own lane. -/
  queued_iff : ∀ {id : TaskId} {t : Task}, s.tasks[id]? = some t →
    (t.state = .queued ↔ id ∈ s.queues.line t.lane)
  /-- A queued task stands there once, in no other line, and is not in flight. -/
  queued_once : ∀ {id : TaskId} {t : Task}, s.tasks[id]? = some t → t.state = .queued →
    (s.queues.line t.lane).count id = 1 ∧ (∀ lane ≠ t.lane, id ∉ s.queues.line lane) ∧
      id ∉ s.inFlight
  inFlight_iff : ∀ {id : TaskId} {t : Task}, s.tasks[id]? = some t →
    (t.state = .inFlight ↔ id ∈ s.inFlight)
  /-- A task in flight stands in no line. -/
  inFlight_nowhere : ∀ {id : TaskId} {t : Task}, s.tasks[id]? = some t → t.state = .inFlight →
    ∀ lane, id ∉ s.queues.line lane
  line_mem : ∀ {lane : Lane} {id : TaskId}, id ∈ s.queues.line lane → id ∈ s.tasks
  inFlight_mem : ∀ {id : TaskId}, id ∈ s.inFlight → id ∈ s.tasks
  producers_iff : ∀ id, id ∈ s.producers ↔ ∃ t, s.tasks[id]? = some t ∧ t.kind = .priority
  unleased : ∀ {id : TaskId} {t : Task} {lease : Option Instant}, s.tasks[id]? = some t →
    t.kind = .priority → s.inFlight[id]? = some lease → lease = none
  queues_nonempty : ∀ lane : Lane, s.queues.lines[lane]? ≠ some []
  pool_nonempty : ∀ lane : Lane, s.pool.lines[lane]? ≠ some []

variable {now : Moment} {s s' mid : Scheduler} {hand hand' : Finset TaskId} {log : List Handover}
  {entry : Entry}

/-- A scheduler that has nothing in hand is consistent when it is sound. -/
theorem Sound.consistent (hs : Sound s ∅) : Consistent s := by
  have hline : ∀ {id : TaskId} {t : Task} {lane : Lane}, s.tasks[id]? = some t →
      id ∈ s.queues.line lane → t.state = .queued ∧ t.lane = lane := by
    intro id t lane ht hin
    obtain ⟨-, u, hu, hstate, hlane⟩ := hs.placed.inLine hin
    rw [ht] at hu
    cases hu
    exact ⟨hstate, hlane⟩
  have hflight : ∀ {id : TaskId} {t : Task}, s.tasks[id]? = some t →
      (t.state = .inFlight ↔ id ∈ s.inFlight) := by
    intro id t ht
    rw [hs.placed.inFlight, ht]
    simp
  refine ⟨hs.placed.key, ?_, ?_, hflight, ?_, ?_, hs.mem_tasks_of_inFlight, hs.awaited,
    hs.unleased, ?_, ?_⟩
  · intro id t ht
    exact ⟨fun hq => hs.placed.queued ht hq (Finset.notMem_empty id), fun hin => (hline ht hin).1⟩
  · intro id t ht hq
    have hin : id ∈ s.queues.line t.lane := hs.placed.queued ht hq (Finset.notMem_empty id)
    refine ⟨List.count_eq_one_of_mem (hs.placed.once t.lane) hin, ?_, ?_⟩
    · intro lane hne hother
      exact hne (hline ht hother).2.symm
    · intro hf
      rw [← hflight ht, hq] at hf
      cases hf
  · intro id t ht hf lane hin
    have hq := (hline ht hin).1
    rw [hf] at hq
    cases hq
  · intro lane id hin
    obtain ⟨-, t, ht, -⟩ := hs.placed.inLine hin
    exact mem_tasks ht
  · intro lane h
    exact s.queues.nonempty h rfl
  · intro lane h
    exact s.pool.nonempty h rfl

/-- Every state that is reached is consistent. -/
theorem consistent_run (limits : Limits) (steps : List (Moment × Operation)) :
    Consistent ((new limits).run steps) :=
  (sound_run limits steps).consistent

/-! ### Workers and work -/

/-- No worker waits in a lane where a task does. -/
def NoIdleWorker (s : Scheduler) : Prop :=
  ∀ lane, s.queues.line lane = [] ∨ s.pool.line lane = []

/-- Lines that only get shorter keep it so. -/
theorem NoIdleWorker.mono (hs : NoIdleWorker s)
    (hqueues : ∀ lane, (s'.queues.line lane).Sublist (s.queues.line lane))
    (hpool : ∀ lane, (s'.pool.line lane).Sublist (s.pool.line lane)) : NoIdleWorker s' := by
  intro lane
  rcases hs lane with h | h
  · exact Or.inl (List.sublist_nil.mp (h ▸ hqueues lane))
  · exact Or.inr (List.sublist_nil.mp (h ▸ hpool lane))

theorem Shift.noIdleWorker (h : Shift now s hand log s' hand') (hs : NoIdleWorker s) :
    NoIdleWorker s' := by
  have hpool : ∀ lane, (s'.pool.line lane).Sublist (s.pool.line lane) := fun lane =>
    (h.suffix_pool lane).sublist
  cases h with
  | give => exact hs.mono (fun _ => .refl _) hpool
  | drop => exact hs.mono (fun _ => .refl _) hpool
  | @join t xs _ _ hempty =>
    -- The line grows, but the dispatcher has made sure that nobody waits for it.
    intro lane
    rw [Lanes.line_setLine]
    split
    · next hlane => exact Or.inr (hlane ▸ hempty)
    · exact hs lane
  | @take t rest _ hline =>
    refine hs.mono (fun lane => ?_) hpool
    simp only [deliver, Lanes.line_setLine]
    split
    · next hlane =>
      rw [← hlane, hline]
      exact List.sublist_cons_self ..
    · exact .refl _

theorem Shifts.noIdleWorker (h : Shifts now s hand log s' hand') (hs : NoIdleWorker s) :
    NoIdleWorker s' := by
  induction h with
  | refl => exact hs
  | tail _ hshift ih => exact hshift.noIdleWorker ih

theorem Removal.noIdleWorker {gone : List TaskId} (h : Removal s gone s') (hs : NoIdleWorker s) :
    NoIdleWorker s' := by
  refine hs.mono (fun lane => ?_) fun lane => ?_
  · rw [h.line]
    exact List.filter_sublist
  · rw [h.pool]

theorem Enters.noIdleWorker (h : Enters now s entry mid hand) (hsound : Sound s ∅)
    (hs : NoIdleWorker s) : NoIdleWorker mid := by
  cases h with
  | connections hpool _ hrecall =>
    exact hs.mono (fun lane => by rw [hrecall.queues]) fun lane => hrecall.pool ▸ hpool lane
  | @park lane c hline =>
    intro other
    simp only [Lanes.pushBack, Lanes.line_append]
    split
    · next h => exact Or.inl (h ▸ hline)
    · exact hs other
  | batch => simpa only [NoIdleWorker, enroll_queues, enroll_pool] using hs
  | single => exact hs
  | acknowledge hmid =>
    obtain ⟨t, -, -, hr⟩ := removal_acknowledge hsound.placed hsound.ledger hmid
    exact hr.noIdleWorker hs
  | withdraw ht hkind => exact (removal_withdraw hsound.placed ht hkind).noIdleWorker hs
  | withdrawNothing => exact hs
  | deleteJob hmid =>
    obtain ⟨j, -, hr⟩ := removal_deleteJob hsound.placed hsound.ledger hmid
    exact hr.noIdleWorker hs

theorem Event.noIdleWorker_after (e : Event) (hsound : Sound e.before ∅)
    (hs : NoIdleWorker e.before) : NoIdleWorker e.after := by
  obtain ⟨mid, he⟩ := e.enters hsound
  exact he.shifts.noIdleWorker (he.enters.noIdleWorker hsound hs)

/-- No worker is idle beside waiting work in any state that is reached. -/
theorem noIdleWorker_run (limits : Limits) (steps : List (Moment × Operation)) :
    NoIdleWorker ((new limits).run steps) := by
  have h : Sound ((new limits).run steps) ∅ ∧ NoIdleWorker ((new limits).run steps) := by
    refine run_induction (P := fun s => Sound s ∅ ∧ NoIdleWorker s) ?_ ?_
    · exact ⟨.new limits, fun lane => Or.inl (Lanes.line_empty lane)⟩
    · rintro s now op ⟨hsound, hs⟩
      let e : Event := ⟨s, now, op⟩
      exact ⟨e.sound_after hsound, e.noIdleWorker_after hsound hs⟩
  exact h.2

end TaskExchange.Scheduler
