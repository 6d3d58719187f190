import TaskExchange.Proofs.Isolation

/-!
Counting: a task counts how often it was given to a worker.  The count is raised before it is known
whether the worker is there still, and lowered again if it is not.  Main statement:
`deliveryCount_run`.  In every run the count of a task is the number of its handovers since it was
accepted, whatever was tried on connections that had left and however often the task was taken back.
-/

namespace TaskExchange.Scheduler

/-- Tries the workers of a list on a task, as the dispatcher does, but that the task is restored in
another way when a worker turns out to have left. -/
def tryWaitingWith (restore : Task → Task) (now : Moment) (id : TaskId) (lane : Lane) :
    List ConnectionId → Scheduler → Bool × Scheduler
  | [], s => (false, s)
  | c :: rest, s =>
    let s := { s with pool := s.pool.setLine lane rest }
    match s.startDelivery? now id with
    | none => (false, s)
    | some (t, s) =>
      match s.polls.send? c [t] with
      | some polls => (true, { s with polls })
      | none => tryWaitingWith restore now id lane rest { s with
          tasks := s.tasks.modify id restore
          inFlight := s.inFlight.erase id }

/-- The deliveries of tasks are counted, in a run with these events and this last state. -/
structure DeliveryCount (trace : List Event) (last : Scheduler) : Prop where
  /-- A worker that polls and need not wait is told what is handed over. -/
  polled : ∀ e ∈ trace, ∀ tasks, e.outcome = .polled (.dispatched tasks) →
    e.handovers = tasks.map (⟨·, none⟩)
  atOnce : ∀ e ∈ trace, ∀ t, ⟨t, none⟩ ∈ e.handovers →
    ∃ tasks, e.outcome = .polled (.dispatched tasks)
  /-- A worker that waits finds what is handed over to it, and nothing else. -/
  received : ∀ e ∈ trace, ∀ c tasks,
    (e.after.polls.held? c = some tasks ∧ e.before.polls.held? c ≠ some tasks) ↔
      ∃ t, tasks = [t] ∧ ⟨t, some c⟩ ∈ e.handovers
  /-- An event hands a task over once, if it does. -/
  once : ∀ e ∈ trace, ∀ id, (handedOver e.handovers).count id ≤ 1
  accepted : ∀ (id : TaskId) (t : Task), last.tasks[id]? = some t →
    ∃ e ∈ trace, t.asAccepted ∈ e.entry.tasks
  /-- A task counts its handovers since it was accepted, and there were none before. -/
  counted : ∀ past e future, trace = past ++ e :: future → ∀ u ∈ e.entry.tasks,
    u.id ∉ handedOver (handoversOf past) ∧ ∀ t, last.tasks[u.id]? = some t →
      t.deliveries = (handedOver (handoversOf (e :: future))).count u.id
  /-- A copy that a worker is given tells how many handovers there were with this one. -/
  copy : ∀ past e future, trace = past ++ e :: future → ∀ g ∈ e.handovers,
    e.after.tasks[g.task.id]? = some g.task ∧
      g.task.deliveries = (handedOver (handoversOf past)).count g.task.id + 1
  /-- An event raises the count of what it hands over by one, and leaves all others as they are,
  however many workers it finds gone and whatever it takes back. -/
  step : ∀ e ∈ trace, ∀ id t u, e.before.tasks[id]? = some t → e.after.tasks[id]? = some u →
    u.deliveries = t.deliveries + (handedOver e.handovers).count id
  /-- It is never a count of zero that is lowered: what lowering would make of it is of no
  consequence. -/
  restored : ∀ restore : Task → Task, (∀ t, 0 < t.deliveries → restore t = t.undoDispatch) →
    tryWaitingWith restore = tryWaiting

variable {now : Moment} {s s' mid : Scheduler} {hand hand' : Finset TaskId} {log : List Handover}
  {past : List Event} {e : Event} {id : TaskId} {t t' : Task}

/-! ### Counts that are lowered -/

theorem tryWaitingWith_eq {restore : Task → Task}
    (h : ∀ t, 0 < t.deliveries → restore t = t.undoDispatch) (now : Moment) (id : TaskId)
    (lane : Lane) : ∀ (line : List ConnectionId) (s : Scheduler),
      tryWaitingWith restore now id lane line s = tryWaiting now id lane line s
  | [], s => rfl
  | c :: rest, s => by
    rw [tryWaitingWith, tryWaiting]
    cases ht : s.tasks[id]? with
    | none => simp only [startDelivery?, ht, Option.map_none]
    | some t =>
      -- The task has just been dispatched when it is restored, so its count is not zero.
      have hrestore : (s.tasks.insert id t.dispatch).modify id restore =
          (s.tasks.insert id t.dispatch).modify id Task.undoDispatch := by
        ext x u
        simp [Std.ExtTreeMap.getElem?_modify, h t.dispatch (Nat.succ_pos _)]
      cases hsend : s.polls.send? c [t.dispatch] <;>
        simp only [startDelivery?, ht, Option.map_some, undoDelivery, hrestore, hsend,
          tryWaitingWith_eq h now id lane rest]

/-! ### What raises a count -/

/-- A task counts the handovers of a shift. -/
theorem Shift.deliveries (h : Shift now s hand log s' hand') (ht : s.tasks[id]? = some t)
    (ht' : s'.tasks[id]? = some t') :
    t'.deliveries = t.deliveries + (handedOver log).count id := by
  have hgiven : ∀ {u : Task} (receiver : Option ConnectionId), s.tasks[u.id]? = some u →
      (s.tasks.insert u.id u.dispatch)[id]? = some t' →
      t'.deliveries = t.deliveries + (handedOver [⟨u.dispatch, receiver⟩]).count id := by
    intro u receiver hu hinsert
    rw [Std.ExtTreeMap.getElem?_insert] at hinsert
    by_cases hid : u.id = id
    · obtain rfl : u = t := by simpa [hid, ht] using hu.symm
      obtain rfl : u.dispatch = t' := by simpa [hid] using hinsert
      simp [handedOver, Task.dispatch, hid]
    · obtain rfl : t = t' := by simpa [hid, ht] using hinsert
      simp [handedOver, Task.dispatch, hid]
  cases h with
  | give hu => exact hgiven _ hu ht'
  | take hu => exact hgiven _ hu ht'
  | drop =>
    rw [show t = t' from Option.some.inj (ht.symm.trans ht')]
    rfl
  | join =>
    rw [show t = t' from Option.some.inj (ht.symm.trans ht')]
    rfl

theorem Shifts.deliveries (h : Shifts now s hand log s' hand') (ht : s.tasks[id]? = some t)
    (ht' : s'.tasks[id]? = some t') :
    t'.deliveries = t.deliveries + (handedOver log).count id := by
  induction h generalizing t' with
  | refl =>
    rw [ht] at ht'
    cases ht'
    rfl
  | tail hshifts hshift ih =>
    obtain ⟨u, hu, -⟩ := hshifts.books.task ht
    rw [hshift.deliveries hu ht', ih hu, handedOver_append, List.count_append, Nat.add_assoc]

/-- A task counts the handovers of an event. -/
theorem Event.deliveries (e : Event) (hs : Sound e.before ∅) (ht : e.before.tasks[id]? = some t)
    (ht' : e.after.tasks[id]? = some t') :
    t'.deliveries = t.deliveries + (handedOver e.handovers).count id := by
  obtain ⟨mid, he⟩ := e.enters hs
  obtain ⟨u, hu, -⟩ := he.shifts.books.symm.task ht'
  have hentry : u.deliveries = t.deliveries := by
    rcases (he.enters.renewal hs).task hu with ⟨v, hv, -, hdeliveries⟩ | ⟨hnew, -⟩
    · rw [ht] at hv
      cases hv
      exact hdeliveries.symm
    · exact absurd hnew (Nat.not_le.mpr (hs.numbered.below (mem_tasks ht)).2)
  rw [he.shifts.deliveries hu ht', hentry]

/-! ### Every run -/

/-- Each task that is there counts its handovers in some events. -/
def Tallied (past : List Event) (s : Scheduler) : Prop :=
  ∀ {id : TaskId} {t : Task}, s.tasks[id]? = some t →
    t.deliveries = (handedOver (handoversOf past)).count id

theorem Tallied.after (hc : Tallied past e.before) (ho : Orderly past e.before) :
    Tallied (past ++ [e]) e.after := by
  intro id t' ht'
  obtain ⟨mid, he⟩ := e.enters ho.sound
  obtain ⟨t, ht, -⟩ := he.shifts.books.symm.task ht'
  have hentry : t.deliveries = (handedOver (handoversOf past)).count id := by
    rcases (he.enters.renewal ho.sound).task ht with ⟨u, hu, -, hdeliveries⟩ | ⟨hnew, hzero⟩
    · rw [← hdeliveries, hc hu]
    · -- Nobody was ever given a task of this number.
      rw [hzero, eq_comm, List.count_eq_zero]
      exact fun hid => Nat.not_le.mpr (ho.logged.below hid) hnew
  rw [he.shifts.deliveries ht ht', hentry, handoversOf_concat, handedOver_append,
    List.count_append]

theorem tallied_run (limits : Limits) (steps : List (Moment × Operation)) :
    Tallied ((new limits).trace steps) ((new limits).run steps) := by
  refine (trace_induction (P := fun past s => Orderly past s ∧ Tallied past s) ?_ ?_).2
  · refine ⟨orderly_run limits [], fun ht => ?_⟩
    simp [Scheduler.new] at ht
  · rintro past e ⟨ho, hc⟩
    exact ⟨ho.after, hc.after ho⟩

/-- In every run the tasks count their handovers. -/
theorem deliveryCount_run (limits : Limits) (steps : List (Moment × Operation)) :
    DeliveryCount ((new limits).trace steps) ((new limits).run steps) where
  polled e _ _ h := e.handovers_of_dispatched h
  atOnce e _ _ h := e.dispatched_of_mem h
  received e he c tasks := e.received (sound_of_mem_trace he)
  once e he _ := List.nodup_iff_count_le_one.mp (e.nodup_handedOver (sound_of_mem_trace he)) _
  accepted _ _ ht := List.mem_flatMap.mp (mem_accepted_run limits steps (roll?_of_task ht))
  counted := by
    intro past e future hsplit u hu
    have ho := orderly_before hsplit
    have hnot : u.id ∉ handedOver (handoversOf past) := fun hid =>
      Nat.not_le.mpr (ho.logged.below hid) (e.le_of_mem_tasks ho.sound hu)
    refine ⟨hnot, fun t ht => ?_⟩
    rw [tallied_run limits steps ht, hsplit, handoversOf_append, handedOver_append,
      List.count_append, List.count_eq_zero.mpr hnot, Nat.zero_add]
  copy := by
    intro past e future hsplit g hg
    have ho := orderly_before hsplit
    have hentry := (e.gives ho.sound hg).entry
    obtain ⟨xs, -, rfl, hbefore, -⟩ := trace_split hsplit
    have hcount : Tallied ((new limits).trace xs) e.before := hbefore ▸ tallied_run limits xs
    have hone : (handedOver e.handovers).count g.task.id = 1 :=
      List.count_eq_one_of_mem (e.nodup_handedOver ho.sound) (mem_handedOver.mpr ⟨g, hg, rfl⟩)
    refine ⟨hentry, ?_⟩
    rw [hcount.after ho hentry, handoversOf_concat, handedOver_append, List.count_append, hone]
  step e he _ _ _ ht ht' := e.deliveries (sound_of_mem_trace he) ht ht'
  restored restore h := by
    funext now id lane line s
    exact tryWaitingWith_eq h now id lane line s

/-- A worker that has left, a handover and a loss leave a task with one delivery. -/
example :
    let s := (new .standard).run ([.openPoll, .openPoll, .poll ⟨.regional, ⟨"graph", "1"⟩⟩ ⟨0⟩,
      .poll ⟨.regional, ⟨"graph", "1"⟩⟩ ⟨1⟩, .leavePoll ⟨0⟩,
      .enqueueBatch [⟨some ⟨"job"⟩, ⟨"graph", "1"⟩, default⟩],
      .reportLost ⟨1⟩].map fun op => (default, op))
    s.tasks[(⟨1⟩ : TaskId)]?.map (fun t => (t.state, t.deliveries)) = some (.queued, 1) := by
  decide +kernel

end TaskExchange.Scheduler
