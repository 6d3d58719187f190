import TaskExchange.Proofs.Precedence

/-!
Isolation: what the lists of tasks are that workers are given.  Main statement: `isolated_run`.  In
every run a worker is given tasks of the lane that it polled and of no other, each of which waited
until then and is in flight afterwards as the worker's copy tells.  A worker that polls is given the
head of its lane's line, and waits if there is none; a worker that waits is given one task.
-/

namespace TaskExchange.Scheduler

/-- A task as it stands when an event begins to pass tasks on. -/
inductive Event.Ready (e : Event) : Task → Prop where
  /-- It has just been accepted. -/
  | new {t : Task} : t ∈ e.entry.tasks → Ready e t
  /-- It was taken back from a worker and waits again. -/
  | back {t : Task} : e.before.tasks[t.id]? = some t → t.id ∈ e.requeued → Ready e t.requeue
  /-- It was there, and nothing has happened to it. -/
  | same {t : Task} : e.before.tasks[t.id]? = some t → t.id ∉ e.requeued → Ready e t

/-- An event gives this copy of a task to a worker of a lane. -/
structure Event.Gives (e : Event) (lane : Lane) (t : Task) : Prop where
  kind : t.kind = lane.kind
  category : t.category = lane.category
  /-- The task waited when it was taken, and the copy was made of it. -/
  taken : ∃ u, e.Ready u ∧ u.state = .queued ∧ t = u.dispatch
  /-- Just after, the task is in flight, and the table has it as the copy tells. -/
  state : t.state = .inFlight
  inFlight : t.id ∈ e.after.inFlight
  entry : e.after.tasks[t.id]? = some t

/-- An event gives these tasks to a worker that polls in a lane where tasks wait. -/
structure Event.Serves (e : Event) (lane : Lane) (tasks : List Task) : Prop where
  /-- They are the first in line, in their order, as many as a poll may have. -/
  head : tasks.map (·.id) = (e.before.queues.line lane).take (e.before.batchLimit lane.kind)
  rest : e.after.queues.line lane = (e.before.queues.line lane).drop (e.before.batchLimit lane.kind)
  others : ∀ other ≠ lane, e.after.queues.line other = e.before.queues.line other
  distinct : (tasks.map (·.id)).Nodup
  each : ∀ t ∈ tasks, e.Gives lane t

/-- Workers are given tasks of their own lanes, in a run with these events. -/
structure Isolated (limits : Limits) (trace : List Event) : Prop where
  batch : ∀ e ∈ trace, e.before.batchLimit .regional = max 1 limits.maxBatch ∧
    e.before.batchLimit .priority = 1
  /-- A worker that polls waits if and only if no task does, and then no line of tasks changes. -/
  polled : ∀ e ∈ trace, ∀ lane c, e.op = .poll lane c →
    (e.before.queues.line lane = [] ∧ e.outcome = .polled .parked ∧
        e.after.queues = e.before.queues) ∨
      (e.before.queues.line lane ≠ [] ∧
        ∃ tasks, e.outcome = .polled (.dispatched tasks) ∧ e.Serves lane tasks)
  /-- A worker that waits finds one task of the lane that it polled. -/
  resumed : ∀ past e future, trace = past ++ e :: future → ∀ c tasks,
    e.after.polls.held? c = some tasks → e.before.polls.held? c ≠ some tasks →
      ∃ lane t, tasks = [t] ∧ c ∈ e.before.pool.line lane ∧
        (∃ d ∈ past, d.op = .poll lane c ∧ d.outcome = .polled .parked) ∧ e.Gives lane t
  /-- No event gives a task to two workers. -/
  distinct : ∀ e ∈ trace, (handedOver e.handovers).Nodup

variable {now : Moment} {s mid : Scheduler} {hand : Finset TaskId} {entry : Entry} {e : Event}
  {t : Task} {c : ConnectionId} {lane : Lane}

/-! ### What is ready to be passed on -/

/-- After an entry a task is new, or it was taken back and waits, or it is as it was. -/
theorem Enters.ready (h : Enters now s entry mid hand) (hs : Sound s ∅)
    (ht : mid.tasks[t.id]? = some t) :
    t ∈ entry.tasks ∨ (∃ u, s.tasks[t.id]? = some u ∧ t.id ∈ hand ∧ t = u.requeue) ∨
      (s.tasks[t.id]? = some t ∧ t.id ∉ hand) := by
  have hsame : ∀ {gone mid}, Removal s gone mid → mid.tasks[t.id]? = some t →
      s.tasks[t.id]? = some t ∧ t.id ∉ (∅ : Finset TaskId) := fun hr ht =>
    ⟨(hr.task_iff.mp ht).2, Finset.notMem_empty _⟩
  cases h with
  | @connections pool polls requesters back _ _ _ hrecall =>
    by_cases hback : t.id ∈ back
    · rw [hrecall.task_of_mem hback, Option.map_eq_some_iff] at ht
      obtain ⟨u, hu, hrequeue⟩ := ht
      exact Or.inr (Or.inl ⟨u, hu, List.mem_toFinset.mpr hback, hrequeue.symm⟩)
    · exact Or.inr (Or.inr ⟨hrecall.task_of_notMem hback ▸ ht, by simpa using hback⟩)
  | park => exact Or.inr (Or.inr ⟨ht, Finset.notMem_empty _⟩)
  | @batch requests job category =>
    rw [getElem?_enroll] at ht
    cases hnew : (requestUnder s.nextId.value requests t.id).map
        (Task.ofRequest t.id .regional now.civil) with
    | some u =>
      rw [hnew, Option.some_or] at ht
      obtain rfl := Option.some.inj ht
      exact Or.inl (mem_batchTasks.mpr hnew).1
    | none =>
      rw [hnew, Option.none_or] at ht
      rw [Option.map_eq_none_iff, requestUnder_eq_none_iff] at hnew
      exact Or.inr (Or.inr ⟨ht, by simpa using hnew⟩)
  | single =>
    rw [getElem?_enrollSingle] at ht
    split at ht
    · obtain rfl := Option.some.inj ht
      exact Or.inl (List.mem_singleton_self _)
    · next hid => exact Or.inr (Or.inr ⟨ht, by simpa using Ne.symm hid⟩)
  | acknowledge hmid =>
    obtain ⟨u, -, -, hr⟩ := removal_acknowledge hs.placed hs.ledger hmid
    exact Or.inr (Or.inr (hsame hr ht))
  | withdraw hu hkind => exact Or.inr (Or.inr (hsame (removal_withdraw hs.placed hu hkind) ht))
  | withdrawNothing => exact Or.inr (Or.inr ⟨ht, Finset.notMem_empty _⟩)
  | deleteJob hmid =>
    obtain ⟨j, -, hr⟩ := removal_deleteJob hs.placed hs.ledger hmid
    exact Or.inr (Or.inr (hsame hr ht))

theorem Event.Explained.ready (he : e.Explained mid) (hs : Sound e.before ∅)
    (ht : mid.tasks[t.id]? = some t) : e.Ready t := by
  rcases he.enters.ready hs ht with hnew | ⟨u, hu, hin, rfl⟩ | ⟨hu, hnot⟩
  · exact .new hnew
  · refine .back hu ?_
    rcases Finset.mem_union.mp hin with hnew | hback
    · obtain ⟨v, hv, hid⟩ := List.mem_map.mp (List.mem_toFinset.mp hnew)
      have hle := e.le_of_mem_tasks hs hv
      have hlt := (hs.numbered.below (mem_tasks hu)).2
      exact absurd (hid ▸ hle) (Nat.not_le.mpr hlt)
    · exact hback
  · exact .same hu fun hback => hnot (Finset.mem_union_right _ hback)

/-- What an event hands over it gives to a worker of the task's lane. -/
theorem Event.gives (e : Event) (hs : Sound e.before ∅) {g : Handover} (hg : g ∈ e.handovers) :
    e.Gives g.task.lane g.task := by
  obtain ⟨mid, he⟩ := e.enters hs
  obtain ⟨hentry, u, hu, hq, hcopy⟩ :=
    he.shifts.copy_of_mem (he.enters.sound hs).placed hg
  have hid : g.task.id = u.id := by rw [hcopy]; rfl
  refine ⟨rfl, rfl, ⟨u, he.ready hs (hid ▸ hu), hq, hcopy⟩, by rw [hcopy]; rfl, ?_, hentry⟩
  exact he.shifts.inFlight_iff.mpr (Or.inr ⟨g, hg, rfl⟩)

theorem Event.nodup_handedOver (e : Event) (hs : Sound e.before ∅) :
    (handedOver e.handovers).Nodup := by
  obtain ⟨mid, he⟩ := e.enters hs
  exact he.shifts.nodup_log (he.enters.sound hs).placed

/-! ### Polls -/

/-- A worker that polls in a lane where tasks wait is given the head of the line. -/
theorem Event.polled (e : Event) (hs : Sound e.before ∅) (hop : e.op = .poll lane c) :
    (e.before.queues.line lane = [] ∧ e.outcome = .polled .parked ∧
        e.after.queues = e.before.queues) ∨
      (e.before.queues.line lane ≠ [] ∧
        ∃ tasks, e.outcome = .polled (.dispatched tasks) ∧ e.Serves lane tasks) := by
  obtain ⟨s, now, op⟩ := e
  obtain rfl : op = .poll lane c := hop
  rcases shifts_poll now hs.placed lane c with
    ⟨hline, hpoll⟩ | ⟨tasks, s', hline, hpoll, hshifts, hids, hqueues⟩
  · exact Or.inl ⟨hline, by simp only [outcome, step, hpoll], by simp only [after, step, hpoll]⟩
  · have houtcome : Event.outcome ⟨s, now, .poll lane c⟩ = .polled (.dispatched tasks) := by
      simp only [outcome, step, hpoll]
    have hafter : Event.after ⟨s, now, .poll lane c⟩ = s' := by simp only [after, step, hpoll]
    have hlog := handovers_of_dispatched _ houtcome
    have hdistinct : (tasks.map (·.id)).Nodup := by
      rw [hids]
      exact (hs.placed.once lane).sublist (List.take_sublist ..)
    refine Or.inr ⟨hline, tasks, houtcome, hids, ?_, ?_, hdistinct, fun t ht => ?_⟩
    · rw [hafter, hqueues, Lanes.line_setLine_self]
    · intro other hne
      rw [hafter, hqueues, Lanes.line_setLine_of_ne _ _ (Ne.symm hne)]
    · have hgives := Event.gives ⟨s, now, .poll lane c⟩ hs (g := ⟨t, none⟩) (by simp [hlog, ht])
      -- The copy is of the lane in whose line the task stood.
      have hin : t.id ∈ s.queues.line lane :=
        List.mem_of_mem_take (hids ▸ List.mem_map_of_mem ht)
      obtain ⟨u, hu, hsame⟩ := hshifts.books.symm.task (hafter ▸ hgives.entry)
      have hlane : t.lane = lane :=
        (Task.lane_eq_of_asAccepted hsame).symm.trans (hs.placed.eq_lane hin hu)
      exact hlane ▸ hgives

/-! ### Workers that wait -/

/-- A worker that stands in line when tasks are passed on stood there before, or it waits now after
its poll. -/
theorem Event.mem_pool (e : Event) (h : c ∈ e.pool.line lane) :
    c ∈ e.before.pool.line lane ∨ (e.op = .poll lane c ∧ e.outcome = .polled .parked) := by
  obtain ⟨s, now, op⟩ := e
  have hkeep : ∀ other d, c ∈ (s.pool.keep other (· ≠ d)).line lane → c ∈ s.pool.line lane :=
    fun other d hin => (s.pool.line_keep_sublist other lane _).subset hin
  cases op with
  | poll other d =>
    rw [pool] at h
    split at h
    · next heq houtcome =>
      cases heq
      rw [Lanes.pushBack, Lanes.line_append] at h
      split at h
      · next hlane =>
        subst hlane
        rcases List.mem_append.mp h with hin | hin
        · exact Or.inl hin
        · obtain rfl := List.mem_singleton.mp hin
          exact Or.inr ⟨rfl, houtcome⟩
      · exact Or.inl h
    · next heq => cases heq
    · next heq => cases heq
    · exact Or.inl h
  | releasePoll other d => exact Or.inl (hkeep other d h)
  | abandonPoll other d => exact Or.inl (hkeep other d h)
  | _ => exact Or.inl h

theorem parked_run (limits : Limits) (steps : List (Moment × Operation))
    (h : c ∈ ((new limits).run steps).pool.line lane) :
    ∃ d ∈ (new limits).trace steps, d.op = .poll lane c ∧ d.outcome = .polled .parked := by
  refine (Sound.new limits).trace_induction (P := fun past s => c ∈ s.pool.line lane →
    ∃ d ∈ past, d.op = .poll lane c ∧ d.outcome = .polled .parked) ?_ ?_ h
  · intro h
    cases h
  · intro past e _ hs hpast h
    obtain ⟨mid, he⟩ := e.enters hs
    rcases e.mem_pool (he.pool ▸ (he.shifts.suffix_pool lane).subset h) with hbefore | hparked
    · obtain ⟨d, hd, hparked⟩ := hpast hbefore
      exact ⟨d, List.mem_append_left _ hd, hparked⟩
    · exact ⟨e, by simp, hparked⟩

/-- A worker that waited and was given a task stood in the task's lane, and had not left. -/
theorem Event.waited (e : Event) (hs : Sound e.before ∅) (h : ⟨t, some c⟩ ∈ e.handovers) :
    c ∈ e.before.pool.line t.lane ∧ e.before.polls.isOpen c = true := by
  obtain ⟨mid, he⟩ := e.enters hs
  rcases he.shifts.handed c with ⟨hlog, -⟩ | ⟨u, dead, rest, hlog, hopen, -, hline, -⟩
  · rw [← mem_handedTo, hlog] at h
    cases h
  · obtain rfl : t = u := by rwa [← mem_handedTo, hlog, List.mem_singleton] at h
    refine ⟨?_, e.isOpen_before (List.ne_nil_of_mem h) (he.polls ▸ hopen)⟩
    rcases e.mem_pool (he.pool ▸ hline.subset List.mem_append_cons_self) with hin | ⟨hop, hparked⟩
    · exact hin
    · -- A poll that waits hands nothing over.
      simp [handovers, hop, hparked] at h

theorem Enters.limits (h : Enters now s entry mid hand) (hs : Sound s ∅) :
    mid.limits = s.limits := by
  cases h with
  | connections _ _ hrecall => exact hrecall.books.limits
  | park => rfl
  | batch => exact enroll_limits
  | single => rfl
  | acknowledge hmid =>
    obtain ⟨u, -, -, hr⟩ := removal_acknowledge hs.placed hs.ledger hmid
    exact hr.limits
  | withdraw hu hkind =>
    have hr := removal_withdraw hs.placed hu hkind
    exact hr.limits
  | withdrawNothing => rfl
  | deleteJob hmid =>
    obtain ⟨j, -, hr⟩ := removal_deleteJob hs.placed hs.ledger hmid
    exact hr.limits

/-- What bounds the work never changes. -/
theorem limits_run (limits : Limits) (steps : List (Moment × Operation)) :
    ((new limits).run steps).limits = limits := by
  refine (Sound.new limits).trace_induction (P := fun _ s => s.limits = limits) rfl ?_
  intro past e _ hs hbefore
  obtain ⟨mid, he⟩ := e.enters hs
  rw [he.shifts.books.limits, he.enters.limits hs, hbefore]

theorem limits_of_mem_trace {limits : Limits} {steps : List (Moment × Operation)}
    (he : e ∈ (new limits).trace steps) : e.before.limits = limits := by
  obtain ⟨xs, hbefore⟩ := exists_run_of_mem he
  exact hbefore ▸ limits_run limits xs

/-! ### Every run -/

/-- In every run workers are given tasks of their own lanes that waited until then. -/
theorem isolated_run (limits : Limits) (steps : List (Moment × Operation)) :
    Isolated limits ((new limits).trace steps) := by
  have hsound : ∀ e ∈ (new limits).trace steps, Sound e.before ∅ := fun _ he =>
    sound_of_mem_trace he
  refine ⟨fun e he => ?_, fun e he lane c hop => e.polled (hsound e he) hop, ?_,
    fun e he => e.nodup_handedOver (hsound e he)⟩
  · obtain ⟨xs, hbefore⟩ := exists_run_of_mem he
    have hlimits : e.before.limits = limits := hbefore ▸ limits_run limits xs
    exact ⟨by rw [batchLimit, hlimits], rfl⟩
  · intro past e future hsplit c tasks hafter hbefore
    have hs := hsound e (hsplit ▸ List.mem_append_cons_self)
    obtain ⟨t, rfl, ht⟩ := (e.received hs).mp ⟨hafter, hbefore⟩
    obtain ⟨hin, -⟩ := e.waited hs ht
    obtain ⟨xs, -, rfl, hrun, -⟩ := trace_split hsplit
    exact ⟨t.lane, t, rfl, hin, parked_run limits xs (hrun ▸ hin), e.gives hs ht⟩

/-- A worker waits beside a task whose category is only shown like its own. -/
example :
    let s := (new .standard).run ([.enqueueBatch [⟨some ⟨"job"⟩, ⟨"a@b", "c"⟩, default⟩], .openPoll,
      .poll ⟨.regional, ⟨"a", "b@c"⟩⟩ ⟨0⟩].map fun op => (default, op))
    s.pool.line ⟨.regional, ⟨"a", "b@c"⟩⟩ = [⟨0⟩] ∧
      s.queues.line ⟨.regional, ⟨"a@b", "c"⟩⟩ = [⟨1⟩] := by
  decide +kernel

end TaskExchange.Scheduler
