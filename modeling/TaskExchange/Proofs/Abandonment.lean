import TaskExchange.Proofs.Continuity
import TaskExchange.Proofs.Precedence

/-!
Abandonment: what becomes of a task that a worker was given and never read.  Main statement:
`abandonments_run`.  When the connection of a worker that waits is abandoned, the tasks taken back
are those in flight among what the worker had not read, and no others are touched.  The task is
known by its number alone: when it was taken back in the meantime and given to another worker, it is
taken away from that worker (`not_ownDeliveries`).
-/

namespace TaskExchange.Scheduler

/-- The latest handover of a task. -/
def latest? (log : List Handover) (id : TaskId) : Option Handover :=
  (log.filter (·.task.id = id)).getLast?

/-- Whoever abandons a connection takes back only what was handed over there last. -/
def OwnDeliveries (trace : List Event) : Prop :=
  ∀ past e future, trace = past ++ e :: future → ∀ lane c, e.op = .abandonPoll lane c →
    ∀ id ∈ e.requeued, ∃ t, latest? (handoversOf past) id = some ⟨t, some c⟩

/-- What the abandonment of a connection does after some events. -/
structure Abandonment (past : List Event) (e : Event) (c : ConnectionId) : Prop where
  /-- What is unread is one task, and it was handed over on this connection. -/
  handed : ∀ tasks, e.before.polls.held? c = some tasks →
    ∃ t, tasks = [t] ∧ ⟨t, some c⟩ ∈ handoversOf past
  /-- It is taken back if it is in flight, and nothing else is. -/
  unread : ∀ id, id ∈ e.requeued ↔
    id ∈ e.before.inFlight ∧ ∃ t, e.before.polls.held? c = some [t] ∧ t.id = id
  /-- What is taken back is with another worker that waited, or at the head of its line. -/
  back : ∀ id ∈ e.requeued, (∃ d u, d ≠ c ∧ ⟨u, some d⟩ ∈ e.handovers ∧ u.id = id) ∨
    ∃ u, e.after.tasks[id]? = some u ∧ u.state = .queued ∧
      (e.after.queues.line u.lane).head? = some id
  /-- All other tasks stay as they are, with as many deliveries and under the same leases. -/
  others : ∀ id, id ∉ e.requeued → e.after.tasks[id]? = e.before.tasks[id]? ∧
    e.after.inFlight[id]? = e.before.inFlight[id]?
  /-- A task that was not taken back since it was handed over on this connection was handed over to
  nobody else since. -/
  latest : ∀ first d rest, past = first ++ d :: rest → ∀ t, ⟨t, some c⟩ ∈ d.handovers →
    (∀ x ∈ rest, t.id ∉ x.requeued) → latest? (handoversOf past) t.id = some ⟨t, some c⟩

/-- Abandoned connections give back what was not read there, in a run with these events. -/
structure Abandonments (trace : List Event) : Prop where
  each : ∀ past e future, trace = past ++ e :: future → ∀ lane c, e.op = .abandonPoll lane c →
    Abandonment past e c

variable {now : Moment} {s s' mid : Scheduler} {hand hand' : Finset TaskId}
  {log more : List Handover} {past : List Event} {e : Event} {entry : Entry} {id : TaskId}
  {t : Task} {c : ConnectionId} {lane : Lane}

/-! ### The latest handover -/

theorem latest?_append_of_notMem (h : id ∉ handedOver more) :
    latest? (log ++ more) id = latest? log id := by
  have hnone : more.filter (·.task.id = id) = [] := by
    rw [List.filter_eq_nil_iff]
    intro g hg
    rw [decide_eq_true_eq]
    exact fun hid => h (mem_handedOver.mpr ⟨g, hg, hid⟩)
  rw [latest?, List.filter_append, hnone, List.append_nil, latest?]

/-- A handover after which there is no other of its task is the latest one. -/
theorem latest?_of_notMem {g : Handover} (h : g.task.id ∉ handedOver more) :
    latest? (log ++ g :: more) g.task.id = some g := by
  rw [List.append_cons, latest?_append_of_notMem h]
  simp [latest?]

/-! ### Tasks that are with workers -/

theorem Enters.inFlight (h : Enters now s entry mid hand) (hs : Sound s ∅) (hid : id ∈ s.inFlight)
    (hnot : id ∉ hand) : id ∈ mid.inFlight ∨ id ∉ mid.tasks := by
  have hremoval : ∀ {gone mid}, Removal s gone mid → id ∈ mid.inFlight ∨ id ∉ mid.tasks := by
    intro gone mid hr
    rw [hr.mem_inFlight_iff, hr.mem_tasks_iff]
    by_cases hgone : id ∈ gone
    · exact Or.inr fun h => h.1 hgone
    · exact Or.inl ⟨hgone, hid⟩
  cases h with
  | connections _ _ hrecall =>
    exact Or.inl (hrecall.mem_inFlight_iff.mpr ⟨fun h => hnot (List.mem_toFinset.mpr h), hid⟩)
  | park => exact Or.inl hid
  | batch => exact Or.inl (by rwa [enroll_inFlight])
  | single => exact Or.inl hid
  | acknowledge hmid =>
    obtain ⟨t, -, -, hr⟩ := removal_acknowledge hs.placed hs.ledger hmid
    exact hremoval hr
  | withdraw ht hkind =>
    have hstill := hremoval (removal_withdraw hs.placed ht hkind)
    exact hstill
  | withdrawNothing => exact Or.inl hid
  | deleteJob hmid =>
    obtain ⟨j, -, hr⟩ := removal_deleteJob hs.placed hs.ledger hmid
    exact hremoval hr

/-- A task that is with a worker or gone, and is not taken back, is given to nobody, and so it
goes on. -/
theorem Event.kept (e : Event) (hs : Sound e.before ∅) (hbelow : id.value < e.before.nextId.value)
    (hid : id ∈ e.before.inFlight ∨ id ∉ e.before.tasks) (hnot : id ∉ e.requeued) :
    id ∉ handedOver e.handovers ∧ (id ∈ e.after.inFlight ∨ id ∉ e.after.tasks) := by
  obtain ⟨mid, he⟩ := e.enters hs
  have hmid := he.enters.sound hs
  have hhand : id ∉ e.hand := by
    rw [hand, Finset.mem_union, not_or, List.mem_toFinset]
    refine ⟨fun hin => ?_, hnot⟩
    obtain ⟨t, ht, rfl⟩ := List.mem_map.mp hin
    have hle := e.le_of_mem_tasks hs ht
    omega
  have hstill : id ∈ mid.inFlight ∨ id ∉ mid.tasks := by
    rcases hid with hid | hid
    · exact he.enters.inFlight hs hid hhand
    · exact Or.inr fun hin => (e.stays_gone hs hbelow hid).2 (he.shifts.books.mem.mpr hin)
  constructor
  · intro hin
    obtain ⟨g, hg, rfl⟩ := mem_handedOver.mp hin
    obtain ⟨t, ht, -⟩ := he.shifts.task_of_mem hg
    rcases hstill with hflight | hgone
    · exact he.shifts.not_inFlight_of_mem hmid.placed hg hflight
    · exact hgone (he.shifts.books.mem.mp (mem_tasks ht))
  · exact hstill.imp (fun h => he.shifts.inFlight_iff.mpr (Or.inl h))
      fun h hin => h (he.shifts.books.mem.mp hin)

/-- As long as nobody takes it back, it is given to nobody. -/
theorem kept_trace {steps : List (Moment × Operation)} (hs : Sound s ∅)
    (hbelow : id.value < s.nextId.value) (hid : id ∈ s.inFlight ∨ id ∉ s.tasks)
    (hnot : ∀ x ∈ s.trace steps, id ∉ x.requeued) :
    id ∉ handedOver (handoversOf (s.trace steps)) := by
  refine (hs.trace_induction (P := fun past s => id ∉ handedOver (handoversOf past) ∧
    id.value < s.nextId.value ∧ (id ∈ s.inFlight ∨ id ∉ s.tasks)) ?_ ?_).1
  · exact ⟨by simp [handoversOf, handedOver], hbelow, hid⟩
  · rintro past e he hs ⟨hnone, hbelow, hid⟩
    have hnext := (e.numbers hs).2
    obtain ⟨hnone', hid'⟩ := e.kept hs hbelow hid (hnot e he)
    refine ⟨?_, by omega, hid'⟩
    rw [handoversOf_concat, handedOver_append, List.mem_append, not_or]
    exact ⟨hnone, hnone'⟩

/-! ### What a worker has not read -/

/-- What a worker has not read is one task that was handed over to it. -/
theorem unread_run (limits : Limits) (steps : List (Moment × Operation)) {tasks : List Task}
    (h : ((new limits).run steps).polls.held? c = some tasks) :
    ∃ t, tasks = [t] ∧ ⟨t, some c⟩ ∈ handoversOf ((new limits).trace steps) := by
  refine (Sound.new limits).trace_induction (P := fun past s => ∀ tasks,
    s.polls.held? c = some tasks → ∃ t, tasks = [t] ∧ ⟨t, some c⟩ ∈ handoversOf past) ?_ ?_ tasks h
  · intro tasks h
    simp [Scheduler.new, Switchboard.held?, Switchboard.empty] at h
  · intro past e _ hs hpast tasks h
    rw [handoversOf_concat]
    by_cases hbefore : e.before.polls.held? c = some tasks
    · obtain ⟨t, rfl, ht⟩ := hpast tasks hbefore
      exact ⟨t, rfl, List.mem_append_left _ ht⟩
    · obtain ⟨t, rfl, ht⟩ := (e.received hs).mp ⟨h, hbefore⟩
      exact ⟨t, rfl, List.mem_append_right _ ht⟩

/-! ### One abandonment -/

theorem Enters.unchanged (h : Enters now s .nothing mid hand) (hid : id ∉ hand) :
    mid.tasks[id]? = s.tasks[id]? ∧ mid.inFlight[id]? = s.inFlight[id]? := by
  cases h with
  | connections _ _ hrecall =>
    have hback := fun h => hid (List.mem_toFinset.mpr h)
    exact ⟨hrecall.task_of_notMem hback, by rw [hrecall.inFlight, if_neg hback]⟩
  | park => exact ⟨rfl, rfl⟩

/-- A task that is taken back alone is given to a worker that waits, or stands at the head of its
line. -/
theorem requeueFront_singleton (hp : Placed s ∅) (now : Moment) (hid : id ∈ s.inFlight) :
    (∃ u d, ⟨u, some d⟩ ∈ s.givenAgain now [id] ∧ u.id = id) ∨
      ∃ u, (s.requeueFront now [id]).2.tasks[id]? = some u ∧ u.state = .queued ∧
        ((s.requeueFront now [id]).2.queues.line u.lane).head? = some id := by
  obtain ⟨back, mid, hback, hrecall, -, hmem⟩ := recall_takeBackEach [id] s []
  have hlist : back = [id] := by
    have htake : takeBackEach [id] [] s = ([id], (takeBackEach [id] [] s).2) := by
      simp [takeBackEach, takeBack?, hid]
    rw [hback] at htake
    exact (Prod.mk.inj htake).1
  subst hlist
  have hp₁ := hrecall.placed hp
  obtain ⟨t, ht, hq⟩ := hp₁.inHand (List.mem_toFinset.mpr (List.mem_singleton_self id))
  obtain rfl := hp₁.key ht
  have hlog : s.givenAgain now [t.id] = (mid.handover? t.id).toList := by
    simp [givenAgain, hback, passedOn]
  have hresult : s.requeueFront now [t.id] =
      (1, queueFrontEach (dispatchEach now [t.id] [] mid).1
        (dispatchEach now [t.id] [] mid).2) := by
    simp [requeueFront, hback]
  rcases dispatchToWaiting_cases now ht hq (hp₁.not_inFlight ht hq) with
    ⟨-, -, hdispatch⟩ | ⟨_, d, _, -, -, -, hsome, -⟩
  · refine Or.inr ⟨t, ?_, hq, ?_⟩
    · simp [hresult, dispatchEach, hdispatch, queueFrontEach, queueFront, setWorkers, ht]
    · simp [hresult, dispatchEach, hdispatch, queueFrontEach, queueFront, setWorkers, ht,
        Lanes.pushFront]
  · exact Or.inl ⟨t.dispatch, d, by simp [hlog, hsome], rfl⟩

section

variable (hs : Sound e.before ∅) (hop : e.op = .abandonPoll lane c)

include hop

theorem Event.listed_of_abandonPoll :
    e.listed = ((e.before.polls.held? c).getD []).map (·.id) := by
  rw [listed, hop]

theorem Event.entry_of_abandonPoll : e.entry = .nothing := by
  obtain ⟨s, now, op⟩ := e
  cases hop
  rfl

include hs

/-- What an abandonment gives out goes to workers that wait elsewhere. -/
theorem Event.exists_of_mem_handovers {g : Handover} (hg : g ∈ e.handovers) :
    g.task.id ∈ e.requeued ∧ ∃ d, d ≠ c ∧ g.receiver = some d := by
  obtain ⟨mid, he⟩ := e.enters hs
  have hne : e.before.polls.held? c ≠ none := by
    intro hnone
    have hlisted : e.listed = [] := by rw [listed_of_abandonPoll hop, hnone]; rfl
    simp [handovers, hop, hlisted] at hg
  obtain ⟨t, receiver⟩ := g
  cases receiver with
  | none =>
    obtain ⟨tasks, houtcome⟩ := e.dispatched_of_mem hg
    rw [outcome, hop] at houtcome
    cases houtcome
  | some d =>
    have hback := hand_of_nothing (entry_of_abandonPoll hop)
    refine ⟨hback ▸ he.shifts.mem_hand_of_mem hg rfl, d, ?_, rfl⟩
    rintro rfl
    rcases he.shifts.handed d with ⟨hlog, -⟩ | ⟨-, -, -, -, hopen, -⟩
    · rw [← mem_handedTo, hlog] at hg
      cases hg
    · -- This connection has just been read, so nothing more is received on it.
      rw [he.polls, polls, hop, Switchboard.isOpen, Switchboard.getElem?_take,
        if_pos ⟨rfl, Option.isSome_iff_ne_none.mpr hne⟩] at hopen
      cases hopen

theorem Event.back_of_abandonPoll (hid : id ∈ e.requeued) {t : Task}
    (hheld : e.before.polls.held? c = some [t]) (ht : t.id = id) :
    (∃ d u, d ≠ c ∧ ⟨u, some d⟩ ∈ e.handovers ∧ u.id = id) ∨
      ∃ u, e.after.tasks[id]? = some u ∧ u.state = .queued ∧
        (e.after.queues.line u.lane).head? = some id := by
  have hs₀ : Sound (e.before.releasePoll lane c).2 ∅ := hs.connections ..
  have hlisted : e.listed = [id] := by rw [listed_of_abandonPoll hop, hheld, ← ht]; rfl
  have hflight : id ∈ e.before.inFlight := (Finset.mem_filter.mp hid).2
  have hlog : e.handovers = (e.before.releasePoll lane c).2.givenAgain e.now [id] := by
    rw [handovers, hop, hlisted]
  have hread : (e.before.releasePoll lane c).1 = some [t] :=
    (e.before.polls.take_fst c).trans hheld
  have hafter : e.after = ((e.before.releasePoll lane c).2.requeueFront e.now [id]).2 := by
    rw [after, hop, step, abandonPoll, ← Prod.eta (e.before.releasePoll lane c), hread, ← ht]
    rfl
  rw [hafter]
  refine (requeueFront_singleton hs₀.placed e.now hflight).imp_left ?_
  rintro ⟨u, d, hmem, hu⟩
  have hmem' : ⟨u, some d⟩ ∈ e.handovers := hlog ▸ hmem
  obtain ⟨-, d', hne, hd⟩ := exists_of_mem_handovers hs hop hmem'
  obtain rfl := Option.some.inj hd
  exact ⟨d, u, hne, hmem', hu⟩

theorem Event.unchanged_of_abandonPoll (hid : id ∉ e.requeued) :
    e.after.tasks[id]? = e.before.tasks[id]? ∧ e.after.inFlight[id]? = e.before.inFlight[id]? := by
  obtain ⟨mid, henters, hshifts, -⟩ := e.enters hs
  rw [entry_of_abandonPoll hop, hand_of_nothing (entry_of_abandonPoll hop)] at henters
  obtain ⟨htasks, hflight⟩ := henters.unchanged hid
  have hnot : id ∉ handedOver e.handovers := by
    intro hin
    obtain ⟨g, hg, rfl⟩ := mem_handedOver.mp hin
    exact hid (exists_of_mem_handovers hs hop hg).1
  obtain ⟨htasks', hflight'⟩ := hshifts.unchanged hnot
  exact ⟨htasks'.trans htasks, hflight'.trans hflight⟩

end

/-- A task that was handed over on a connection, and not taken back since, was handed over there
last. -/
theorem latest_run {limits : Limits} {steps : List (Moment × Operation)} {first rest : List Event}
    {d : Event} (hsplit : (new limits).trace steps = first ++ d :: rest)
    (ht : ⟨t, some c⟩ ∈ d.handovers) (hnot : ∀ x ∈ rest, t.id ∉ x.requeued) :
    latest? (handoversOf ((new limits).trace steps)) t.id = some ⟨t, some c⟩ := by
  have hs : Sound d.before ∅ := sound_of_mem_trace (hsplit ▸ List.mem_append_cons_self)
  obtain ⟨-, ys, -, -, rfl, -⟩ := trace_split hsplit
  obtain ⟨mid, he⟩ := d.enters hs
  have hmid := he.enters.sound hs
  have hafter := d.sound_after hs
  have hflight : t.id ∈ d.after.inFlight := he.shifts.inFlight_iff.mpr (Or.inr ⟨_, ht, rfl⟩)
  have hbelow := (hafter.numbered.below (hafter.mem_tasks_of_inFlight hflight)).2
  have hrest := kept_trace hafter hbelow (Or.inl hflight) hnot
  obtain ⟨pre, post, hlog⟩ := List.append_of_mem ht
  have hpost : t.id ∉ handedOver post := by
    have hnodup := he.shifts.nodup_log hmid.placed
    rw [hlog, List.map_append, List.map_cons] at hnodup
    exact (List.nodup_cons.mp (List.nodup_append'.mp hnodup).2.1).1
  have hall : handoversOf ((new limits).trace steps) = (handoversOf first ++ pre) ++
      ⟨t, some c⟩ :: (post ++ handoversOf (d.after.trace ys)) := by
    rw [hsplit, handoversOf, List.flatMap_append, List.flatMap_cons, hlog]
    simp [handoversOf]
  rw [hall]
  refine latest?_of_notMem ?_
  rw [handedOver_append, List.mem_append, not_or]
  exact ⟨hpost, hrest⟩

/-- In every run an abandoned connection gives back what was not read there, and nothing else. -/
theorem abandonments_run (limits : Limits) (steps : List (Moment × Operation)) :
    Abandonments ((new limits).trace steps) := by
  refine ⟨fun past e future hsplit lane c hop => ?_⟩
  have hs : Sound e.before ∅ := sound_of_mem_trace (hsplit ▸ List.mem_append_cons_self)
  obtain ⟨xs, -, rfl, hbefore, -⟩ := trace_split hsplit
  have hhanded : ∀ tasks, e.before.polls.held? c = some tasks →
      ∃ t, tasks = [t] ∧ ⟨t, some c⟩ ∈ handoversOf ((new limits).trace xs) := fun tasks h =>
    unread_run limits xs (hbefore ▸ h)
  have hunread : ∀ id, id ∈ e.requeued ↔
      id ∈ e.before.inFlight ∧ ∃ t, e.before.polls.held? c = some [t] ∧ t.id = id := by
    intro id
    rw [Event.requeued, Finset.mem_filter, and_comm, List.mem_toFinset,
      Event.listed_of_abandonPoll hop]
    refine and_congr_right fun _ => ?_
    cases hheld : e.before.polls.held? c with
    | none => simp
    | some tasks =>
      obtain ⟨t, rfl, -⟩ := hhanded tasks hheld
      simp [eq_comm]
  refine ⟨hhanded, hunread, fun id hid => ?_, fun id hid =>
    Event.unchanged_of_abandonPoll hs hop hid, fun first d rest hpast t ht hnot => ?_⟩
  · obtain ⟨-, t, hheld, ht⟩ := (hunread id).mp hid
    exact Event.back_of_abandonPoll hs hop hid hheld ht
  · exact latest_run hpast ht hnot

/-! ### A task is known by its number alone -/

/-- A worker waits and is given a task.  Before it reads, the task is reported lost and given to
another worker that polls. -/
def strayReturn : List (Moment × Operation) :=
  [.openPoll, .poll ⟨.regional, ⟨"graph", "1"⟩⟩ ⟨0⟩,
    .enqueueBatch [⟨some ⟨"job"⟩, ⟨"graph", "1"⟩, default⟩], .reportLost ⟨1⟩, .openPoll,
    .poll ⟨.regional, ⟨"graph", "1"⟩⟩ ⟨1⟩].map fun op => (default, op)

/-- When the first worker's connection is abandoned, the task is taken away from the other worker,
to whom it was handed over last. -/
theorem not_ownDeliveries : ¬ OwnDeliveries ((new .standard).trace
    (strayReturn ++ [(default, .abandonPoll ⟨.regional, ⟨"graph", "1"⟩⟩ ⟨0⟩)])) := by
  intro h
  rw [trace_append] at h
  obtain ⟨t, hlatest⟩ := h _ _ [] rfl _ _ rfl ⟨1⟩ (by decide +kernel)
  have hother : (latest? (handoversOf ((new .standard).trace strayReturn)) ⟨1⟩).map (·.receiver) =
      some none := by decide +kernel
  rw [hlatest] at hother
  cases hother

end TaskExchange.Scheduler
