import TaskExchange.Proofs.Abandonment
import TaskExchange.Proofs.Isolation

/-!
Redelivery: no task is lost on workers that are not heard of again.  Main statement:
`redelivered_run`.  Once the leases of the regional tasks that are with workers have ended, and
workers come to every category until one of them has to wait, each regional task that is there is
handed over exactly once, and nothing else is.  In a category no more workers are given something
than tasks stood in its line.
-/

namespace TaskExchange.Scheduler

/-- The regional tasks that are with workers have leases that have ended at an instant. -/
def LeasesEnded (s : Scheduler) (t : Instant) : Prop :=
  ∀ id task, s.tasks[id]? = some task → task.kind = .regional → id ∈ s.inFlight →
    ∃ lease, s.inFlight[id]? = some (some lease) ∧ lease ≤ t

instance (s : Scheduler) (t : Instant) : Decidable (s.LeasesEnded t) :=
  decidable_of_iff (∀ entry ∈ s.inFlight.toList,
      s.tasks[entry.1]?.any Task.isRegional = true → entry.2.any (· ≤ t) = true) <| by
    constructor
    · intro h id task ht hkind hid
      obtain ⟨lease, hlease⟩ := Option.isSome_iff_exists.mp
        (Std.ExtTreeMap.mem_iff_isSome_getElem?.mp hid)
      have hended := h (id, lease) (Std.ExtTreeMap.mem_toList_iff_getElem?_eq_some.mpr hlease)
        (by simp [ht, Task.isRegional, hkind])
      obtain ⟨l, rfl, hl⟩ := (Option.any_eq_true ..).mp hended
      exact ⟨l, hlease, by simpa using hl⟩
    · rintro h ⟨id, lease⟩ hentry hregional
      have hlease := Std.ExtTreeMap.mem_toList_iff_getElem?_eq_some.mp hentry
      obtain ⟨task, ht, hkind⟩ := (Option.any_eq_true ..).mp hregional
      obtain ⟨l, hl, hle⟩ := h id task ht (by simpa [Task.isRegional] using hkind)
        (Std.ExtTreeMap.getElem?_eq_some_iff.mp hlease).1
      obtain rfl := Option.some.inj (hlease.symm.trans hl)
      simpa using hle

/-- Regional workers come one after the other; each opens a connection, the first under this number,
and polls on it. -/
def polling : Nat → List (Moment × Category) → List (Moment × Operation)
  | _, [] => []
  | next, (now, category) :: workers =>
    (now, .openPoll) :: (now, .poll ⟨.regional, category⟩ ⟨next⟩) :: polling (next + 1) workers

/-- The leases that have ended are called in, and then workers come. -/
def redelivery (s : Scheduler) (now : Moment) (t : Instant) (workers : List (Moment × Category)) :
    List (Moment × Operation) :=
  (now, .requeueExpired t) :: polling s.polls.next workers

/-- A regional worker of a category polls and has to wait. -/
def Event.Waits (e : Event) (category : Category) : Prop :=
  e.outcome = .polled .parked ∧ ∃ c, e.op = .poll ⟨.regional, category⟩ c

/-- What was with workers is handed over again, and what is in line as well, to these workers. -/
structure Redelivered (s : Scheduler) (now : Moment) (t : Instant)
    (workers : List (Moment × Category)) : Prop where
  /-- Workers poll on connections that are open. -/
  fresh : ∀ e ∈ s.trace (redelivery s now t workers), ∀ lane c, e.op = .poll lane c →
    e.before.polls.isOpen c = true
  /-- A regional task is handed over exactly once until a worker of its category has to wait. -/
  once : ∀ id task, s.tasks[id]? = some task → task.kind = .regional →
    (∃ e ∈ s.trace (redelivery s now t workers), e.Waits task.category) →
      (handedOver (handoversOf (s.trace (redelivery s now t workers)))).count id = 1
  /-- Nothing else is handed over, and at no time is anything handed over twice. -/
  only : ∀ id ∈ handedOver (handoversOf (s.trace (redelivery s now t workers))),
    ∃ task, s.tasks[id]? = some task ∧ task.kind = .regional
  distinct : (handedOver (handoversOf (s.trace (redelivery s now t workers)))).Nodup
  /-- Who receives a task waited for one of its lane and had not left, or polls in its lane. -/
  receiver : ∀ e ∈ s.trace (redelivery s now t workers), ∀ g ∈ e.handovers,
    (∃ c, g.receiver = some c ∧ c ∈ s.pool.line g.task.lane ∧ s.polls.isOpen c = true) ∨
      ∃ c tasks, e.op = .poll g.task.lane c ∧ e.outcome = .polled (.dispatched tasks) ∧
        g.task ∈ tasks
  /-- When more workers of a category come than tasks stand in its line, one has to wait. -/
  ends : ∀ category,
    ((s.step now (.requeueExpired t)).2.queues.line ⟨.regional, category⟩).length <
        workers.countP (·.2 = category) →
      ∃ e ∈ s.trace (redelivery s now t workers), e.Waits category
  /-- All who were in the table are there still. -/
  kept : ∀ id, (s.run (redelivery s now t workers)).roll? id = s.roll? id

variable {now : Moment} {s s' : Scheduler} {e : Event} {past : List Event} {id : TaskId} {t : Task}
  {c : ConnectionId} {lane : Lane} {category : Category} {workers : List (Moment × Category)}

/-! ### Events that enter nothing in the books -/

section

variable (hs : Sound e.before ∅) (hentry : e.entry = .nothing)

include hentry hs

theorem Event.roll?_of_nothing (id : TaskId) : e.after.roll? id = e.before.roll? id := by
  ext t
  rw [e.roll_iff hs, hentry]
  simp [Entry.ends, Entry.tasks]

/-- A task is with a worker afterwards if it was and is not taken back, or is handed over. -/
theorem Event.inFlight_of_nothing : id ∈ e.after.inFlight ↔
    (id ∈ e.before.inFlight ∧ id ∉ e.requeued) ∨ id ∈ handedOver e.handovers := by
  obtain ⟨mid, henters, hshifts, -⟩ := e.enters hs
  have hhand := hand_of_nothing hentry
  have hmid := henters.sound hs
  rw [hentry] at henters
  rw [hshifts.inFlight_iff, mem_handedOver]
  refine or_congr_left ?_
  by_cases hid : id ∈ e.requeued
  · obtain ⟨t, ht, hq⟩ := hmid.placed.inHand (hhand ▸ hid)
    obtain rfl := hmid.placed.key ht
    simp [hid, hmid.placed.not_inFlight ht hq]
  · rw [Std.ExtTreeMap.mem_iff_isSome_getElem?, (henters.unchanged (hhand ▸ hid)).2,
      ← Std.ExtTreeMap.mem_iff_isSome_getElem?]
    simp [hid]

end

/-! ### Regional workers come -/

/-- A regional worker opens a connection, or polls. -/
def Event.Polling (e : Event) : Prop :=
  e.op = .openPoll ∨ ∃ category c, e.op = .poll ⟨.regional, category⟩ c

theorem mem_polling {op : Operation} : ∀ {workers : List (Moment × Category)} {n : Nat},
    (now, op) ∈ polling n workers →
    op = .openPoll ∨ ∃ category c, op = .poll ⟨.regional, category⟩ c
  | [], _, h => by cases h
  | (_, category) :: workers, n, h => by
    rcases List.mem_cons.mp h with h | h
    · cases h
      exact Or.inl rfl
    · rcases List.mem_cons.mp h with h | h
      · cases h
        exact Or.inr ⟨category, ⟨n⟩, rfl⟩
      · exact mem_polling h

namespace Event.Polling

variable (h : e.Polling)

include h

theorem entry : e.entry = .nothing := by
  obtain ⟨s, now, op⟩ := e
  rcases h with h | ⟨category, c, h⟩ <;> cases h <;> rfl

theorem requeued : e.requeued = ∅ := by
  obtain ⟨s, now, op⟩ := e
  rcases h with h | ⟨category, c, h⟩ <;> cases h <;> rfl

/-- What is handed over goes to the worker that polls in the task's lane. -/
theorem of_mem_handovers (hs : Sound e.before ∅) {g : Handover} (hg : g ∈ e.handovers) :
    g.task.kind = .regional ∧ ∃ c tasks, e.op = .poll g.task.lane c ∧
      e.outcome = .polled (.dispatched tasks) ∧ g.task ∈ tasks := by
  rcases h with hop | ⟨category, c, hop⟩
  · simp [handovers, listed, hop] at hg
  · rcases e.polled hs hop with ⟨-, hparked, -⟩ | ⟨-, tasks, houtcome, hserves⟩
    · simp [handovers, hop, hparked] at hg
    · rw [handovers_of_dispatched _ houtcome] at hg
      obtain ⟨t, ht, rfl⟩ := List.mem_map.mp hg
      have hgives := hserves.each t ht
      have hlane : t.lane = ⟨.regional, category⟩ := by
        rw [Task.lane, hgives.kind, hgives.category]
      exact ⟨hgives.kind, c, tasks, hlane ▸ hop, houtcome, ht⟩

end Event.Polling

/-! ### What has been handed over since the leases ended -/

/-- The regional tasks that are with workers are those that these events handed over, each once. -/
structure Given (s : Scheduler) (past : List Event) (s' : Scheduler) : Prop where
  roll : ∀ id, s'.roll? id = s.roll? id
  distinct : (handedOver (handoversOf past)).Nodup
  inFlight_iff : ∀ {id t}, s.roll? id = some t → t.kind = .regional →
    (id ∈ s'.inFlight ↔ id ∈ handedOver (handoversOf past))
  regional : ∀ id ∈ handedOver (handoversOf past), ∃ t, s.roll? id = some t ∧ t.kind = .regional

theorem mem_requeued_of_requeueExpired {t : Instant} :
    id ∈ Event.requeued ⟨s, now, .requeueExpired t⟩ ↔ id ∈ s.expired t := by
  rw [Event.requeued, Finset.mem_filter, List.mem_toFinset, Event.listed]
  refine and_iff_left_of_imp fun hid => ?_
  obtain ⟨lease, hlease, -⟩ := mem_expired.mp hid
  exact (Std.ExtTreeMap.getElem?_eq_some_iff.mp hlease).1

/-- When leases are called in, tasks are handed over whose leases have ended, and to workers that
waited. -/
theorem received_of_requeueExpired {t : Instant} (hs : Sound s ∅) {g : Handover}
    (hg : g ∈ Event.handovers ⟨s, now, .requeueExpired t⟩) :
    g.task.id ∈ Event.requeued ⟨s, now, .requeueExpired t⟩ ∧ ∃ c, g.receiver = some c := by
  obtain ⟨c, hc⟩ := receiver_of_mem_passedOn hg
  obtain ⟨mid, he⟩ := Event.enters ⟨s, now, .requeueExpired t⟩ hs
  have hhand := Event.hand_of_nothing (e := ⟨s, now, .requeueExpired t⟩) rfl
  exact ⟨hhand ▸ he.shifts.mem_hand_of_mem hg hc, c, hc⟩

/-- When the leases are called in, a regional task that is with a worker then has just been handed
over. -/
theorem given_requeueExpired {t : Instant} (hs : Sound s ∅) (hleases : s.LeasesEnded t) :
    Given s [⟨s, now, .requeueExpired t⟩] (s.step now (.requeueExpired t)).2 := by
  let e : Event := ⟨s, now, .requeueExpired t⟩
  have hlog : handoversOf [e] = e.handovers := List.append_nil _
  refine ⟨e.roll?_of_nothing hs rfl, hlog ▸ e.nodup_handedOver hs, ?_, ?_⟩
  · intro id task hroll hkind
    obtain ⟨u, hu, rfl⟩ := Option.map_eq_some_iff.mp hroll
    change id ∈ e.after.inFlight ↔ _
    rw [hlog, e.inFlight_of_nothing hs rfl]
    refine or_iff_right ?_
    rintro ⟨hflight, hnot⟩
    exact hnot (mem_requeued_of_requeueExpired.mpr
      (mem_expired.mpr (hleases id u hu hkind hflight)))
  · intro id hid
    obtain ⟨g, hg, rfl⟩ := mem_handedOver.mp (hlog ▸ hid)
    obtain ⟨hback, -⟩ := received_of_requeueExpired hs hg
    obtain ⟨u, hu, hkind⟩ := hs.regional_of_expired (mem_requeued_of_requeueExpired.mp hback)
    exact ⟨u.asAccepted, roll?_of_task hu, hkind⟩

theorem Given.after (hg : Given s past e.before) (hs : Sound e.before ∅) (hop : e.Polling) :
    Given s (past ++ [e]) e.after := by
  have hroll := e.roll?_of_nothing hs hop.entry
  have hnew : ∀ id ∈ handedOver e.handovers, ∃ t, s.roll? id = some t ∧ t.kind = .regional := by
    intro id hid
    obtain ⟨g, hmem, rfl⟩ := mem_handedOver.mp hid
    refine ⟨g.task.asAccepted, ?_, (hop.of_mem_handovers hs hmem).1⟩
    rw [← hg.roll, ← hroll, roll?_of_task (e.gives hs hmem).entry]
  refine ⟨fun id => (hroll id).trans (hg.roll id), ?_, ?_, ?_⟩
  · rw [handoversOf_concat, handedOver_append, List.nodup_append']
    refine ⟨hg.distinct, e.nodup_handedOver hs, ?_⟩
    intro id hpast hid
    obtain ⟨t, ht, hkind⟩ := hg.regional id hpast
    have hwith : id ∈ e.before.inFlight := (hg.inFlight_iff ht hkind).mpr hpast
    have hbelow := (hs.numbered.below (hs.mem_tasks_of_inFlight hwith)).2
    have hnot : id ∉ e.requeued := by rw [hop.requeued]; exact Finset.notMem_empty id
    exact (e.kept hs hbelow (Or.inl hwith) hnot).1 hid
  · intro id t ht hkind
    rw [e.inFlight_of_nothing hs hop.entry, hop.requeued, handoversOf_concat, handedOver_append,
      List.mem_append, hg.inFlight_iff ht hkind]
    simp
  · intro id hid
    rw [handoversOf_concat, handedOver_append, List.mem_append] at hid
    exact hid.elim (hg.regional id) (hnew id)

theorem given_trace {steps : List (Moment × Operation)} (hs : Sound s' ∅) (hg : Given s past s')
    (hop : ∀ e ∈ s'.trace steps, e.Polling) :
    Given s (past ++ s'.trace steps) (s'.run steps) := by
  refine hs.trace_induction (P := fun more x => Given s (past ++ more) x) ?_ ?_
  · rwa [List.append_nil]
  · intro more e he hs hmore
    rw [← List.append_assoc]
    exact hmore.after hs (hop e he)

/-- When a worker of a category has to wait, all regional tasks of the category have been handed
over. -/
theorem Given.of_waits (hg : Given s past e.before) (hs : Sound e.before ∅)
    (ht : s.tasks[id]? = some t) (hkind : t.kind = .regional) (hwaits : e.Waits t.category) :
    id ∈ handedOver (handoversOf past) := by
  obtain ⟨hparked, c, hop⟩ := hwaits
  have hempty : e.before.queues.line t.lane = [] := by
    rw [Task.lane, hkind]
    rcases e.polled hs hop with ⟨hline, -⟩ | ⟨-, tasks, houtcome, -⟩
    · exact hline
    · rw [hparked] at houtcome
      cases houtcome
  have hroll := roll?_of_task ht
  obtain ⟨u, hu, hsame⟩ := Option.map_eq_some_iff.mp ((hg.roll id).trans hroll)
  refine (hg.inFlight_iff hroll hkind).mp (hs.placed.inFlight.mpr ⟨u, hu, ?_⟩)
  cases hstate : u.state with
  | inFlight => rfl
  | queued =>
    have hin := hs.placed.queued hu hstate (Finset.notMem_empty id)
    rw [Task.lane_eq_of_asAccepted hsame, hempty] at hin
    cases hin

/-! ### Polls of a category come to an end -/

/-- A line gets shorter with every worker that is given something. -/
theorem exists_waits (category : Category) : ∀ {workers : List (Moment × Category)} {n : Nat}
    {s : Scheduler}, Sound s ∅ →
    (s.queues.line ⟨.regional, category⟩).length < workers.countP (·.2 = category) →
    ∃ e ∈ s.trace (polling n workers), e.Waits category
  | [], _, _, _, hlt => absurd hlt (Nat.not_lt_zero _)
  | (now, other) :: workers, n, s, hs, hlt => by
    let opened : Event := ⟨s, now, .openPoll⟩
    let e : Event := ⟨opened.after, now, .poll ⟨.regional, other⟩ ⟨n⟩⟩
    have hs₁ : Sound e.before ∅ := opened.sound_after hs
    have hrest : (e.after.queues.line ⟨.regional, category⟩).length <
        workers.countP (·.2 = category) →
        ∃ d ∈ s.trace (polling n ((now, other) :: workers)), d.Waits category := by
      intro h
      obtain ⟨d, hd, hwaits⟩ := exists_waits category (n := n + 1) (e.sound_after hs₁) h
      exact ⟨d, List.mem_cons_of_mem _ (List.mem_cons_of_mem _ hd), hwaits⟩
    replace hlt : (e.before.queues.line ⟨.regional, category⟩).length <
      ((now, other) :: workers).countP (·.2 = category) := hlt
    rw [List.countP_cons] at hlt
    rcases e.polled hs₁ rfl with ⟨-, hparked, hqueues⟩ | ⟨hline, tasks, -, hserves⟩
    · by_cases hcategory : other = category
      · exact ⟨e, List.mem_cons_of_mem _ (List.mem_cons_self ..), hparked, ⟨n⟩, hcategory ▸ rfl⟩
      · refine hrest ?_
        rw [hqueues]
        simpa [hcategory] using hlt
    · refine hrest ?_
      by_cases hcategory : other = category
      · subst hcategory
        have hpos := List.length_pos_of_ne_nil hline
        have hlimit : 1 ≤ e.before.batchLimit .regional := Nat.le_max_left ..
        rw [hserves.rest, List.length_drop]
        simp only [decide_true, if_true] at hlt ⊢
        omega
      · rw [hserves.others _ fun h => hcategory (congrArg Lane.category h).symm]
        simpa [hcategory] using hlt

theorem fresh_polling : ∀ {workers : List (Moment × Category)} {s : Scheduler}, Sound s ∅ →
    ∀ e ∈ s.trace (polling s.polls.next workers), ∀ lane c, e.op = .poll lane c →
      e.before.polls.isOpen c = true
  | [], _, _, _, he => by cases he
  | (now, category) :: workers, s, hs, e, he => by
    intro lane c hop
    let opened : Event := ⟨s, now, .openPoll⟩
    let polled : Event := ⟨opened.after, now, .poll ⟨.regional, category⟩ ⟨s.polls.next⟩⟩
    have hs₁ : Sound polled.before ∅ := opened.sound_after hs
    rcases List.mem_cons.mp he with rfl | he
    · cases hop
    · rcases List.mem_cons.mp he with rfl | he
      · cases hop
        simp [step, Switchboard.connect, Switchboard.isOpen]
      · have hnext : polled.after.polls.next = s.polls.next + 1 := polled.polls_next_after hs₁
        exact fresh_polling (polled.sound_after hs₁) e (hnext ▸ he) lane c hop

/-! ### Every state that is reached -/

section

variable {t : Instant} (hs : Sound s ∅)

include hs

/-- Workers poll on connections that they have just opened. -/
theorem fresh_redelivery (he : e ∈ s.trace (redelivery s now t workers))
    (hop : e.op = .poll lane c) : e.before.polls.isOpen c = true := by
  let expiry : Event := ⟨s, now, .requeueExpired t⟩
  rcases List.mem_cons.mp he with rfl | he
  · cases hop
  · have hnext : expiry.after.polls.next = s.polls.next := expiry.polls_next_after hs
    exact fresh_polling (expiry.sound_after hs) e (hnext ▸ he) lane c hop

/-- Whoever receives something waited for it when the leases were called in, or polls. -/
theorem receiver_of_redelivery (he : e ∈ s.trace (redelivery s now t workers)) {g : Handover}
    (hg : g ∈ e.handovers) :
    (∃ c, g.receiver = some c ∧ c ∈ s.pool.line g.task.lane ∧ s.polls.isOpen c = true) ∨
      ∃ c tasks, e.op = .poll g.task.lane c ∧ e.outcome = .polled (.dispatched tasks) ∧
        g.task ∈ tasks := by
  let expiry : Event := ⟨s, now, .requeueExpired t⟩
  rcases List.mem_cons.mp he with rfl | he
  · obtain ⟨-, c, hc⟩ := received_of_requeueExpired hs hg
    obtain ⟨task, receiver⟩ := g
    obtain rfl : receiver = some c := hc
    obtain ⟨hin, hopen⟩ := expiry.waited hs hg
    exact Or.inl ⟨c, rfl, hin, hopen⟩
  · have hpolling : e.Polling := mem_polling (mem_steps_of_mem_trace he)
    obtain ⟨xs, hrun⟩ := exists_run_of_mem (s := expiry.after) he
    exact Or.inr (hpolling.of_mem_handovers (hrun ▸ (expiry.sound_after hs).run xs) hg).2

/-- A regional task is handed over by the time a worker of its category has to wait. -/
theorem handedOver_of_waits (hleases : s.LeasesEnded t) {task : Task}
    (ht : s.tasks[id]? = some task) (hkind : task.kind = .regional)
    (he : e ∈ s.trace (redelivery s now t workers)) (hwaits : e.Waits task.category) :
    id ∈ handedOver (handoversOf (s.trace (redelivery s now t workers))) := by
  let expiry : Event := ⟨s, now, .requeueExpired t⟩
  have hs₁ : Sound expiry.after ∅ := expiry.sound_after hs
  rcases List.mem_cons.mp he with rfl | he
  · cases hwaits.1
  · obtain ⟨past, future, hsplit⟩ : ∃ past future,
        expiry.after.trace (polling s.polls.next workers) = past ++ e :: future :=
      List.append_of_mem he
    obtain ⟨xs, -, rfl, hrun, -⟩ := trace_split hsplit
    have hpast : Given s ([expiry] ++ expiry.after.trace xs) e.before := by
      rw [← hrun]
      refine given_trace hs₁ (given_requeueExpired hs hleases) fun d hd => ?_
      exact mem_polling (mem_steps_of_mem_trace (hsplit ▸ List.mem_append_left _ hd))
    have hid := hpast.of_waits (hrun ▸ hs₁.run xs) ht hkind hwaits
    change id ∈ handedOver (handoversOf (expiry :: expiry.after.trace _))
    rw [hsplit]
    simp only [List.singleton_append, handoversOf_cons, handoversOf_append, handedOver_append,
      List.mem_append] at hid ⊢
    exact hid.imp_right Or.inl

end

/-- In every state that is reached, once the leases have ended. -/
theorem redelivered_run (limits : Limits) (steps : List (Moment × Operation)) (now : Moment)
    (t : Instant) (workers : List (Moment × Category))
    (hleases : ((new limits).run steps).LeasesEnded t) :
    Redelivered ((new limits).run steps) now t workers := by
  have hs := sound_run limits steps
  generalize (new limits).run steps = s at hs hleases ⊢
  let expiry : Event := ⟨s, now, .requeueExpired t⟩
  have hs₁ : Sound expiry.after ∅ := expiry.sound_after hs
  have hg : Given s ([expiry] ++ expiry.after.trace (polling s.polls.next workers))
      (expiry.after.run (polling s.polls.next workers)) :=
    given_trace hs₁ (given_requeueExpired hs hleases) fun e he =>
      mem_polling (mem_steps_of_mem_trace he)
  refine ⟨fun e he lane c hop => fresh_redelivery hs he hop, ?_, ?_, hg.distinct,
    fun e he g hmem => receiver_of_redelivery hs he hmem, ?_, hg.roll⟩
  · rintro id task ht hkind ⟨e, he, hwaits⟩
    exact List.count_eq_one_of_mem hg.distinct
      (handedOver_of_waits hs hleases ht hkind he hwaits)
  · intro id hid
    obtain ⟨u, hu, hkind⟩ := hg.regional id hid
    obtain ⟨task, ht, rfl⟩ := Option.map_eq_some_iff.mp hu
    exact ⟨task, ht, hkind⟩
  · intro category hlt
    obtain ⟨e, he, hwaits⟩ := exists_waits category (n := s.polls.next) hs₁ hlt
    exact ⟨e, List.mem_cons_of_mem _ he, hwaits⟩

/-- Two tasks of three are with a worker, and one of another category is with a worker beside which
another one waits. -/
def overdue : List (Moment × Operation) :=
  [.enqueueBatch (.replicate 3 ⟨some ⟨"job"⟩, ⟨"graph", "1"⟩, default⟩), .openPoll,
    .poll ⟨.regional, ⟨"graph", "1"⟩⟩ ⟨0⟩,
    .enqueueBatch [⟨some ⟨"other"⟩, ⟨"graph", "2"⟩, default⟩], .openPoll,
    .poll ⟨.regional, ⟨"graph", "2"⟩⟩ ⟨1⟩, .openPoll,
    .poll ⟨.regional, ⟨"graph", "2"⟩⟩ ⟨2⟩].map fun op => (default, op)

/-- A minute later all four are handed over again. -/
theorem redelivered_overdue :
    ((new ⟨2, 10, 60 * Instant.second⟩).run overdue).LeasesEnded (60 * Instant.second) ∧
      Redelivered ((new ⟨2, 10, 60 * Instant.second⟩).run overdue) default (60 * Instant.second)
        [(default, ⟨"graph", "1"⟩), (default, ⟨"graph", "2"⟩), (default, ⟨"graph", "1"⟩),
          (default, ⟨"graph", "1"⟩)] :=
  have hleases : ((new ⟨2, 10, 60 * Instant.second⟩).run overdue).LeasesEnded
      (60 * Instant.second) := by decide +kernel
  ⟨hleases, redelivered_run _ _ _ _ _ hleases⟩

end TaskExchange.Scheduler
