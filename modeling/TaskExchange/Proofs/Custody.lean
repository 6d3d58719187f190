import TaskExchange.Proofs.Isolation
import TaskExchange.Proofs.Abandonment

/-!
Custody: who has a priority task.  Main statement: `readOnce_run`.  As long as nobody returns tasks
that were read, a priority task is read by one worker at most, and it is handed over once more only
after all those to whom it was handed over before had their connections abandoned with the task
unread.
-/

namespace TaskExchange.Scheduler

/-- The tasks that a worker obtains by an event: it polls and need not wait, or it reads what has
come. -/
def Event.obtained (e : Event) : List Task :=
  match e.outcome with
  | .polled (.dispatched tasks) => tasks
  | .tasks (some tasks) => tasks
  | _ => []

/-- The tasks that workers obtain by some events. -/
def obtainedBy (events : List Event) : List TaskId :=
  events.flatMap fun e => e.obtained.map (·.id)

/-- One of these events abandons the connection on which a task was handed over, with the task
unread. -/
def Returned (g : Handover) (events : List Event) : Prop :=
  ∃ c, g.receiver = some c ∧ ∃ d ∈ events, (∃ lane, d.op = .abandonPoll lane c) ∧
    d.before.polls.held? c = some [g.task]

/-- Priority tasks are read once, in a run with these events. -/
structure ReadOnce (trace : List Event) : Prop where
  /-- A priority task is among what workers obtain once at most. -/
  once : ∀ t ∈ trace.flatMap (·.entry.tasks), t.kind = .priority →
    (obtainedBy trace).count t.id ≤ 1
  /-- No event hands a task over twice. -/
  distinct : ∀ e ∈ trace, (handedOver e.handovers).Nodup
  /-- When a priority task is handed over, every earlier handover of it was given back unread. -/
  returned : ∀ first x rest e future, trace = first ++ x :: (rest ++ e :: future) →
    ∀ g ∈ x.handovers, g.task.kind = .priority → g.task.id ∈ handedOver e.handovers →
      Returned g (rest ++ [e])

/-- A task is with a worker, or it is gone for good. -/
def Settled (s : Scheduler) (id : TaskId) : Prop :=
  id.value < s.nextId.value ∧ (id ∈ s.inFlight ∨ id ∉ s.tasks)

/-- What has become of a priority task after some events. -/
inductive Custody (id : TaskId) (past : List Event) (s : Scheduler) : Prop where
  /-- Nobody has it: whoever it was handed over to has given it back unread. -/
  | free :
      (∀ c t, s.polls.held? c = some [t] → t.id ≠ id) →
      id ∉ obtainedBy past →
      (∀ first x rest, past = first ++ x :: rest → ∀ g ∈ x.handovers, g.task.id = id →
        Returned g rest) →
      Custody id past s
  /-- It was handed over to a worker that has not read it, and may have left. -/
  | unread (c : ConnectionId) (t : Task) :
      (∀ d u, s.polls.held? d = some [u] → u.id = id → d = c ∧ u = t) →
      id ∉ obtainedBy past →
      Settled s id →
      (∀ first x rest, past = first ++ x :: rest → ∀ g ∈ x.handovers, g.task.id = id →
        Returned g rest ∨ g = ⟨t, some c⟩) →
      Custody id past s
  /-- A worker has read it. -/
  | read :
      (∀ c t, s.polls.held? c = some [t] → t.id ≠ id) →
      (obtainedBy past).count id ≤ 1 →
      Settled s id →
      Custody id past s

variable {e : Event} {past : List Event} {id : TaskId} {t : Task} {g : Handover}
  {c : ConnectionId} {lane : Lane} {tasks : List Task}

theorem Returned.mono {events more : List Event} (h : Returned g events)
    (hsub : ∀ d ∈ events, d ∈ more) : Returned g more := by
  obtain ⟨c, hc, d, hd, hop⟩ := h
  exact ⟨c, hc, d, hsub d hd, hop⟩

/-- What holds of each of some events, and of those that follow it, when one more follows. -/
theorem forall_split_concat {p : Event → List Event → Prop} :
    (∀ first x rest, past ++ [e] = first ++ x :: rest → p x rest) ↔
      (∀ first x rest, past = first ++ x :: rest → p x (rest ++ [e])) ∧ p e [] := by
  constructor
  · intro h
    refine ⟨fun first x rest hpast => h first x (rest ++ [e]) (by simp [hpast]), h past e [] rfl⟩
  · rintro ⟨hpast, hlast⟩ first x rest hsplit
    rcases List.eq_nil_or_concat rest with rfl | ⟨rest, y, rfl⟩
    · obtain ⟨-, hx⟩ := List.append_inj' hsplit rfl
      obtain rfl : e = x := by simpa using hx
      exact hlast
    · rw [List.concat_eq_append, ← List.cons_append, ← List.append_assoc] at hsplit
      obtain ⟨hpre, hy⟩ := List.append_inj' hsplit rfl
      obtain rfl : e = y := by simpa using hy
      rw [List.concat_eq_append]
      exact hpast first x rest hpre

/-! ### What workers read -/

/-- A worker reads what has come, or its connection is abandoned, and then nothing is left there. -/
theorem Event.held?_of_reads (hs : Sound e.before ∅)
    (hop : e.op = .readPoll c ∨ ∃ lane, e.op = .releasePoll lane c ∨ e.op = .abandonPoll lane c) :
    e.after.polls.held? c = none := by
  obtain ⟨mid, he⟩ := e.enters hs
  have hpolls : mid.polls = (e.before.polls.take c).2 := by
    rw [he.polls, polls]
    rcases hop with hop | ⟨lane, hop | hop⟩ <;> rw [hop]
  rcases he.shifts.handed c with ⟨-, hside⟩ | ⟨t, _, _, hlog, -⟩
  · rw [Switchboard.held?_congr hside, hpolls, Switchboard.held?_take]
  · have hmem : ⟨t, some c⟩ ∈ e.handovers := mem_handedTo.mp (hlog ▸ List.mem_singleton_self t)
    rcases hop with hop | ⟨lane, hop | hop⟩
    · simp [handovers, listed, hop] at hmem
    · simp [handovers, listed, hop] at hmem
    · obtain ⟨-, d, hne, hd⟩ := exists_of_mem_handovers hs hop hmem
      exact absurd (Option.some.inj hd).symm hne

/-- A worker obtains what it is given as it polls, or what had come and was not read so far. -/
theorem Event.obtained_cases (e : Event) :
    e.handovers = e.obtained.map (⟨·, none⟩) ∨
      (∃ c, e.before.polls.held? c = some e.obtained ∧
        (e.op = .readPoll c ∨ ∃ lane, e.op = .releasePoll lane c)) ∨
      e.obtained = [] := by
  rw [obtained]
  split
  · next tasks houtcome => exact Or.inl (e.handovers_of_dispatched houtcome)
  · next tasks houtcome =>
    refine Or.inr (Or.inl ?_)
    obtain ⟨s, now, op⟩ := e
    cases op with
    | readPoll c =>
      have hread : (s.polls.take c).1 = some tasks := Outcome.tasks.inj houtcome
      exact ⟨c, (s.polls.take_fst c).symm.trans hread, Or.inl rfl⟩
    | releasePoll lane c =>
      have hread : (s.polls.take c).1 = some tasks := Outcome.tasks.inj houtcome
      exact ⟨c, (s.polls.take_fst c).symm.trans hread, Or.inr ⟨lane, rfl⟩⟩
    | enqueueBatch requests =>
      rw [outcome, step] at houtcome
      split at houtcome <;> cases houtcome
    | _ => cases houtcome
  · exact Or.inr (Or.inr rfl)

theorem Event.obtained_of_abandonPoll (hop : e.op = .abandonPoll lane c) : e.obtained = [] := by
  obtain ⟨s, now, op⟩ := e
  cases hop
  rfl

/-! ### When a priority task is taken back -/

/-- A priority task has no lease and its worker is not reported lost, so it is only taken back where
it is unread. -/
theorem Event.unread_of_requeued (hs : Sound e.before ∅)
    (hkind : ∀ t, e.before.tasks[id]? = some t → t.kind = .priority)
    (hop : ∀ tasks, e.op ≠ .returnUndelivered tasks) (hid : id ∈ e.requeued) :
    ∃ c, (∃ lane, e.op = .abandonPoll lane c) ∧
      ∃ tasks, e.before.polls.held? c = some tasks ∧ ∃ t ∈ tasks, t.id = id := by
  obtain ⟨hlisted, hflight⟩ := Finset.mem_filter.mp hid
  rw [List.mem_toFinset] at hlisted
  obtain ⟨t, ht⟩ := exists_of_mem_tasks (hs.mem_tasks_of_inFlight hflight)
  obtain ⟨s, now, op⟩ := e
  cases op with
  | abandonPoll lane c =>
    refine ⟨c, ⟨lane, rfl⟩, ?_⟩
    cases hheld : s.polls.held? c with
    | none => simp [listed, hheld] at hlisted
    | some tasks => exact ⟨tasks, rfl, by simpa [listed, hheld] using hlisted⟩
  | reportLost x =>
    simp only [listed] at hlisted
    split at hlisted
    · next hawaits =>
      obtain rfl := List.mem_singleton.mp hlisted
      simp [awaitsAcknowledgment, ht, Task.isRegional, hkind t ht] at hawaits
    · cases hlisted
  | requeueExpired x =>
    obtain ⟨u, hu, hregional⟩ := hs.regional_of_expired hlisted
    cases (hkind u hu).symm.trans hregional
  | returnUndelivered tasks => exact absurd rfl (hop tasks)
  | _ => cases hlisted

/-! ### One event -/

theorem obtainedBy_concat (past : List Event) (e : Event) :
    obtainedBy (past ++ [e]) = obtainedBy past ++ e.obtained.map (·.id) := by
  simp [obtainedBy]

theorem settled_of_handedOver (hs : Sound e.before ∅) (hid : id ∈ handedOver e.handovers) :
    Settled e.after id := by
  obtain ⟨g, hg, rfl⟩ := mem_handedOver.mp hid
  have hflight := (e.gives hs hg).inFlight
  have hafter := e.sound_after hs
  exact ⟨(hafter.numbered.below (hafter.mem_tasks_of_inFlight hflight)).2, Or.inl hflight⟩

/-- What can be read after an event could be read before, or has just been handed over. -/
theorem Event.held?_or_handed (hs : Sound e.before ∅) (h : e.after.polls.held? c = some [t]) :
    e.before.polls.held? c = some [t] ∨ ⟨t, some c⟩ ∈ e.handovers := by
  by_cases hbefore : e.before.polls.held? c = some [t]
  · exact Or.inl hbefore
  · obtain ⟨u, hu, hmem⟩ := (e.received hs).mp ⟨h, hbefore⟩
    obtain rfl := List.singleton_inj.mp hu
    exact Or.inr hmem

section

variable (hs : Sound e.before ∅)
  (hsingle : ∀ c tasks, e.before.polls.held? c = some tasks → ∃ t, tasks = [t])

include hs hsingle

/-- A task that a worker obtains is handed over to it at once, or is all that it had not read. -/
theorem Event.of_mem_obtained (ht : t ∈ e.obtained) : ⟨t, none⟩ ∈ e.handovers ∨
    ∃ c, e.before.polls.held? c = some [t] ∧ e.after.polls.held? c = none := by
  rcases e.obtained_cases with hlog | ⟨c, hheld, hop⟩ | hnone
  · exact Or.inl (hlog ▸ List.mem_map_of_mem ht)
  · obtain ⟨u, hu⟩ := hsingle c _ hheld
    obtain rfl : t = u := by simpa [hu] using ht
    refine Or.inr ⟨c, hu ▸ hheld, held?_of_reads hs ?_⟩
    exact hop.imp_right fun ⟨lane, hop⟩ => ⟨lane, Or.inl hop⟩
  · rw [hnone] at ht
    cases ht

/-- No worker obtains a task twice by an event. -/
theorem Event.nodup_obtained : (e.obtained.map (·.id)).Nodup := by
  rcases e.obtained_cases with hlog | ⟨c, hheld, -⟩ | hnone
  · have hnodup := e.nodup_handedOver hs
    rw [hlog, handedOver, List.map_map] at hnodup
    exact hnodup
  · obtain ⟨t, ht⟩ := hsingle c _ hheld
    simp [ht]
  · simp [hnone]

/-- A task that is with a worker or gone, and is not taken back, stays so and is handed over to
nobody; whoever reads it now had it unread. -/
theorem Settled.quiet (h : Settled e.before id) (hid : id ∉ e.requeued) :
    Settled e.after id ∧ (∀ g ∈ e.handovers, g.task.id ≠ id) ∧
      (∀ c t, e.after.polls.held? c = some [t] → t.id = id →
        e.before.polls.held? c = some [t]) ∧
      (id ∈ e.obtained.map (·.id) → ∃ c t, e.before.polls.held? c = some [t] ∧ t.id = id ∧
        e.after.polls.held? c = none) := by
  obtain ⟨hbelow, hsettled⟩ := h
  obtain ⟨hnot, hafter⟩ := e.kept hs hbelow hsettled hid
  have hnext := (e.numbers hs).2
  have hnone : ∀ g ∈ e.handovers, g.task.id ≠ id := fun g hg hg' =>
    hnot (mem_handedOver.mpr ⟨g, hg, hg'⟩)
  refine ⟨⟨by omega, hafter⟩, hnone, fun c t hheld ht => ?_, fun hmem => ?_⟩
  · exact (e.held?_or_handed hs hheld).resolve_right fun hhanded => hnone _ hhanded ht
  · obtain ⟨t, ht, hid'⟩ := List.mem_map.mp hmem
    obtain ⟨c, hheld, hempty⟩ :=
      (e.of_mem_obtained hs hsingle ht).resolve_left fun hhanded => hnone _ hhanded hid'
    exact ⟨c, t, hheld, hid', hempty⟩

/-- When all handovers so far were given back, and what is unread is just being handed over,
someone may be given the task once more. -/
theorem custody_of_returned
    (hnews : ∀ c t, e.after.polls.held? c = some [t] → t.id = id → ⟨t, some c⟩ ∈ e.handovers)
    (hpast : id ∉ obtainedBy past)
    (hread : ∀ t ∈ e.obtained, t.id = id → ⟨t, none⟩ ∈ e.handovers)
    (hback : ∀ first x rest, past = first ++ x :: rest → ∀ g ∈ x.handovers, g.task.id = id →
      Returned g (rest ++ [e])) : Custody id (past ++ [e]) e.after := by
  by_cases hid : id ∈ handedOver e.handovers
  · have hsettled := settled_of_handedOver hs hid
    obtain ⟨g, hg, hgid⟩ := mem_handedOver.mp hid
    have hunique : ∀ g' ∈ e.handovers, g'.task.id = id → g' = g := fun g' hg' hid' =>
      List.inj_on_of_nodup_map (e.nodup_handedOver hs) hg' hg (hid'.trans hgid.symm)
    obtain ⟨t, receiver⟩ := g
    cases receiver with
    | none =>
      refine .read (fun c u hheld hu => ?_) ?_ hsettled
      · cases hunique _ (hnews c u hheld hu) hu
      · rw [obtainedBy_concat, List.count_append, List.count_eq_zero.mpr hpast, Nat.zero_add]
        exact List.nodup_iff_count_le_one.mp (e.nodup_obtained hs hsingle) id
    | some c =>
      refine .unread c t (fun d u hheld hu => ?_) ?_ hsettled ?_
      · cases hunique _ (hnews d u hheld hu) hu
        exact ⟨rfl, rfl⟩
      · rw [obtainedBy_concat, List.mem_append, not_or]
        refine ⟨hpast, fun hmem => ?_⟩
        obtain ⟨u, hu, hid'⟩ := List.mem_map.mp hmem
        cases hunique _ (hread u hu hid') hid'
      · exact forall_split_concat.mpr ⟨fun first x rest hpast g hg hid' =>
          Or.inl (hback first x rest hpast g hg hid'), fun g hg hid' => Or.inr (hunique g hg hid')⟩
  · have hnone : ∀ g ∈ e.handovers, g.task.id ≠ id := fun g hg hg' =>
      hid (mem_handedOver.mpr ⟨g, hg, hg'⟩)
    refine .free (fun c t hheld ht => hnone _ (hnews c t hheld ht) ht) ?_ ?_
    · rw [obtainedBy_concat, List.mem_append, not_or]
      refine ⟨hpast, fun hmem => ?_⟩
      obtain ⟨u, hu, hid'⟩ := List.mem_map.mp hmem
      exact hnone _ (hread u hu hid') hid'
    · exact forall_split_concat.mpr ⟨hback, fun g hg hid' => absurd hid' (hnone g hg)⟩

section

variable (h : Custody id past e.before)
  (hkind : ∀ t, e.before.tasks[id]? = some t → t.kind = .priority)
  (hop : ∀ tasks, e.op ≠ .returnUndelivered tasks)

include h hkind hop

/-- A priority task is taken back where it is unread, and nowhere else was it left. -/
theorem Custody.recalled (hid : id ∈ e.requeued) :
    id ∉ obtainedBy past ∧ e.obtained = [] ∧
      (∀ c t, e.after.polls.held? c = some [t] → t.id = id → ⟨t, some c⟩ ∈ e.handovers) ∧
      ∀ first x rest, past = first ++ x :: rest → ∀ g ∈ x.handovers, g.task.id = id →
        Returned g (rest ++ [e]) := by
  obtain ⟨c, ⟨lane, hop⟩, tasks, hheld, t, ht, hid⟩ := e.unread_of_requeued hs hkind hop hid
  obtain ⟨u, rfl⟩ := hsingle c tasks hheld
  obtain rfl := List.mem_singleton.mp ht
  have hempty := e.held?_of_reads hs (Or.inr ⟨lane, Or.inr hop⟩)
  cases h with
  | free hunread => exact absurd hid (hunread c t hheld)
  | read hunread => exact absurd hid (hunread c t hheld)
  | unread d u hunread hpast _ hback =>
    obtain ⟨rfl, rfl⟩ := hunread c t hheld hid
    refine ⟨hpast, e.obtained_of_abandonPoll hop, fun d v hheld' hv => ?_,
      fun first x rest hpast g hg hid => ?_⟩
    · refine (e.held?_or_handed hs hheld').resolve_left fun hbefore => ?_
      obtain ⟨rfl, rfl⟩ := hunread d v hbefore hv
      rw [hempty] at hheld'
      cases hheld'
    · rcases hback first x rest hpast g hg hid with hreturned | rfl
      · exact hreturned.mono (by simp_all)
      · exact ⟨c, rfl, e, by simp, ⟨lane, hop⟩, hheld⟩

theorem Custody.after : Custody id (past ++ [e]) e.after := by
  by_cases hid : id ∈ e.requeued
  · obtain ⟨hpast, hnone, hnews, hback⟩ := h.recalled hs hsingle hkind hop hid
    exact custody_of_returned hs hsingle hnews hpast (by simp [hnone]) hback
  cases h with
  | free hunread hpast hback =>
    refine custody_of_returned hs hsingle (fun c t hheld ht => ?_) hpast (fun t ht hid => ?_)
      fun first x rest hpast g hg hid => (hback first x rest hpast g hg hid).mono (by simp_all)
    · exact (e.held?_or_handed hs hheld).resolve_left fun hbefore => hunread c t hbefore ht
    · refine (e.of_mem_obtained hs hsingle ht).resolve_right ?_
      rintro ⟨c, hbefore, -⟩
      exact hunread c t hbefore hid
  | unread c t hunread hpast hsettled hback =>
    obtain ⟨hsettled', hnone, hkeeps, hreads⟩ := hsettled.quiet hs hsingle hid
    by_cases hmem : id ∈ e.obtained.map (·.id)
    · obtain ⟨d, u, hbefore, hu, hempty⟩ := hreads hmem
      obtain ⟨rfl, rfl⟩ := hunread d u hbefore hu
      refine .read (fun d' v hheld hv => ?_) ?_ hsettled'
      · obtain ⟨rfl, rfl⟩ := hunread d' v (hkeeps d' v hheld hv) hv
        rw [hempty] at hheld
        cases hheld
      · rw [obtainedBy_concat, List.count_append, List.count_eq_zero.mpr hpast, Nat.zero_add]
        exact List.nodup_iff_count_le_one.mp (e.nodup_obtained hs hsingle) id
    · refine .unread c t (fun d u hheld hu => hunread d u (hkeeps d u hheld hu) hu) ?_ hsettled' ?_
      · rw [obtainedBy_concat, List.mem_append, not_or]
        exact ⟨hpast, hmem⟩
      · exact forall_split_concat.mpr ⟨fun first x rest hpast g hg hid =>
          (hback first x rest hpast g hg hid).imp_left fun h => h.mono (by simp_all),
          fun g hg hid => absurd hid (hnone g hg)⟩
  | read hunread hcount hsettled =>
    obtain ⟨hsettled', -, hkeeps, hreads⟩ := hsettled.quiet hs hsingle hid
    refine .read (fun c t hheld ht => hunread c t (hkeeps c t hheld ht) ht) ?_ hsettled'
    have hmem : id ∉ e.obtained.map (·.id) := by
      intro hmem
      obtain ⟨c, t, hbefore, ht, -⟩ := hreads hmem
      exact hunread c t hbefore ht
    rwa [obtainedBy_concat, List.count_append, List.count_eq_zero.mpr hmem]

/-- A priority task is handed over only if it was given back wherever it was handed over before. -/
theorem Custody.returned (hid : id ∈ handedOver e.handovers) :
    ∀ first x rest, past = first ++ x :: rest → ∀ g ∈ x.handovers, g.task.id = id →
      Returned g (rest ++ [e]) := by
  by_cases hback : id ∈ e.requeued
  · exact (h.recalled hs hsingle hkind hop hback).2.2.2
  have hnot : ¬ Settled e.before id := by
    intro hsettled
    obtain ⟨g, hg, hgid⟩ := mem_handedOver.mp hid
    exact (hsettled.quiet hs hsingle hback).2.1 g hg hgid
  cases h with
  | free _ _ hback =>
    exact fun first x rest hpast g hg hid =>
      (hback first x rest hpast g hg hid).mono (by simp_all)
  | unread _ _ _ _ hsettled => exact absurd hsettled hnot
  | read _ _ hsettled => exact absurd hsettled hnot

end

end

/-! ### Every run -/

section

variable {limits : Limits} {steps : List (Moment × Operation)}

/-- What is handed over was accepted. -/
theorem accepted_of_mem_handovers (he : e ∈ (new limits).trace steps) (hg : g ∈ e.handovers) :
    g.task.asAccepted ∈ ((new limits).trace steps).flatMap (·.entry.tasks) := by
  have hs := sound_of_mem_trace he
  obtain ⟨past, future, hsplit⟩ := List.append_of_mem he
  obtain ⟨xs, -, rfl, hbefore, -⟩ := trace_split hsplit
  rw [hsplit, List.flatMap_append, List.flatMap_cons, List.mem_append, List.mem_append]
  rcases (e.roll_iff hs).mp (roll?_of_task (e.gives hs hg).entry) with ⟨hroll, -⟩ | ⟨hnew, -⟩
  · exact Or.inl (mem_accepted_run limits xs (hbefore ▸ hroll))
  · exact Or.inr (Or.inl hnew)

/-- No two tasks are accepted under one number. -/
theorem eq_of_accepted {u : Task} (ht : t ∈ ((new limits).trace steps).flatMap (·.entry.tasks))
    (hu : u ∈ ((new limits).trace steps).flatMap (·.entry.tasks)) (hid : u.id = t.id) : u = t := by
  refine List.inj_on_of_nodup_map ?_ hu ht hid
  rw [numbered_run]
  exact nodup_numbersFrom ..

/-- Whoever has the number of an accepted task is this task. -/
theorem kind_of_accepted (ht : t ∈ ((new limits).trace steps).flatMap (·.entry.tasks)) :
    ∀ e ∈ (new limits).trace steps, ∀ u, e.before.tasks[t.id]? = some u → u.kind = t.kind := by
  intro e he u hu
  obtain ⟨past, future, hsplit⟩ := List.append_of_mem he
  obtain ⟨xs, -, rfl, hbefore, -⟩ := trace_split hsplit
  have hmem := mem_accepted_run limits xs (hbefore ▸ roll?_of_task hu)
  have hmem' : u.asAccepted ∈ ((new limits).trace steps).flatMap (·.entry.tasks) := by
    rw [hsplit, List.flatMap_append]
    exact List.mem_append_left _ hmem
  have hid : u.id = t.id := (sound_of_mem_trace he).placed.key hu
  obtain rfl := eq_of_accepted ht hmem' hid
  rfl

/-- What a worker has not read is one task. -/
theorem single_of_mem_trace (he : e ∈ (new limits).trace steps)
    (hheld : e.before.polls.held? c = some tasks) : ∃ t, tasks = [t] := by
  obtain ⟨xs, hbefore⟩ := exists_run_of_mem he
  obtain ⟨t, ht, -⟩ := unread_run limits xs (hbefore ▸ hheld)
  exact ⟨t, ht⟩

theorem custody_run (hops : ∀ e ∈ (new limits).trace steps, ∀ tasks,
      e.op ≠ .returnUndelivered tasks)
    (hkind : ∀ e ∈ (new limits).trace steps, ∀ t, e.before.tasks[id]? = some t →
      t.kind = .priority) :
    Custody id ((new limits).trace steps) ((new limits).run steps) := by
  refine (Sound.new limits).trace_induction (P := Custody id) ?_ ?_
  · refine .free (fun c t hheld => ?_) (by simp [obtainedBy]) (by simp)
    simp [Scheduler.new, Switchboard.held?, Switchboard.empty] at hheld
  · exact fun past e he hs h => h.after hs (fun c tasks => single_of_mem_trace he) (hkind e he)
      (hops e he)

end

/-- As long as nobody returns tasks that were read, priority tasks are read once, in every run. -/
theorem readOnce_run (limits : Limits) (steps : List (Moment × Operation))
    (hsteps : ∀ x ∈ steps, ∀ tasks, x.2 ≠ .returnUndelivered tasks) :
    ReadOnce ((new limits).trace steps) := by
  have hops : ∀ e ∈ (new limits).trace steps, ∀ tasks, e.op ≠ .returnUndelivered tasks :=
    fun e he => hsteps _ (mem_steps_of_mem_trace he)
  refine ⟨fun t ht hkind => ?_, fun e he => e.nodup_handedOver (sound_of_mem_trace he), ?_⟩
  · have hcustody : Custody t.id ((new limits).trace steps) ((new limits).run steps) :=
      custody_run hops fun e he u hu => (kind_of_accepted ht e he u hu).trans hkind
    cases hcustody with
    | free _ hnone => exact (List.count_eq_zero.mpr hnone).trans_le (Nat.zero_le 1)
    | unread _ _ _ hnone => exact (List.count_eq_zero.mpr hnone).trans_le (Nat.zero_le 1)
    | read _ hcount => exact hcount
  · intro first x rest e future hsplit g hg hkind hid
    have hx : x ∈ (new limits).trace steps := hsplit ▸ List.mem_append_cons_self
    have hkinds : ∀ d ∈ (new limits).trace steps, ∀ u, d.before.tasks[g.task.id]? = some u →
        u.kind = .priority := fun d hd u hu =>
      (kind_of_accepted (accepted_of_mem_handovers hx hg) d hd u hu).trans hkind
    have hsplit' : (new limits).trace steps = (first ++ x :: rest) ++ e :: future := by
      rw [hsplit, List.append_assoc, List.cons_append]
    have he : e ∈ (new limits).trace steps := hsplit' ▸ List.mem_append_cons_self
    obtain ⟨xs, -, hxs, hbefore, -⟩ := trace_split hsplit'
    have hsub : ∀ d ∈ (new limits).trace xs, d ∈ (new limits).trace steps := fun d hd => by
      rw [hsplit', ← hxs]
      exact List.mem_append_left _ hd
    have hcustody : Custody g.task.id ((new limits).trace xs) e.before :=
      hbefore ▸ custody_run (fun d hd => hops d (hsub d hd)) fun d hd => hkinds d (hsub d hd)
    exact hcustody.returned (sound_of_mem_trace he) (fun c tasks => single_of_mem_trace he)
      (hkinds e he) (hops e he) hid first x rest hxs g hg rfl

/-- Two workers wait, and the first is given a task that it does not read.  Its connection is
abandoned, and the second worker reads the task; a third one waits in vain. -/
def handedOn : List (Moment × Operation) :=
  [.openPoll, .poll ⟨.priority, ⟨"graph", "1"⟩⟩ ⟨0⟩, .openPoll,
    .poll ⟨.priority, ⟨"graph", "1"⟩⟩ ⟨1⟩, .openRequest,
    .submit ⟨none, ⟨"graph", "1"⟩, default⟩ ⟨0⟩,
    .abandonPoll ⟨.priority, ⟨"graph", "1"⟩⟩ ⟨0⟩, .readPoll ⟨1⟩, .requeueExpired Instant.last,
    .openPoll, .poll ⟨.priority, ⟨"graph", "1"⟩⟩ ⟨2⟩].map fun op => (default, op)

/-- The task is handed over twice and read once. -/
theorem readOnce_handedOn : (∀ x ∈ handedOn, ∀ tasks, x.2 ≠ .returnUndelivered tasks) ∧
    ReadOnce ((new .standard).trace handedOn) ∧
    handedOver (handoversOf ((new .standard).trace handedOn)) = [⟨1⟩, ⟨1⟩] ∧
    obtainedBy ((new .standard).trace handedOn) = [⟨1⟩] := by
  have hsteps : ∀ x ∈ handedOn, ∀ tasks, x.2 ≠ .returnUndelivered tasks := by simp [handedOn]
  exact ⟨hsteps, readOnce_run _ _ hsteps, by decide +kernel⟩

end TaskExchange.Scheduler
