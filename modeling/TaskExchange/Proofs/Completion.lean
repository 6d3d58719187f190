import TaskExchange.Proofs.Abandonment
import TaskExchange.Proofs.Account
import TaskExchange.Proofs.Leasing

/-!
Completion: which tasks are counted as completed.  Main statement: `completions_run`.  In every run
the completion of a task is acknowledged if it is a regional one that is there, and its job counts
it.  The task is with a worker, or it was with one and waits again since it was taken back.  Nothing
keeps it from being a third kind of task, one that no worker was ever given: such a task is counted
as completed all the same (`not_onlyDelivered`).
-/

namespace TaskExchange.Scheduler

/-- A task is given to a worker, or taken back from one. -/
def Event.Moves (e : Event) (id : TaskId) : Prop := e.Hands id ∨ id ∈ e.requeued

/-- Only what a worker was given is acknowledged as completed. -/
def OnlyDelivered (trace : List Event) : Prop :=
  ∀ past e future, trace = past ++ e :: future → ∀ id, e.acknowledged? = some id →
    ∃ d ∈ past, d.Hands id

/-- What has become of a task that is there after some events. -/
inductive Whereabouts (past : List Event) (s : Scheduler) (id : TaskId) : Prop where
  /-- It is with the worker that it was given to last. -/
  | out {d : Event} : Latest (·.Moves id) past d → d.Hands id → id ∈ s.inFlight →
      Whereabouts past s id
  /-- It waits, since it was taken back from a worker and no other received it. -/
  | back {d : Event} : (∃ x ∈ past, x.Hands id) → Latest (·.Moves id) past d → id ∈ d.requeued →
      ¬ d.Hands id → id ∉ s.inFlight → Whereabouts past s id
  /-- It waits, and no worker was ever given it. -/
  | fresh : (∀ x ∈ past, ¬ x.Hands id) → id ∉ s.inFlight → Whereabouts past s id

/-- After some events the completion of a task is acknowledged. -/
structure Completion (past : List Event) (e : Event) (id : TaskId) : Prop where
  /-- Its job counts one completed task more. -/
  counted : ∃ t job j j', e.before.tasks[id]? = some t ∧ t.kind = .regional ∧ t.job = some job ∧
    e.before.jobs[job]? = some j ∧ e.after.jobs[job]? = some j' ∧ j'.completed = j.completed + 1
  gone : id ∉ e.after.tasks
  whereabouts : Whereabouts past e.before id

/-- What is counted as completed, in a run with these events. -/
structure Completions (trace : List Event) : Prop where
  /-- It is no matter of an acknowledgment whether a worker was ever given the task. -/
  answered : ∀ e ∈ trace, ∀ id, e.op = .acknowledge id →
    (e.outcome = .found true ↔ ∃ t, e.before.tasks[id]? = some t ∧ t.kind = .regional)
  acknowledged : ∀ e ∈ trace, ∀ id,
    e.acknowledged? = some id ↔ e.op = .acknowledge id ∧ e.outcome = .found true
  each : ∀ past e future, trace = past ++ e :: future → ∀ id, e.acknowledged? = some id →
    Completion past e id

variable {now : Moment} {s : Scheduler} {past : List Event} {e : Event} {id : TaskId} {t t' : Task}

/-! ### Where the tasks are -/

/-- A task with deliveries that no worker is given had them before. -/
theorem Event.deliveries_pos_before (hs : Sound e.before ∅) (h : ¬ e.Hands id)
    (ht' : e.after.tasks[id]? = some t') (hpos : 0 < t'.deliveries) :
    ∃ t, e.before.tasks[id]? = some t ∧ 0 < t.deliveries := by
  obtain ⟨mid, he⟩ := e.enters hs
  rw [(he.shifts.unchanged (mt (e.hands_iff hs).mpr h)).1] at ht'
  rcases (he.enters.renewal hs).task ht' with ⟨t, ht, -, hdeliveries⟩ | ⟨-, hzero⟩
  · exact ⟨t, ht, hdeliveries ▸ hpos⟩
  · omega

/-- A task with deliveries is with a worker if it was given out when it last moved, and waits if it
was only taken back. -/
def Moved (past : List Event) (s : Scheduler) : Prop :=
  ∀ {id : TaskId} {t : Task}, s.tasks[id]? = some t → 0 < t.deliveries →
    ∃ d, Latest (·.Moves id) past d ∧ (id ∈ s.inFlight ↔ d.Hands id)

theorem Moved.after (hm : Moved past e.before) (hs : Sound e.before ∅) :
    Moved (past ++ [e]) e.after := by
  intro id t' ht' hpos
  by_cases hhands : e.Hands id
  · obtain ⟨_, -, hlease⟩ := e.lease_of_hands hs hhands
    have hid := (Std.ExtTreeMap.getElem?_eq_some_iff.mp hlease).1
    exact ⟨e, .last (Or.inl hhands), iff_of_true hid hhands⟩
  · by_cases hback : id ∈ e.requeued
    · have hid := e.notMem_inFlight_of_hand hs (Finset.mem_union_right _ hback) hhands
      exact ⟨e, .last (Or.inr hback), iff_of_false hid hhands⟩
    · obtain ⟨t, ht, hbefore⟩ := Event.deliveries_pos_before hs hhands ht' hpos
      obtain ⟨d, hlatest, hiff⟩ := hm ht hbefore
      refine ⟨d, hlatest.concat (not_or.mpr ⟨hhands, hback⟩), ?_⟩
      rw [← hiff]
      constructor
      · intro hid
        obtain ⟨lease, hlease⟩ := Option.isSome_iff_exists.mp
          (Std.ExtTreeMap.mem_iff_isSome_getElem?.mp hid)
        exact (Std.ExtTreeMap.getElem?_eq_some_iff.mp (e.lease_of_not_hands hs hhands hlease)).1
      · intro hid
        have hbelow := (hs.numbered.below (mem_tasks ht)).2
        exact (e.kept hs hbelow (Or.inl hid) hback).2.resolve_right (not_not.mpr (mem_tasks ht'))

theorem moved_run (limits : Limits) (steps : List (Moment × Operation)) :
    Moved ((new limits).trace steps) ((new limits).run steps) := by
  refine (Sound.new limits).trace_induction (P := Moved) (fun ht => ?_) fun past e _ hs hm =>
    hm.after hs
  simp [Scheduler.new] at ht

/-- Who was given a task in a run finds it among the handovers. -/
theorem hands_trace_iff {limits : Limits} {steps : List (Moment × Operation)} :
    (∃ x ∈ (new limits).trace steps, x.Hands id) ↔
      id ∈ handedOver (handoversOf ((new limits).trace steps)) := by
  simp only [handedOver, handoversOf, List.map_flatMap, List.mem_flatMap]
  exact exists_congr fun x => and_congr_right fun hx => x.hands_iff (sound_of_mem_trace hx)

theorem whereabouts_run (limits : Limits) (steps : List (Moment × Operation))
    (ht : ((new limits).run steps).tasks[id]? = some t) :
    Whereabouts ((new limits).trace steps) ((new limits).run steps) id := by
  have ho := orderly_run limits steps
  have hgiven := ho.logged.given ht
  rw [← hands_trace_iff] at hgiven
  rcases Nat.eq_zero_or_pos t.deliveries with hzero | hpos
  · refine .fresh (by simpa using hgiven.mp hzero) fun hid => ?_
    obtain ⟨u, hu, hstate⟩ := ho.sound.placed.inFlight.mp hid
    obtain rfl : t = u := Option.some.inj (ht.symm.trans hu)
    have hpos := ho.sound.placed.given ht hstate
    omega
  · obtain ⟨d, hlatest, hiff⟩ := moved_run limits steps ht hpos
    by_cases hid : id ∈ ((new limits).run steps).inFlight
    · exact .out hlatest (hiff.mp hid) hid
    · have hmoves : d.Moves id := hlatest.choose_spec.choose_spec.2.1
      have hnot := mt hiff.mpr hid
      refine .back ?_ hlatest (hmoves.resolve_left hnot) hnot hid
      exact not_not.mp (mt hgiven.mpr (Nat.ne_of_gt hpos))

/-! ### Acknowledgments -/

theorem Event.acknowledged?_eq_some_iff :
    e.acknowledged? = some id ↔ e.op = .acknowledge id ∧ e.outcome = .found true := by
  constructor
  · intro h
    have hentry := Event.entry_of_acknowledged h
    unfold Event.entry Entry.of at hentry
    split at hentry
    case h_3 hop houtcome =>
      cases hentry
      exact ⟨hop, houtcome⟩
    all_goals cases hentry
  · rintro ⟨hop, houtcome⟩
    simp [Event.acknowledged?, Event.entry, hop, houtcome, Entry.of]

theorem acknowledge?_isSome_iff : (s.acknowledge? id).isSome ↔
    ∃ t, s.tasks[id]? = some t ∧ t.kind = .regional := by
  cases ht : s.tasks[id]? with
  | none => simp [acknowledge?, ht]
  | some t => simp [acknowledge?, ht, Task.isRegional]

theorem Event.counted_of_acknowledged (hs : Sound e.before ∅) (h : e.acknowledged? = some id) :
    (∃ t job j j', e.before.tasks[id]? = some t ∧ t.kind = .regional ∧ t.job = some job ∧
      e.before.jobs[job]? = some j ∧ e.after.jobs[job]? = some j' ∧
        j'.completed = j.completed + 1) ∧ id ∉ e.after.tasks := by
  obtain ⟨-, -, -, hgone⟩ := e.of_acknowledged hs h
  refine ⟨?_, hgone⟩
  obtain ⟨mid, he⟩ := e.enters hs
  have henters := he.enters
  rw [e.entry_of_acknowledged h] at henters
  generalize e.hand = hand at henters
  cases henters with
  | acknowledge hmid =>
    obtain ⟨t, job, j, ht, rfl, hkind, hjob, hj, -, rfl⟩ :=
      acknowledge?_eq_some hs.placed hs.ledger hmid
    refine ⟨t, job, j,
      { j with outstanding := j.outstanding.erase t.id, completed := j.completed + 1 },
      ht, hkind, hjob, hj, ?_, rfl⟩
    rw [he.shifts.books.jobs]
    exact Std.ExtTreeMap.getElem?_insert_self

/-- In every run the completions that are acknowledged are of tasks that are there, and of any of
these. -/
theorem completions_run (limits : Limits) (steps : List (Moment × Operation)) :
    Completions ((new limits).trace steps) where
  answered e he id hop := by
    have houtcome : e.outcome = .found (e.before.acknowledge? id).isSome := by
      rw [Event.outcome, hop]
      rfl
    rw [houtcome, ← acknowledge?_isSome_iff]
    simp
  acknowledged _ _ _ := Event.acknowledged?_eq_some_iff
  each := by
    intro past e future hsplit id h
    have hs : Sound e.before ∅ := sound_of_mem_trace (hsplit ▸ List.mem_append_cons_self)
    obtain ⟨hcounted, hgone⟩ := Event.counted_of_acknowledged hs h
    obtain ⟨xs, -, rfl, hbefore, -⟩ := trace_split hsplit
    refine ⟨hcounted, hgone, ?_⟩
    obtain ⟨t, -, -, -, ht, -⟩ := hcounted
    rw [← hbefore] at ht ⊢
    exact whereabouts_run limits xs ht

/-! ### What no worker was given -/

/-- A task that waits for its first worker is counted as completed when somebody says so. -/
theorem not_onlyDelivered : ¬ OnlyDelivered ((new .standard).trace
    ([.enqueueBatch [⟨some ⟨"job"⟩, ⟨"graph", "1"⟩, default⟩], .acknowledge ⟨1⟩].map
      fun op => (default, op))) := by
  intro h
  have hgiven := h [_] _ [] rfl ⟨1⟩ (by decide +kernel)
  have hnone : (⟨1⟩ : TaskId) ∉ handedOver (handoversOf ((new .standard).trace
      [(default, .enqueueBatch [⟨some ⟨"job"⟩, ⟨"graph", "1"⟩, default⟩])])) := by decide +kernel
  exact hnone (hands_trace_iff.mp hgiven)

end TaskExchange.Scheduler
