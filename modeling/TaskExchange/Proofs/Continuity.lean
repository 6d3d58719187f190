import TaskExchange.Proofs.Roll

/-!
Continuity: no task is lost and none comes back.  Main statement: `continuity_run`.  In every run
the accepted tasks are numbered 1, 2, 3 and so on; a task stays as it was accepted until an event
ends it; and a task that has left is never in the table again, never counted among those taken back
from workers, and never given to a worker.
-/

namespace TaskExchange.Scheduler

namespace Event

/-- A worker is given a task: at once when it polls, or on the connection where it waits. -/
def Hands (e : Event) (id : TaskId) : Prop :=
  (∃ tasks, e.outcome = .polled (.dispatched tasks) ∧ id ∈ tasks.map Task.id) ∨
    ∃ c tasks, e.after.polls.held? c = some tasks ∧ e.before.polls.held? c ≠ some tasks ∧
      id ∈ tasks.map Task.id

end Event

/-- No task is lost and none comes back, in a run with these events and this last state. -/
structure Continuity (trace : List Event) (last : Scheduler) : Prop where
  /-- The accepted tasks are numbered from 1, in order of acceptance. -/
  numbered : (trace.flatMap (·.entry.tasks)).map Task.id =
    numbersFrom 1 (trace.flatMap (·.entry.tasks)).length
  /-- The caller is told the numbers, one for each request. -/
  told : ∀ e ∈ trace, ∀ ids, e.outcome = .accepted ids → e.entry.tasks.map Task.id = ids ∧
    ∀ requests, e.op = .enqueueBatch requests → ids.length = requests.length
  /-- Those in the table afterwards are those that were there, but for the ones that the event ends,
  and those that it accepts. -/
  stays : ∀ e ∈ trace, ∀ id t, e.after.roll? id = some t ↔
    (e.before.roll? id = some t ∧ ¬ e.entry.ends t) ∨ (t ∈ e.entry.tasks ∧ t.id = id)
  /-- An accepted task is in the table, as it was accepted, as long as no event ends it. -/
  kept : ∀ past e future, trace = past ++ e :: future → ∀ t ∈ e.entry.tasks,
    (∀ d ∈ future, ¬ d.entry.ends t) → last.roll? t.id = some t
  /-- As many are counted as are taken back. -/
  counted : ∀ e ∈ trace, ∀ n, e.outcome = .requeued n → n = e.requeued.card
  reported : ∀ e ∈ trace, ∀ id answer, e.op = .reportLost id → e.outcome = .found answer →
    (answer = true ↔ id ∈ e.requeued)
  /-- A task that has left is gone for good. -/
  gone : ∀ past e future, trace = past ++ e :: future → ∀ id ∈ e.before.tasks,
    id ∉ e.after.tasks → ∀ d ∈ future,
      id ∉ d.before.tasks ∧ id ∉ d.after.tasks ∧ id ∉ d.requeued ∧ ¬ d.Hands id

variable {limits : Limits} {steps : List (Moment × Operation)} {s : Scheduler} {now : Moment}
  {id : TaskId}

/-! ### Numbers -/

theorem numbered_run (limits : Limits) (steps : List (Moment × Operation)) :
    (((new limits).trace steps).flatMap (·.entry.tasks)).map Task.id =
      numbersFrom 1 (((new limits).trace steps).flatMap (·.entry.tasks)).length := by
  refine ((Sound.new limits).trace_induction (P := fun past s =>
    (past.flatMap (·.entry.tasks)).map Task.id =
      numbersFrom 1 (past.flatMap (·.entry.tasks)).length ∧
    s.nextId.value = 1 + (past.flatMap (·.entry.tasks)).length) ⟨rfl, rfl⟩ ?_).1
  rintro past e - hs ⟨hnumbers, hnext⟩
  obtain ⟨hids, hafter⟩ := e.numbers hs
  constructor
  · rw [List.flatMap_append, List.map_append, hnumbers, List.length_append, ← numbersFrom_append,
      ← hnext, List.flatMap_singleton, hids]
  · rw [List.flatMap_append, List.length_append, hafter, hnext, List.flatMap_singleton,
      Nat.add_assoc]

theorem Event.told (e : Event) (hs : Sound e.before ∅) {ids : List TaskId}
    (h : e.outcome = .accepted ids) : e.entry.tasks.map Task.id = ids ∧
      ∀ requests, e.op = .enqueueBatch requests → ids.length = requests.length := by
  obtain ⟨s, now, op⟩ := e
  change Sound s ∅ at hs
  have hentry : Event.entry ⟨s, now, op⟩ = .of now op (.accepted ids) := by rw [Event.entry, h]
  rw [hentry]
  cases op with
  | enqueueBatch requests =>
    have hlength : ids.length = requests.length := by
      cases htarget : s.targetOf requests with
      | error r => simp [Event.outcome, step, enqueueBatch, htarget, bind, Except.bind] at h
      | ok target =>
        obtain ⟨s', hresult, -⟩ := shifts_enqueueBatch now hs htarget
        rw [Event.outcome, step, hresult] at h
        cases h
        exact length_numbersFrom ..
    refine ⟨ids_batchTasks now hlength, ?_⟩
    rintro _ ⟨⟩
    exact hlength
  | submit r c =>
    refine ⟨?_, by rintro _ ⟨⟩⟩
    simp [Entry.of, Entry.tasks, Task.ofRequest, Function.comp_def]
  | _ => cases h

/-! ### Tasks that come back from workers -/

/-- What is told of tasks that come back is how many of them were with workers. -/
theorem requeueFront_fst (hs : Sound s ∅) (ids : List TaskId) :
    (s.requeueFront now ids).1 = (ids.toFinset.filter (· ∈ s.inFlight)).card := by
  obtain ⟨-, -, -, -, -, hcount⟩ := shifts_requeueFront now hs.placed ids
  exact hcount

theorem Event.counted (e : Event) (hs : Sound e.before ∅) {n : Nat}
    (h : e.outcome = .requeued n) : n = e.requeued.card := by
  obtain ⟨s, now, op⟩ := e
  change Sound s ∅ at hs
  cases op with
  | requeueExpired t =>
    cases h
    exact requeueFront_fst hs _
  | returnUndelivered tasks =>
    cases h
    exact requeueFront_fst hs _
  | abandonPoll lane c =>
    cases h
    have hreleased : Sound (s.releasePoll lane c).2 ∅ := hs.connections ..
    have hread : (s.releasePoll lane c).1 = s.polls.held? c := s.polls.take_fst c
    simp only [Event.requeued, Event.listed, abandonPoll]
    rw [← Prod.eta (s.releasePoll lane c), hread]
    cases hheld : s.polls.held? c with
    | none => simp
    | some tasks => exact requeueFront_fst hreleased _
  | enqueueBatch requests =>
    simp only [Event.outcome, step] at h
    split at h <;> cases h
  | _ => cases h

theorem Event.reported (e : Event) (hs : Sound e.before ∅) {answer : Bool}
    (hop : e.op = .reportLost id) (h : e.outcome = .found answer) :
    answer = true ↔ id ∈ e.requeued := by
  obtain ⟨s, now, op⟩ := e
  change Sound s ∅ at hs
  cases hop
  cases h
  cases hawaits : s.awaitsAcknowledgment id with
  | false => simp [reportLost, hawaits, Event.requeued, Event.listed]
  | true =>
    have hin : id ∈ s.inFlight := by
      simp only [awaitsAcknowledgment, Bool.and_eq_true] at hawaits
      exact Std.ExtTreeMap.contains_iff_mem.mp hawaits.1
    have hcount : (s.requeueFront now [id]).1 = 1 := by
      rw [requeueFront_fst hs, Finset.filter_true_of_mem (by simpa using hin)]
      simp
    simp [reportLost, hawaits, Event.requeued, Event.listed, hcount, hin]

/-! ### Tasks that stay and tasks that have left -/

theorem Event.stays_gone (e : Event) (hs : Sound e.before ∅)
    (hid : id.value < e.before.nextId.value) (hgone : id ∉ e.before.tasks) :
    id.value < e.after.nextId.value ∧ id ∉ e.after.tasks := by
  obtain ⟨-, hnext⟩ := e.numbers hs
  refine ⟨by omega, fun hin => ?_⟩
  obtain ⟨t, ht⟩ := mem_tasks_iff_roll?.mp hin
  rcases (e.roll_iff hs).mp ht with ⟨ht, -⟩ | ⟨hnew, rfl⟩
  · exact hgone (mem_tasks_iff_roll?.mpr ⟨t, ht⟩)
  · have hle := e.le_of_mem_tasks hs hnew
    omega

/-- A number that was given out and is not in the table is not there after any run. -/
theorem gone_run (hs : Sound s ∅) (hid : id.value < s.nextId.value) (hgone : id ∉ s.tasks) :
    id.value < (s.run steps).nextId.value ∧ id ∉ (s.run steps).tasks := by
  refine hs.trace_induction (P := fun _ s => id.value < s.nextId.value ∧ id ∉ s.tasks)
    ⟨hid, hgone⟩ ?_
  rintro past e - hs ⟨hid, hgone⟩
  exact e.stays_gone hs hid hgone

/-- A task that no event ends is in the table after any run. -/
theorem kept_run {t : Task} (hs : Sound s ∅) (ht : s.roll? id = some t)
    (hstay : ∀ d ∈ s.trace steps, ¬ d.entry.ends t) : (s.run steps).roll? id = some t := by
  refine hs.trace_induction (P := fun _ s => s.roll? id = some t) ht ?_
  intro past e he hs hbefore
  exact (e.roll_iff hs).mpr (Or.inl ⟨hbefore, hstay e he⟩)

/-- What a worker finds that it is given is what is handed over. -/
theorem Event.hands_iff (e : Event) (hs : Sound e.before ∅) :
    e.Hands id ↔ id ∈ handedOver e.handovers := by
  rw [mem_handedOver]
  constructor
  · rintro (⟨tasks, houtcome, hid⟩ | ⟨c, tasks, hafter, hbefore, hid⟩)
    · obtain ⟨t, ht, rfl⟩ := List.mem_map.mp hid
      refine ⟨⟨t, none⟩, ?_, rfl⟩
      rw [e.handovers_of_dispatched houtcome]
      exact List.mem_map_of_mem ht
    · obtain ⟨t, rfl, hmem⟩ := (e.received hs).mp ⟨hafter, hbefore⟩
      obtain rfl : id = t.id := by simpa using hid
      exact ⟨_, hmem, rfl⟩
  · rintro ⟨⟨t, receiver⟩, hg, rfl⟩
    cases receiver with
    | none =>
      obtain ⟨tasks, houtcome⟩ := e.dispatched_of_mem hg
      rw [e.handovers_of_dispatched houtcome, List.mem_map] at hg
      obtain ⟨u, hu, heq⟩ := hg
      obtain rfl : u = t := congrArg Handover.task heq
      exact Or.inl ⟨tasks, houtcome, List.mem_map_of_mem hu⟩
    | some c =>
      obtain ⟨hafter, hbefore⟩ := (e.received hs).mpr ⟨t, rfl, hg⟩
      exact Or.inr ⟨c, [t], hafter, hbefore, by simp⟩

/-- What a worker is given is in the table. -/
theorem Event.mem_tasks_of_hands (e : Event) (hs : Sound e.before ∅) (h : e.Hands id) :
    id ∈ e.after.tasks := by
  obtain ⟨mid, he⟩ := e.enters hs
  obtain ⟨g, hg, rfl⟩ := mem_handedOver.mp ((e.hands_iff hs).mp h)
  obtain ⟨t, ht, -⟩ := he.shifts.task_of_mem hg
  exact mem_tasks ht

/-- In a run from a state that does not have a task, no event has anything to do with it. -/
theorem gone_trace (hs : Sound s ∅) (hid : id.value < s.nextId.value) (hgone : id ∉ s.tasks)
    {d : Event} (hd : d ∈ s.trace steps) :
    id ∉ d.before.tasks ∧ id ∉ d.after.tasks ∧ id ∉ d.requeued ∧ ¬ d.Hands id := by
  obtain ⟨xs, hbefore⟩ := exists_run_of_mem hd
  have hsound : Sound d.before ∅ := hbefore ▸ hs.run xs
  obtain ⟨hbelow, hnot⟩ : id.value < d.before.nextId.value ∧ id ∉ d.before.tasks :=
    hbefore ▸ gone_run hs hid hgone
  have hafter := (d.stays_gone hsound hbelow hnot).2
  refine ⟨hnot, hafter, fun hin => ?_, fun hhands => hafter (d.mem_tasks_of_hands hsound hhands)⟩
  exact hnot (hsound.mem_tasks_of_inFlight (Finset.mem_filter.mp hin).2)

/-- No task is lost in any run, and none comes back. -/
theorem continuity_run (limits : Limits) (steps : List (Moment × Operation)) :
    Continuity ((new limits).trace steps) ((new limits).run steps) where
  numbered := numbered_run limits steps
  told e he ids h := e.told (sound_of_mem_trace he) h
  stays e he id t := e.roll_iff (sound_of_mem_trace he)
  kept := by
    intro past e future hsplit t ht hstay
    have hs : Sound e.before ∅ := sound_of_mem_trace (hsplit ▸ List.mem_append_cons_self)
    obtain ⟨-, ys, -, -, rfl, hlast⟩ := trace_split hsplit
    have hroll : e.after.roll? t.id = some t := (e.roll_iff hs).mpr (Or.inr ⟨ht, rfl⟩)
    exact hlast ▸ kept_run (e.sound_after hs) hroll hstay
  counted e he n h := e.counted (sound_of_mem_trace he) h
  reported e he id answer hop h := e.reported (sound_of_mem_trace he) hop h
  gone := by
    intro past e future hsplit id hid hgone d hd
    have hs : Sound e.before ∅ := sound_of_mem_trace (hsplit ▸ List.mem_append_cons_self)
    obtain ⟨-, ys, -, -, rfl, -⟩ := trace_split hsplit
    have hbelow : id.value < e.after.nextId.value := by
      have hbefore := (hs.numbered.below hid).2
      have hnext := (e.numbers hs).2
      omega
    exact gone_trace (e.sound_after hs) hbelow hgone hd

end TaskExchange.Scheduler
