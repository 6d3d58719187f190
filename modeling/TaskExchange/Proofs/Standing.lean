import TaskExchange.Proofs.Attendance
import TaskExchange.Proofs.Result

/-!
Standing: where those can be found who wait.  Main statements: a worker that waits stands in the
line of its lane from its poll on (`Event.stands_of_parked`) and as long as nothing has come to it
(`stands_run`); and the result of a request is awaited on its connection from its submission on
(`Unheard.awaits`) as long as none has come and nobody withdraws it (`Awaits.run`).
-/

namespace TaskExchange.Scheduler

variable {s : Scheduler} {e : Event} {c : ConnectionId} {lane : Lane} {id : TaskId}

/-! ### Workers in line -/

/-- What others do leaves a worker in its line before tasks are passed on. -/
theorem Event.keeps_pool (hside : e.op.side? ≠ some (.poll c)) (hin : c ∈ e.before.pool.line lane) :
    c ∈ e.pool.line lane := by
  refine (mem_pool_or_releases hin).resolve_right fun hrel => hside ?_
  rcases hrel with hop | hop <;> rw [hop] <;> rfl

/-- A worker that waits on stands where it stood, whatever others do. -/
theorem Event.stands (hs : Sound e.before ∅) (hside : e.op.side? ≠ some (.poll c))
    (hknown : (Side.poll c).Known e.before)
    (hin : e.before.polls.isOpen c = true → c ∈ e.before.pool.line lane)
    (hopen : e.after.polls.isOpen c = true) : c ∈ e.after.pool.line lane := by
  obtain ⟨mid, he⟩ := e.enters hs
  have hmid : mid.polls.isOpen c = true := he.shifts.isOpen_before hopen
  rw [he.polls, Switchboard.isOpen_congr (sides_polls hside hknown)] at hmid
  refine he.shifts.stands ?_ hopen
  rw [he.pool]
  exact keeps_pool hside (hin hmid)

theorem stands_run {steps : List (Moment × Operation)} (hs : Sound s ∅)
    (hknown : (Side.poll c).Known s) (hin : s.polls.isOpen c = true → c ∈ s.pool.line lane)
    (hside : ∀ d ∈ s.trace steps, d.op.side? ≠ some (.poll c))
    (hopen : (s.run steps).polls.isOpen c = true) : c ∈ (s.run steps).pool.line lane := by
  refine (hs.trace_induction (P := fun _ s => (Side.poll c).Known s ∧
    (s.polls.isOpen c = true → c ∈ s.pool.line lane)) ⟨hknown, hin⟩ ?_).2 hopen
  rintro past e he hs ⟨hknown, hin⟩
  exact ⟨hknown.after hs, Event.stands hs (hside e he) hknown hin⟩

/-- A worker that polls and waits stands in its line. -/
theorem Event.stands_of_parked (hs : Sound e.before ∅) (hop : e.op = .poll lane c)
    (hparked : e.outcome = .polled .parked) (hopen : e.after.polls.isOpen c = true) :
    c ∈ e.after.pool.line lane := by
  obtain ⟨mid, he⟩ := e.enters hs
  have hpool : e.pool = e.before.pool.pushBack lane c := by simp only [pool, hop, hparked]
  refine he.shifts.stands ?_ hopen
  rw [he.pool, hpool, Lanes.pushBack, Lanes.line_append, if_pos rfl]
  exact List.mem_append_right _ (List.mem_singleton_self c)

/-- A worker that attends and stands in line waits. -/
theorem Attends.isOpen_of_mem {tasks : List Task} (h : Attends s lane c tasks)
    (hin : c ∈ s.pool.line lane) : s.polls.isOpen c = true := by
  rcases h.side with ⟨-, hopen⟩ | ⟨t, -, -, hnot⟩
  · exact hopen
  · exact absurd hin hnot

theorem Attends.isOpen_of_held?_none {tasks : List Task} (h : Attends s lane c tasks)
    (hnone : s.polls.held? c = none) : s.polls.isOpen c = true := by
  rcases h.side with ⟨-, hopen⟩ | ⟨t, -, hheld, -⟩
  · exact hopen
  · rw [hheld] at hnone
    cases hnone

/-! ### Requesters -/

/-- The result of a request is awaited on its connection until it comes. -/
structure Awaits (s : Scheduler) (id : TaskId) (c : ConnectionId) : Prop where
  known : (Side.request c).Known s
  number : id.value < s.nextId.value
  awaited : s.requesters.held? c = none →
    s.producers[id]? = some c ∧ s.requesters.isOpen c = true

theorem Event.side?_of_empties (h : e.Empties c) : e.op.side? = some (.request c) := by
  rcases h with (hop | ⟨i, hop⟩) | hop <;> rw [hop] <;> rfl

/-- Awaited results stay awaited, but for those of requests that are withdrawn or answered. -/
theorem Event.producers_same (hs : Sound e.before ∅) (hid : id.value < e.before.nextId.value)
    (hwithdrawn : e.op.withdrawn? ≠ some id) (hcomplete : ∀ b, e.op ≠ .complete id b) :
    e.after.producers[id]? = e.before.producers[id]? := by
  rw [e.producers_after hs]
  obtain ⟨s, now, op⟩ := e
  cases op with
  | submit r d =>
    have hne : s.nextId ≠ id := by
      rintro rfl
      exact Nat.lt_irrefl _ hid
    simp [Event.producers, Std.ExtTreeMap.getElem?_insert, hne]
  | withdraw x =>
    have hne : x ≠ id := fun h => hwithdrawn (h ▸ rfl)
    simp [Event.producers, Std.ExtTreeMap.getElem?_erase, hne]
  | complete x b =>
    have hne : x ≠ id := fun h => hcomplete b (h ▸ rfl)
    simp [Event.producers, Std.ExtTreeMap.getElem?_erase, hne]
  | releaseRequest x d =>
    have hne : x ≠ id := fun h => hwithdrawn (h ▸ rfl)
    simp [Event.producers, Std.ExtTreeMap.getElem?_erase, hne]
  | _ => rfl

theorem Event.nextId_le (e : Event) (hs : Sound e.before ∅) :
    e.before.nextId.value ≤ e.after.nextId.value := by
  have hnext := (e.numbers hs).2
  omega

/-- A result is awaited, whatever others do, as long as nobody withdraws its request. -/
theorem Awaits.after (h : Awaits e.before id c) (hs : Sound e.before ∅)
    (hside : e.op.side? ≠ some (.request c)) (hwithdrawn : e.op.withdrawn? ≠ some id) :
    Awaits e.after id c := by
  refine ⟨h.known.after hs, Nat.lt_of_lt_of_le h.number (e.nextId_le hs), fun hnone => ?_⟩
  have hother : ∀ x b, e.Delivers x b → e.before.producers[x]? ≠ some c := by
    intro x b hdelivers hx
    rw [Event.held?_of_delivers hs hdelivers hx] at hnone
    cases hnone
  have hsides := Event.sides_requesters hs (fun hempties => hside (Event.side?_of_empties hempties))
    (fun hnew => (Side.known_opened e hnew).1 h.known) hother
  rw [Switchboard.held?_congr hsides] at hnone
  obtain ⟨hawaited, hopen⟩ := h.awaited hnone
  rw [Switchboard.isOpen_congr hsides]
  refine ⟨?_, hopen⟩
  rw [Event.producers_same hs h.number hwithdrawn fun b hop => ?_]
  · exact hawaited
  · exact hother id b ((Event.delivers_iff hs).mpr ⟨hop, c, hawaited, hopen⟩) hawaited

theorem Awaits.run {steps : List (Moment × Operation)} (h : Awaits s id c) (hs : Sound s ∅)
    (hothers : ∀ d ∈ s.trace steps, d.op.side? ≠ some (.request c) ∧ d.op.withdrawn? ≠ some id) :
    Awaits (s.run steps) id c :=
  hs.trace_induction (P := fun _ s => Awaits s id c) h fun _ e he hs h =>
    h.after hs (hothers e he).1 (hothers e he).2

/-- From its submission on a result is awaited. -/
theorem Event.awaits (hs : Sound e.before ∅) {r : Request} (hop : e.op = .submit r c)
    (hknown : (Side.request c).Known e.before) (hopen : e.before.requesters.isOpen c = true) :
    Awaits e.after e.before.nextId c := by
  refine ⟨hknown.after hs, ?_, fun _ => ⟨?_, ?_⟩⟩
  · have hnumbers := (e.numbers hs).2
    have hentry : e.entry.tasks.length = 1 := by
      simp [Event.entry, Event.outcome, hop, step, Entry.of, Entry.tasks]
    omega
  · rw [e.producers_after hs, Event.producers, hop]
    exact Std.ExtTreeMap.getElem?_insert_self
  · rw [e.requesters_after hs, Event.requesters, hop]
    exact hopen

end TaskExchange.Scheduler
