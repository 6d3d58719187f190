import TaskExchange.Scheduler.Poll
import TaskExchange.Scheduler.Priority
import TaskExchange.Scheduler.Regional

/-!
Runs: the scheduler as those outside see it.  An operation is called by a producer, a worker or the
service, or it is what somebody does with a waiting side of its own; a run is any sequence of
operations with any arguments, each at a moment of its own.  Nothing is asked of the arguments: a
connection may have left or may be unknown, a number may be of no task, the moments need not be in
order.  A run is kept as its events.
-/

namespace TaskExchange.Scheduler

/-- What can be done to the scheduler, and with the waiting sides of connections. -/
inductive Operation where
  | openPoll
  | openRequest
  /-- The waiting side of a poll is dropped. -/
  | leavePoll (c : ConnectionId)
  | leaveRequest (c : ConnectionId)
  /-- The waiting side of a poll is read. -/
  | readPoll (c : ConnectionId)
  | readRequest (c : ConnectionId)
  | enqueueBatch (requests : List Request)
  | poll (lane : Lane) (c : ConnectionId)
  | acknowledge (id : TaskId)
  | reportLost (id : TaskId)
  | requeueExpired (t : Instant)
  | deleteJob (job : JobId)
  | submit (r : Request) (c : ConnectionId)
  | withdraw (id : TaskId)
  | complete (id : TaskId) (result : ByteArray)
  | releaseRequest (id : TaskId) (c : ConnectionId)
  | releasePoll (lane : Lane) (c : ConnectionId)
  | abandonPoll (lane : Lane) (c : ConnectionId)
  | returnUndelivered (tasks : List Task)

/-- What the caller of an operation is told. -/
inductive Outcome where
  | nothing
  | connected (c : ConnectionId)
  | accepted (ids : List TaskId)
  | refused (r : Refusal)
  | polled (p : PollOutcome)
  /-- Whether the task or the job was there. -/
  | found (answer : Bool)
  | requeued (count : Nat)
  | withdrawn (producer : Option ConnectionId)
  | completed (delivery : Except Refusal ResultDelivery)
  | tasks (read : Option (List Task))
  | result (read : Option ByteArray)

/-- An operation is carried out. -/
def step (s : Scheduler) (now : Moment) : Operation → Outcome × Scheduler
  | .openPoll => (.connected s.polls.connect.1, { s with polls := s.polls.connect.2 })
  | .openRequest =>
    (.connected s.requesters.connect.1, { s with requesters := s.requesters.connect.2 })
  | .leavePoll c => (.nothing, { s with polls := s.polls.leave c })
  | .leaveRequest c => (.nothing, { s with requesters := s.requesters.leave c })
  | .readPoll c => (.tasks (s.polls.take c).1, { s with polls := (s.polls.take c).2 })
  | .readRequest c =>
    (.result (s.requesters.take c).1, { s with requesters := (s.requesters.take c).2 })
  | .enqueueBatch requests =>
    match s.enqueueBatch now requests with
    | .ok (ids, s') => (.accepted ids, s')
    | .error r => (.refused r, s)
  | .poll lane c => (.polled (s.poll now lane c).1, (s.poll now lane c).2)
  | .acknowledge id => (.found (s.acknowledge? id).isSome, (s.acknowledge? id).getD s)
  | .reportLost id => (.found (s.reportLost now id).1, (s.reportLost now id).2)
  | .requeueExpired t => (.requeued (s.requeueExpired now t).1, (s.requeueExpired now t).2)
  | .deleteJob job => (.found (s.deleteJob? job).isSome, (s.deleteJob? job).getD s)
  | .submit r c => (.accepted [(s.submit now r c).1], (s.submit now r c).2)
  | .withdraw id => (.withdrawn (s.withdraw id).1, (s.withdraw id).2)
  | .complete id result => (.completed (s.complete id result).1, (s.complete id result).2)
  | .releaseRequest id c => (.result (s.releaseRequest id c).1, (s.releaseRequest id c).2)
  | .releasePoll lane c => (.tasks (s.releasePoll lane c).1, (s.releasePoll lane c).2)
  | .abandonPoll lane c =>
    (.requeued (s.abandonPoll now lane c).1, (s.abandonPoll now lane c).2)
  | .returnUndelivered tasks =>
    (.requeued (s.returnUndelivered now tasks).1, (s.returnUndelivered now tasks).2)

/-- Operations are carried out one after the other. -/
def run (s : Scheduler) (steps : List (Moment × Operation)) : Scheduler :=
  steps.foldl (fun s x => (s.step x.1 x.2).2) s

/-- An operation of a run, with the state that it finds. -/
structure Event where
  before : Scheduler
  now : Moment
  op : Operation

namespace Event

/-- What the caller is told. -/
def outcome (e : Event) : Outcome := (e.before.step e.now e.op).1

/-- The state that the operation leaves. -/
def after (e : Event) : Scheduler := (e.before.step e.now e.op).2

end Event

/-- The events of a run, the first one in front. -/
def trace (s : Scheduler) : List (Moment × Operation) → List Event
  | [] => []
  | (now, op) :: rest => ⟨s, now, op⟩ :: trace (s.step now op).2 rest

/-- Of some events, the latest that has a property. -/
def Latest (p : Event → Prop) (past : List Event) (e : Event) : Prop :=
  ∃ first rest, past = first ++ e :: rest ∧ p e ∧ ∀ x ∈ rest, ¬ p x

variable {s : Scheduler} {steps : List (Moment × Operation)}

/-- Whatever holds at first and is kept by every operation holds after every run. -/
theorem run_induction {P : Scheduler → Prop} (first : P s)
    (next : ∀ s now op, P s → P (s.step now op).2) : P (s.run steps) := by
  induction steps generalizing s with
  | nil => exact first
  | cons x steps ih => exact ih (next s x.1 x.2 first)

/-- Whatever holds of no events and the first state, and is kept when an event follows, holds of the
events of every run and the state that is reached. -/
theorem trace_induction {P : List Event → Scheduler → Prop} (first : P [] s)
    (next : ∀ past (e : Event), P past e.before → P (past ++ [e]) e.after) :
    P (s.trace steps) (s.run steps) := by
  suffices h : ∀ (steps : List (Moment × Operation)) (past : List Event) (s : Scheduler),
      P past s → P (past ++ s.trace steps) (s.run steps) from h steps [] s first
  intro steps
  induction steps with
  | nil => intro past s h; simpa [trace, run] using h
  | cons x steps ih =>
    intro past s h
    have hnext := ih (past ++ [⟨s, x.1, x.2⟩]) _ (next past ⟨s, x.1, x.2⟩ h)
    rw [List.append_assoc] at hnext
    exact hnext

theorem run_append (s : Scheduler) (steps more : List (Moment × Operation)) :
    s.run (steps ++ more) = (s.run steps).run more := List.foldl_append

theorem trace_append (s : Scheduler) (more : List (Moment × Operation)) :
    ∀ steps : List (Moment × Operation),
      s.trace (steps ++ more) = s.trace steps ++ (s.run steps).trace more
  | [] => rfl
  | _ :: steps => congrArg (List.cons _) (trace_append _ more steps)

/-- The events before and after one of a run are runs themselves. -/
theorem trace_split {past future : List Event} {e : Event} :
    ∀ {steps : List (Moment × Operation)} {s : Scheduler},
    s.trace steps = past ++ e :: future →
    ∃ xs ys, s.trace xs = past ∧ s.run xs = e.before ∧ e.after.trace ys = future ∧
      e.after.run ys = s.run steps := by
  induction past with
  | nil =>
    intro steps s h
    cases steps with
    | nil => cases h
    | cons x steps =>
      cases h
      exact ⟨[], steps, rfl, rfl, rfl, rfl⟩
  | cons d past ih =>
    intro steps s h
    cases steps with
    | nil => cases h
    | cons x steps =>
      obtain ⟨rfl, hrest⟩ := List.cons.inj h
      obtain ⟨xs, ys, hxs, hbefore, hys, hlast⟩ := ih hrest
      exact ⟨x :: xs, ys, by rw [trace, hxs], hbefore, hys, hlast⟩

/-- An event of a run is one of its steps. -/
theorem mem_steps_of_mem_trace {e : Event} : ∀ {steps : List (Moment × Operation)} {s : Scheduler},
    e ∈ s.trace steps → (e.now, e.op) ∈ steps
  | [], _, he => by cases he
  | (now, op) :: steps, s, he => by
    rcases List.mem_cons.mp he with rfl | he
    · exact List.mem_cons_self ..
    · exact List.mem_cons_of_mem _ (mem_steps_of_mem_trace he)

/-- An event of a run finds a state that is reached. -/
theorem exists_run_of_mem {e : Event} (he : e ∈ s.trace steps) : ∃ xs, s.run xs = e.before := by
  obtain ⟨past, future, hsplit⟩ := List.append_of_mem he
  obtain ⟨xs, -, -, hbefore, -⟩ := trace_split hsplit
  exact ⟨xs, hbefore⟩

/-! ### The latest event of a kind -/

namespace Latest

variable {p : Event → Prop} {past : List Event} {e d : Event}

theorem last (h : p e) : Latest p (past ++ [e]) e := ⟨past, [], rfl, h, by simp⟩

/-- An event without the property leaves the latest one with it what it was. -/
theorem concat (h : Latest p past d) (hnot : ¬ p e) : Latest p (past ++ [e]) d := by
  obtain ⟨first, rest, rfl, hd, hrest⟩ := h
  refine ⟨first, rest ++ [e], by simp, hd, fun x hx => ?_⟩
  rcases List.mem_append.mp hx with hx | hx
  · exact hrest x hx
  · obtain rfl := List.mem_singleton.mp hx
    exact hnot

theorem unique (h : Latest p past d) (h' : Latest p past e) : d = e := by
  obtain ⟨first, rest, hpast, hd, hrest⟩ := h
  obtain ⟨first', rest', hpast', he, hrest'⟩ := h'
  rw [hpast, List.append_eq_append_iff] at hpast'
  rcases hpast' with ⟨more, rfl, hmore⟩ | ⟨more, rfl, hmore⟩
  · cases more with
    | nil => exact (List.cons.inj hmore).1
    | cons x more =>
      obtain ⟨rfl, rfl⟩ := List.cons.inj hmore
      exact absurd he (hrest e (by simp))
  · cases more with
    | nil => exact (List.cons.inj hmore).1.symm
    | cons x more =>
      obtain ⟨rfl, rfl⟩ := List.cons.inj hmore
      exact absurd hd (hrest' d (by simp))

end Latest

end TaskExchange.Scheduler
