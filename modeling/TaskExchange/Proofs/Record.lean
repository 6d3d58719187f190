import TaskExchange.Proofs.Admission
import TaskExchange.Proofs.Passing
import TaskExchange.Proofs.Run

/-!
Records: what can be told of an event from its operation, its outcome and the state that it finds.
It is told what is entered in the books, which tasks are taken back from workers, who is given
which task, and what becomes of the workers in line and of the waiting sides before any task is
passed on.
-/

namespace TaskExchange

namespace Switchboard

variable {α : Type}

/-- What is read is what was held. -/
theorem take_fst (b : Switchboard α) (c : ConnectionId) : (b.take c).1 = b.held? c := by
  rw [take]
  split
  · next h => exact h.symm
  · next h => exact h.symm

/-- The waiting side of a connection after another one, or this one, has been read. -/
theorem getElem?_take (b : Switchboard α) (c d : ConnectionId) :
    (b.take c).2.sides[d]? =
      if c = d ∧ (b.held? c).isSome then some .served else b.sides[d]? := by
  rw [take]
  split
  · next h =>
    by_cases hcd : c = d
    · subst hcd
      simp [h]
    · simp [Std.ExtTreeMap.getElem?_insert, hcd]
  · next h => simp [h]

theorem getElem?_take_of_ne (b : Switchboard α) {c d : ConnectionId} (h : d ≠ c) :
    (b.take d).2.sides[c]? = b.sides[c]? := by
  rw [getElem?_take, if_neg fun hread => h hread.1]

/-- What is read is not left to be read. -/
theorem held?_take (b : Switchboard α) (c : ConnectionId) : (b.take c).2.held? c = none := by
  rw [take]
  split
  · simp [held?]
  · next h => exact h

theorem isOpen_congr {b b' : Switchboard α} {c : ConnectionId} (h : b'.sides[c]? = b.sides[c]?) :
    b'.isOpen c = b.isOpen c := by
  rw [isOpen, isOpen, h]

theorem held?_congr {b b' : Switchboard α} {c : ConnectionId} (h : b'.sides[c]? = b.sides[c]?) :
    b'.held? c = b.held? c := by
  rw [held?, held?, h]

/-- Who waits holds nothing yet. -/
theorem held?_of_isOpen {b : Switchboard α} {c : ConnectionId} (h : b.isOpen c = true) :
    b.held? c = none := by
  rw [isOpen] at h
  rw [held?]
  split at h
  · next hside => rw [hside]
  · cases h

/-- Who waits after a reading waited before, and the other way around. -/
theorem isOpen_take (b : Switchboard α) (c d : ConnectionId) :
    (b.take c).2.isOpen d = b.isOpen d := by
  by_cases hread : c = d ∧ (b.held? c).isSome
  · have hclosed : b.isOpen d = false := by
      by_contra hopen
      rw [Bool.not_eq_false] at hopen
      obtain ⟨rfl, hheld⟩ := hread
      simp [held?_of_isOpen hopen] at hheld
    rw [hclosed, isOpen, getElem?_take, if_pos hread]
  · exact isOpen_congr (by rw [getElem?_take, if_neg hread])

end Switchboard

namespace Scheduler

/-- What an event enters in the books. -/
inductive Entry where
  | nothing
  /-- Requests are accepted as these tasks. -/
  | accepted (tasks : List Task)
  /-- The completion of a task is acknowledged. -/
  | acknowledged (id : TaskId)
  /-- The request that has this number, if there is one, is withdrawn or answered. -/
  | withdrawn (id : TaskId)
  | deleted (job : JobId)

/-- The tasks of a batch as they are accepted. -/
def batchTasks (now : Moment) (ids : List TaskId) (requests : List Request) : List Task :=
  List.zipWith (fun id r => Task.ofRequest id .regional now.civil r) ids requests

theorem ids_batchTasks (now : Moment) : ∀ {ids : List TaskId} {requests : List Request},
    ids.length = requests.length → (batchTasks now ids requests).map Task.id = ids
  | [], _, _ => rfl
  | _ :: _, [], h => by simp at h
  | id :: ids, r :: requests, h => by
    have hrest := ids_batchTasks now (by simpa using h)
    simpa [batchTasks, Task.ofRequest] using hrest

/-- What an operation enters in the books, as its caller can tell from its outcome. -/
def Entry.of (now : Moment) : Operation → Outcome → Entry
  | .enqueueBatch requests, .accepted ids => .accepted (batchTasks now ids requests)
  | .submit r _, .accepted ids => .accepted (ids.map fun id => .ofRequest id .priority now.civil r)
  | .acknowledge id, .found true => .acknowledged id
  | .deleteJob job, .found true => .deleted job
  | .withdraw id, _ => .withdrawn id
  | .complete id _, _ => .withdrawn id
  | .releaseRequest id _, _ => .withdrawn id
  | _, _ => .nothing

/-- The tasks that are new. -/
def Entry.tasks : Entry → List Task
  | .accepted tasks => tasks
  | _ => []

namespace Event

/-- What an event enters in the books. -/
def entry (e : Event) : Entry := .of e.now e.op e.outcome

/-- The tasks that an event is to take back from workers, whether or not they are with one. -/
def listed (e : Event) : List TaskId :=
  match e.op with
  | .reportLost id => if e.before.awaitsAcknowledgment id then [id] else []
  | .requeueExpired t => e.before.expired t
  | .abandonPoll _ c => ((e.before.polls.held? c).getD []).map (·.id)
  | .returnUndelivered tasks => tasks.map (·.id)
  | _ => []

/-- The tasks that an event takes back from workers. -/
def requeued (e : Event) : Finset TaskId := e.listed.toFinset.filter (· ∈ e.before.inFlight)

/-- The tasks that an event has in hand when it begins to pass tasks on: those that are new, and
those that it has taken back. -/
def hand (e : Event) : Finset TaskId := (e.entry.tasks.map Task.id).toFinset ∪ e.requeued

/-- The handovers of an event, one after the other. -/
def handovers (e : Event) : List Handover :=
  match e.op with
  | .poll .. =>
    match e.outcome with
    | .polled (.dispatched tasks) => tasks.map (⟨·, none⟩)
    | _ => []
  | .enqueueBatch requests =>
    match e.before.targetOf requests with
    | .ok (job, category) =>
      passedOn e.now (numbersFrom e.before.nextId.value requests.length)
        (e.before.enroll e.now job category requests)
    | .error _ => []
  | .submit r c => passedOn e.now [e.before.nextId] (e.before.enrollSingle e.now r c)
  | .abandonPoll lane c => (e.before.releasePoll lane c).2.givenAgain e.now e.listed
  | _ => e.before.givenAgain e.now e.listed

/-- The workers in line before any task is passed on. -/
def pool (e : Event) : Lanes ConnectionId :=
  match e.op, e.outcome with
  | .poll lane c, .polled .parked => e.before.pool.pushBack lane c
  | .releasePoll lane c, _ => e.before.pool.keep lane (· ≠ c)
  | .abandonPoll lane c, _ => e.before.pool.keep lane (· ≠ c)
  | _, _ => e.before.pool

/-- The waiting sides of polls before any task is passed on. -/
def polls (e : Event) : Switchboard (List Task) :=
  match e.op with
  | .openPoll => e.before.polls.connect.2
  | .leavePoll c => e.before.polls.leave c
  | .readPoll c => (e.before.polls.take c).2
  | .releasePoll _ c => (e.before.polls.take c).2
  | .abandonPoll _ c => (e.before.polls.take c).2
  | _ => e.before.polls

/-- The waiting sides of requests: a result goes to the requester of its task. -/
def requesters (e : Event) : Switchboard ByteArray :=
  match e.op with
  | .openRequest => e.before.requesters.connect.2
  | .leaveRequest c => e.before.requesters.leave c
  | .readRequest c => (e.before.requesters.take c).2
  | .releaseRequest _ c => (e.before.requesters.take c).2
  | .complete id result =>
    ((e.before.withdraw id).1.bind (e.before.requesters.send? · result)).getD e.before.requesters
  | _ => e.before.requesters

end Event

@[simp] theorem givenAgain_nil (s : Scheduler) (now : Moment) : s.givenAgain now [] = [] := by
  simp [givenAgain, takeBackEach, passedOn]

namespace Event

/-- An event that enters nothing in the books has in hand what it takes back. -/
theorem hand_of_nothing {e : Event} (h : e.entry = .nothing) : e.hand = e.requeued := by
  simp [hand, h, Entry.tasks]

/-- Only a poll is told what becomes of a poll. -/
theorem poll_of_polled (e : Event) {p : PollOutcome} (h : e.outcome = .polled p) :
    ∃ lane c, e.op = .poll lane c := by
  obtain ⟨s, now, op⟩ := e
  cases op with
  | poll lane c => exact ⟨lane, c, rfl⟩
  | enqueueBatch requests =>
    rw [outcome, step] at h
    split at h <;> cases h
  | _ => cases h

/-- A poll that does not wait is given what its caller is told. -/
theorem handovers_of_dispatched (e : Event) {tasks : List Task}
    (h : e.outcome = .polled (.dispatched tasks)) : e.handovers = tasks.map (⟨·, none⟩) := by
  obtain ⟨lane, c, hop⟩ := e.poll_of_polled h
  simp only [handovers, hop, h]

/-- A worker that did not wait was told so when it polled. -/
theorem dispatched_of_mem (e : Event) {t : Task} (h : ⟨t, none⟩ ∈ e.handovers) :
    ∃ tasks, e.outcome = .polled (.dispatched tasks) := by
  have hnot : ∀ {ids : List TaskId} {s : Scheduler}, ⟨t, none⟩ ∉ passedOn e.now ids s := by
    intro ids s hmem
    obtain ⟨c, hc⟩ := receiver_of_mem_passedOn hmem
    cases hc
  rw [handovers] at h
  split at h
  · split at h
    · next tasks houtcome => exact ⟨tasks, houtcome⟩
    · cases h
  · split at h
    · exact absurd h hnot
    · cases h
  · exact absurd h hnot
  · exact absurd h hnot
  · exact absurd h hnot

/-- A waiting side that is open when tasks are passed on was open before. -/
theorem isOpen_before (e : Event) {c : ConnectionId} (h : e.handovers ≠ [])
    (hopen : e.polls.isOpen c = true) : e.before.polls.isOpen c = true := by
  obtain ⟨s, now, op⟩ := e
  cases op with
  | abandonPoll lane d => exact s.polls.isOpen_take d c ▸ hopen
  | openPoll => exact absurd (givenAgain_nil ..) h
  | leavePoll => exact absurd (givenAgain_nil ..) h
  | readPoll => exact absurd (givenAgain_nil ..) h
  | releasePoll => exact absurd (givenAgain_nil ..) h
  | _ => exact hopen

end Event

end Scheduler

end TaskExchange
