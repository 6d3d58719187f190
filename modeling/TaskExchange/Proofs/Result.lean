import TaskExchange.Proofs.Ownership

/-!
Results: how the result of a request reaches its requester.  Main statement: `results_trace`.  In
every run one result of a request is accepted at most; it is sent to the connection on which the
request was submitted and to no other, and whoever submits on a connection of its own finds there
the result of its own request, reads it once, and finds nothing when it stops waiting first.
`Heard` is what holds of a requester while it waits, and `Unheard` of its connection before.
-/

namespace TaskExchange

namespace Switchboard

variable {α : Type} {b b' : Switchboard α} {c : ConnectionId}

/-- Whoever waits has been given a number. -/
def Opened (b : Switchboard α) : Prop := ∀ c ∈ b.sides, c.value < b.next

theorem opened_empty : (empty : Switchboard α).Opened := by
  simp [Opened, empty]

theorem Opened.connect (h : b.Opened) : b.connect.2.Opened := by
  intro d hd
  rcases Std.ExtTreeMap.mem_insert.mp hd with hnew | hold
  · obtain rfl := Std.LawfulEqOrd.compare_eq_iff_eq.mp hnew
    exact Nat.lt_succ_self _
  · exact Nat.lt_succ_of_lt (h d hold)

theorem Opened.leave (h : b.Opened) (c : ConnectionId) : (b.leave c).Opened :=
  fun d hd => h d (Std.ExtTreeMap.mem_of_mem_erase hd)

theorem Opened.take (h : b.Opened) (c : ConnectionId) : (b.take c).2.Opened := by
  intro d hd
  rw [next_take]
  rw [Std.ExtTreeMap.mem_iff_isSome_getElem?, getElem?_take] at hd
  split at hd
  · next hread =>
    obtain ⟨rfl, hheld⟩ := hread
    refine h c (Std.ExtTreeMap.mem_iff_isSome_getElem?.mpr ?_)
    rw [held?] at hheld
    split at hheld
    · next hside => rw [hside]; rfl
    · cases hheld
  · exact h d (Std.ExtTreeMap.mem_iff_isSome_getElem?.mpr hd)

theorem Opened.send? (h : b.Opened) {value : α} (hsend : b.send? c value = some b') :
    b'.Opened := by
  intro d hd
  rw [next_send? hsend]
  rw [Switchboard.send?] at hsend
  split at hsend
  · next hopen =>
    cases hsend
    rcases Std.ExtTreeMap.mem_insert.mp hd with hnew | hold
    · obtain rfl := Std.LawfulEqOrd.compare_eq_iff_eq.mp hnew
      refine h c (Std.ExtTreeMap.mem_iff_isSome_getElem?.mpr ?_)
      rw [isOpen] at hopen
      split at hopen
      · next hside => rw [hside]; rfl
      · cases hopen
    · exact h d hold
  · cases hsend

end Switchboard

namespace Scheduler

/-- There is a priority task of this number, and its result is awaited. -/
def IsAwaited (s : Scheduler) (id : TaskId) : Prop :=
  ∃ t, s.tasks[id]? = some t ∧ t.kind = .priority

namespace Event

/-- A result is accepted: there was a request of this number. -/
def Accepts (e : Event) (id : TaskId) : Prop :=
  ∃ b delivery, e.op = .complete id b ∧ e.outcome = .completed (.ok delivery)

/-- A result is sent to a requester that waits. -/
def Delivers (e : Event) (id : TaskId) (b : ByteArray) : Prop :=
  e.op = .complete id b ∧ e.outcome = .completed (.ok .delivered)

/-- The request of this number, if there is one, is answered or withdrawn. -/
def Closes (e : Event) (id : TaskId) : Prop :=
  e.op = .withdraw id ∨ (∃ b, e.op = .complete id b) ∨ ∃ c, e.op = .releaseRequest id c

/-- A requester reads what has come, be it that it stops waiting. -/
def Reads (e : Event) (c : ConnectionId) : Prop :=
  e.op = .readRequest c ∨ ∃ id, e.op = .releaseRequest id c

/-- A requester that held a result holds it no more. -/
def Empties (e : Event) (c : ConnectionId) : Prop := e.Reads c ∨ e.op = .leaveRequest c

/-- What a requester holds unread after an event, which awaits the result of a task. -/
def unread (e : Event) (id : TaskId) (c : ConnectionId) (held : Option ByteArray) :
    Option ByteArray :=
  match e.op, e.outcome with
  | .complete i b, .completed (.ok .delivered) => if i = id then some b else held
  | .readRequest d, _ => if d = c then none else held
  | .releaseRequest _ d, _ => if d = c then none else held
  | .leaveRequest d, _ => if d = c then none else held
  | _, _ => held

/-- The connections on which results are awaited after an event. -/
def producers (e : Event) : Std.ExtTreeMap TaskId ConnectionId :=
  match e.op with
  | .submit _ c => e.before.producers.insert e.before.nextId c
  | .withdraw id => e.before.producers.erase id
  | .complete id _ => e.before.producers.erase id
  | .releaseRequest id _ => e.before.producers.erase id
  | _ => e.before.producers

end Event

/-- What a requester holds unread after some events. -/
def unread (id : TaskId) (c : ConnectionId) (events : List Event) : Option ByteArray :=
  events.foldl (fun held e => e.unread id c held) none

/-- What a requester finds that awaits the result of a task on a connection of its own, in the
events after its submission and in the state that is reached. -/
structure Finds (id : TaskId) (c : ConnectionId) (future : List Event) (last : Scheduler) :
    Prop where
  /-- It holds the result of its own task, once that is delivered and until it is read. -/
  holds : last.requesters.held? c = unread id c future
  /-- A result that was delivered and is not read yet is what it reads, be it that it stops waiting
  only afterwards. -/
  collected : ∀ mid d between y rest b, future = mid ++ d :: (between ++ y :: rest) →
    d.Delivers id b → (∀ x ∈ between, ¬ x.Empties c) → y.Reads c → y.outcome = .result (some b)
  /-- It reads it once. -/
  once : ∀ mid y rest b, future = mid ++ y :: rest → y.Reads c → y.outcome = .result (some b) →
    ∀ z ∈ rest, z.Reads c → z.outcome = .result none
  /-- If it stops waiting first, it gets nothing, then and later. -/
  released : ∀ mid y rest, future = mid ++ y :: rest → y.op = .releaseRequest id c →
    (∀ x ∈ mid, ∀ b, ¬ x.Delivers id b) →
    y.outcome = .result none ∧ ∀ z ∈ rest, z.Reads c → z.outcome = .result none

/-- Each request has one result at most, and its requester finds it, in a run with these events. -/
structure Results (trace : List Event) (last : Scheduler) : Prop where
  /-- A result is accepted if there is a request of this number; if there is none, it is refused
  and nothing changes. -/
  found : ∀ e ∈ trace, ∀ id b, e.op = .complete id b →
    (e.before.IsAwaited id ∧ ∃ delivery, e.outcome = .completed (.ok delivery)) ∨
      (¬ e.before.IsAwaited id ∧ e.outcome = .completed (.error (.taskNotFound id)) ∧
        e.after = e.before)
  /-- It is delivered if the requester waits with an open side, and only then. -/
  delivers : ∀ e ∈ trace, ∀ id b, e.Delivers id b ↔ e.op = .complete id b ∧
    ∃ c, e.before.producers[id]? = some c ∧ e.before.requesters.isOpen c = true
  /-- Of the results of a request one is accepted at most. -/
  once : ∀ past d future, trace = past ++ d :: future → ∀ id, d.Accepts id →
    ∀ e ∈ future, ¬ e.Accepts id
  /-- When a request has been answered or withdrawn, its results are refused. -/
  closed : ∀ past d future, trace = past ++ d :: future → ∀ id, d.Closes id →
    id.value < d.before.nextId.value → ∀ e ∈ future, ∀ b, e.op = .complete id b →
      e.outcome = .completed (.error (.taskNotFound id))
  /-- A result that is delivered is with the one who submitted the request, and all others hold what
  they held. -/
  own : ∀ past d future, trace = past ++ d :: future → ∀ id b, d.Delivers id b →
    ∃ c, (∃ e ∈ past, e.before.nextId = id ∧ ∃ r, e.op = .submit r c) ∧
      d.after.requesters.held? c = some b ∧
      ∀ other, other ≠ c →
        d.after.requesters.held? other = d.before.requesters.held? other
  /-- A requester finds the result of its task, and nothing else, on a connection of its own. -/
  finds : ∀ past e future, trace = past ++ e :: future → ∀ r c, e.op = .submit r c →
    (∀ x ∈ past ++ future, ∀ q, x.op ≠ .submit q c) → Finds e.before.nextId c future last

variable {s mid : Scheduler} {now : Moment} {hand : Finset TaskId} {entry : Entry} {e : Event}
  {id x : TaskId} {c p : ConnectionId} {b : ByteArray} {op : Operation} {outcome : Outcome}
  {past : List Event}

/-! ### Withdrawals and completions -/

theorem Sound.isAwaited_iff (hs : Sound s ∅) : s.IsAwaited id ↔ id ∈ s.producers :=
  (hs.awaited id).symm

/-- Where no result is awaited, nothing is withdrawn. -/
theorem Sound.withdraw_of_notMem (hs : Sound s ∅) (hid : id ∉ s.producers) :
    s.withdraw id = (none, s) := by
  rw [← hs.isAwaited_iff] at hid
  cases ht : s.tasks[id]? with
  | none => simp [Scheduler.withdraw, ht]
  | some t =>
    cases hkind : t.kind with
    | regional => simp [Scheduler.withdraw, ht, Task.isRegional, hkind]
    | priority => exact absurd ⟨t, ht, hkind⟩ hid

theorem Sound.withdraw_producers (hs : Sound s ∅) (id : TaskId) :
    (s.withdraw id).1 = s.producers[id]? ∧ (s.withdraw id).2.producers = s.producers.erase id := by
  by_cases hid : id ∈ s.producers
  · obtain ⟨t, ht, hkind⟩ := hs.isAwaited_iff.mpr hid
    simp [Scheduler.withdraw, ht, Task.isRegional, hkind]
  · rw [hs.withdraw_of_notMem hid, getElem?_neg s.producers id hid]
    refine ⟨rfl, ?_⟩
    ext x
    rw [Std.ExtTreeMap.getElem?_erase]
    split
    · next heq =>
      obtain rfl := Std.LawfulEqOrd.compare_eq_iff_eq.mp heq
      rw [getElem?_neg s.producers id hid]
    · rfl

theorem Sound.complete_of_notMem (hs : Sound s ∅) (hid : id ∉ s.producers) (b : ByteArray) :
    s.complete id b = (.error (.taskNotFound id), s) := by
  rw [complete, hs.withdraw_of_notMem hid]

theorem Sound.complete_fst (hs : Sound s ∅) (hp : s.producers[id]? = some p) (b : ByteArray) :
    (s.complete id b).1 = .ok (if s.requesters.isOpen p then .delivered else .requesterGone) := by
  have hfst := (hs.withdraw_producers id).1.trans hp
  obtain ⟨-, -, hrequesters⟩ := s.withdraw_connections id
  rw [complete, ← Prod.eta (s.withdraw id), hfst]
  by_cases hopen : s.requesters.isOpen p <;> simp [hrequesters, Switchboard.send?, hopen]

/-- A result is delivered if its requester waits. -/
theorem Event.delivers_iff (hs : Sound e.before ∅) :
    e.Delivers id b ↔ e.op = .complete id b ∧
      ∃ p, e.before.producers[id]? = some p ∧ e.before.requesters.isOpen p = true := by
  obtain ⟨s, now, op⟩ := e
  change Sound s ∅ at hs
  refine and_congr_right fun hop => ?_
  cases hop
  change Outcome.completed (s.complete id b).1 = _ ↔ _
  cases hp : s.producers[id]? with
  | none =>
    have hid : id ∉ s.producers := by simp [Std.ExtTreeMap.mem_iff_isSome_getElem?, hp]
    simp [hs.complete_of_notMem hid]
  | some p =>
    rw [hs.complete_fst hp]
    by_cases hopen : s.requesters.isOpen p <;> simp [hopen]

/-! ### On which connections results are awaited -/

theorem Enters.producers_of_withdrawn (h : Enters now s (.withdrawn id) mid hand)
    (hs : Sound s ∅) : mid.producers = s.producers.erase id := by
  cases h with
  | withdraw => exact (hs.withdraw_producers id).2
  | withdrawNothing hnone =>
    have hid : id ∉ s.producers := by
      rw [← hs.isAwaited_iff]
      rintro ⟨t, ht, hkind⟩
      rw [hnone t ht] at hkind
      cases hkind
    rw [← (hs.withdraw_producers id).2, hs.withdraw_of_notMem hid]

theorem Enters.producers_same (h : Enters now s entry mid hand) (hs : Sound s ∅)
    (hentry : ∀ id, entry ≠ .withdrawn id) (hregional : ∀ t ∈ entry.tasks, t.kind = .regional) :
    mid.producers = s.producers := by
  cases h with
  | connections _ _ hrecall => exact hrecall.books.producers
  | park => rfl
  | batch => exact enroll_producers
  | single => cases hregional _ (List.mem_singleton_self _)
  | acknowledge hmid =>
    obtain ⟨t, job, j, -, -, -, -, -, -, rfl⟩ := acknowledge?_eq_some hs.placed hs.ledger hmid
    rfl
  | withdraw => exact absurd rfl (hentry _)
  | withdrawNothing => exact absurd rfl (hentry _)
  | deleteJob hmid =>
    obtain ⟨j, hj, -⟩ := removal_deleteJob hs.placed hs.ledger hmid
    rw [deleteJob?, hj] at hmid
    rw [← Option.some.inj hmid]

theorem Entry.of_eq_withdrawn (h : Entry.of now op outcome = .withdrawn id) :
    op = .withdraw id ∨ (∃ b, op = .complete id b) ∨ ∃ c, op = .releaseRequest id c := by
  unfold Entry.of at h
  split at h
  · cases h
  · cases h
  · cases h
  · cases h
  · cases h
    exact Or.inl rfl
  · cases h
    exact Or.inr (Or.inl ⟨_, rfl⟩)
  · cases h
    exact Or.inr (Or.inr ⟨_, rfl⟩)
  · cases h

/-- The tasks that are accepted are regional ones, but for those that are submitted. -/
theorem Entry.kind_of_mem {t : Task} (ht : t ∈ (Entry.of now op outcome).tasks) :
    t.kind = .regional ∨ ∃ r c, op = .submit r c := by
  unfold Entry.of at ht
  split at ht
  · next requests ids =>
    refine Or.inl ?_
    obtain ⟨i, -, rfl⟩ := List.mem_iff_getElem.mp ht
    simp [Entry.tasks, batchTasks, Task.ofRequest]
  · exact Or.inr ⟨_, _, rfl⟩
  all_goals cases ht

/-- What an event does to those who await results is what is recorded of it. -/
theorem Event.producers_after (e : Event) (hs : Sound e.before ∅) :
    e.after.producers = e.producers := by
  obtain ⟨mid, he⟩ := e.enters hs
  have hbooks : e.after.producers = mid.producers := he.shifts.books.producers
  obtain ⟨s, now, op⟩ := e
  change Sound s ∅ at hs
  cases op with
  | submit r c => exact (shifts_submit now hs r c).books.producers
  | withdraw id => exact hbooks.trans (he.enters.producers_of_withdrawn hs)
  | complete id b => exact hbooks.trans (he.enters.producers_of_withdrawn hs)
  | releaseRequest id c => exact hbooks.trans (he.enters.producers_of_withdrawn hs)
  | _ =>
    refine hbooks.trans (he.enters.producers_same hs (fun id h => ?_) fun t ht => ?_)
    · simpa using Entry.of_eq_withdrawn h
    · simpa using Entry.kind_of_mem ht

theorem Event.producers_of_after (hs : Sound e.before ∅)
    (h : e.after.producers[x]? = some c) :
    e.before.producers[x]? = some c ∨ (∃ r, e.op = .submit r c) ∧ x = e.before.nextId := by
  rw [e.producers_after hs] at h
  have herase : ∀ {id}, (e.before.producers.erase id)[x]? = some c →
      e.before.producers[x]? = some c := by
    intro id h
    rw [Std.ExtTreeMap.getElem?_erase] at h
    split at h
    · cases h
    · exact h
  obtain ⟨s, now, op⟩ := e
  cases op with
  | submit r d =>
    simp only [Event.producers, Std.ExtTreeMap.getElem?_insert] at h
    split at h
    · next heq =>
      cases h
      exact Or.inr ⟨⟨r, rfl⟩, (Std.LawfulEqOrd.compare_eq_iff_eq.mp heq).symm⟩
    · exact Or.inl h
  | withdraw id => exact Or.inl (herase h)
  | complete id b => exact Or.inl (herase h)
  | releaseRequest id d => exact Or.inl (herase h)
  | _ => exact Or.inl h

/-- A request that was withdrawn or answered is not awaited. -/
theorem Event.notMem_of_closes (hs : Sound e.before ∅) (h : e.Closes id) :
    id ∉ e.after.producers := by
  rw [e.producers_after hs]
  rcases h with hop | ⟨b, hop⟩ | ⟨c, hop⟩ <;> simp [Event.producers, hop]

/-- A number that was given out and whose result is not awaited is never awaited again. -/
theorem Event.forgotten_after (hs : Sound e.before ∅) (hid : id.value < e.before.nextId.value)
    (hgone : id ∉ e.before.producers) :
    id.value < e.after.nextId.value ∧ id ∉ e.after.producers := by
  have hnext := (e.numbers hs).2
  refine ⟨by omega, fun hin => ?_⟩
  obtain ⟨p, hp⟩ := Option.isSome_iff_exists.mp (Std.ExtTreeMap.mem_iff_isSome_getElem?.mp hin)
  rcases Event.producers_of_after hs hp with hold | ⟨-, rfl⟩
  · exact hgone (Std.ExtTreeMap.getElem?_eq_some_iff.mp hold).1
  · exact Nat.lt_irrefl _ hid

theorem forgotten_run {steps : List (Moment × Operation)} (hs : Sound s ∅)
    (hid : id.value < s.nextId.value) (hgone : id ∉ s.producers) :
    id.value < (s.run steps).nextId.value ∧ id ∉ (s.run steps).producers := by
  refine hs.trace_induction (P := fun _ s => id.value < s.nextId.value ∧ id ∉ s.producers)
    ⟨hid, hgone⟩ ?_
  rintro past e - hs ⟨hid, hgone⟩
  exact e.forgotten_after hs hid hgone

/-- Results of a request that is not awaited any more are refused. -/
theorem refused_trace {steps : List (Moment × Operation)} (hs : Sound s ∅)
    (hid : id.value < s.nextId.value) (hgone : id ∉ s.producers) (he : e ∈ s.trace steps)
    (hop : e.op = .complete id b) : e.outcome = .completed (.error (.taskNotFound id)) := by
  obtain ⟨xs, hbefore⟩ := exists_run_of_mem he
  have hsound : Sound e.before ∅ := hbefore ▸ hs.run xs
  have hnot : id ∉ e.before.producers := hbefore ▸ (forgotten_run hs hid hgone).2
  rw [Event.outcome, hop, step, hsound.complete_of_notMem hnot]

/-! ### What a requester holds -/

theorem Event.opened_after (hs : Sound e.before ∅) (h : e.before.requesters.Opened) :
    e.after.requesters.Opened := by
  rw [e.requesters_after hs]
  obtain ⟨s, now, op⟩ := e
  cases op with
  | openRequest => exact h.connect
  | leaveRequest c => exact h.leave c
  | readRequest c => exact h.take c
  | releaseRequest id c => exact h.take c
  | complete id b =>
    simp only [Event.requesters]
    cases hsent : (s.withdraw id).1.bind (s.requesters.send? · b) with
    | none => exact h
    | some requesters =>
      obtain ⟨p, -, hsend⟩ := Option.bind_eq_some_iff.mp hsent
      exact h.send? hsend
  | _ => exact h

theorem Event.outcome_of_reads (h : e.Reads c) :
    e.outcome = .result (e.before.requesters.held? c) := by
  obtain ⟨s, now, op⟩ := e
  rcases h with rfl | ⟨id, rfl⟩
  · exact congrArg Outcome.result (s.requesters.take_fst c)
  · have hsame := (s.withdraw_connections id).2.2
    exact congrArg Outcome.result
      ((Switchboard.take_fst _ c).trans (congrArg (·.held? c) hsame))

theorem Event.held?_of_empties (hs : Sound e.before ∅) (h : e.Empties c) :
    e.after.requesters.held? c = none := by
  have htake : (e.before.requesters.take c).2.held? c = none := by
    rw [Switchboard.held?, Switchboard.getElem?_take]
    cases hheld : e.before.requesters.held? c with
    | none =>
      rw [Switchboard.held?] at hheld
      simpa using hheld
    | some b => simp
  rw [e.requesters_after hs]
  obtain ⟨s, now, op⟩ := e
  rcases h with (rfl | ⟨id, rfl⟩) | rfl
  · exact htake
  · exact htake
  · simp [Event.requesters, Switchboard.leave, Switchboard.held?]

/-- A result that is delivered is with the requester of its task, and all others hold what they
held. -/
theorem Event.requesters_of_delivers (hs : Sound e.before ∅) (h : e.Delivers id b)
    (hp : e.before.producers[id]? = some p) : e.after.requesters =
      { e.before.requesters with sides := e.before.requesters.sides.insert p (.holding b) } := by
  obtain ⟨hop, q, hq, hopen⟩ := (Event.delivers_iff hs).mp h
  obtain rfl := Option.some.inj (hp.symm.trans hq)
  rw [e.requesters_after hs, Event.requesters, hop]
  simp [(hs.withdraw_producers id).1, hp, Switchboard.send?, hopen]

theorem Event.held?_of_delivers (hs : Sound e.before ∅) (h : e.Delivers id b)
    (hp : e.before.producers[id]? = some c) : e.after.requesters.held? c = some b := by
  rw [Event.requesters_of_delivers hs h hp]
  simp [Switchboard.held?]

/-- Otherwise the waiting side of a requester stays as it is, unless it has just been opened. -/
theorem Event.sides_requesters (hs : Sound e.before ∅) (hkeeps : ¬ e.Empties c)
    (hnew : e.op.opened? e.before ≠ some (.request c))
    (hother : ∀ id b, e.Delivers id b → e.before.producers[id]? ≠ some c) :
    e.after.requesters.sides[c]? = e.before.requesters.sides[c]? := by
  rw [e.requesters_after hs]
  obtain ⟨s, now, op⟩ := e
  change Sound s ∅ at hs
  cases op with
  | openRequest =>
    have hne : (⟨s.requesters.next⟩ : ConnectionId) ≠ c := fun h => hnew (h ▸ rfl)
    simp [Event.requesters, Switchboard.connect, Std.ExtTreeMap.getElem?_insert, hne]
  | leaveRequest d =>
    have hne : d ≠ c := fun h => hkeeps (Or.inr (h ▸ rfl))
    simp [Event.requesters, Switchboard.leave, Std.ExtTreeMap.getElem?_erase, hne]
  | readRequest d =>
    have hne : d ≠ c := fun h => hkeeps (Or.inl (Or.inl (h ▸ rfl)))
    exact s.requesters.getElem?_take_of_ne hne
  | releaseRequest id d =>
    have hne : d ≠ c := fun h => hkeeps (Or.inl (Or.inr ⟨id, h ▸ rfl⟩))
    exact s.requesters.getElem?_take_of_ne hne
  | complete id b =>
    simp only [Event.requesters, (hs.withdraw_producers id).1]
    cases hp : s.producers[id]? with
    | none => rfl
    | some p =>
      rw [Option.bind_some, Switchboard.send?]
      split
      · next hopen =>
        have hdelivers : Event.Delivers ⟨s, now, .complete id b⟩ id b :=
          (Event.delivers_iff hs).mpr ⟨rfl, p, hp, hopen⟩
        have hne : p ≠ c := fun h => hother id b hdelivers (h ▸ hp)
        simp [Std.ExtTreeMap.getElem?_insert, hne]
      · rfl
  | _ => rfl

/-- A requester holds what it held, unless a result comes or it reads. -/
theorem Event.held?_same (hs : Sound e.before ∅) (hopened : e.before.requesters.Opened)
    (hkeeps : ¬ e.Empties c)
    (hother : ∀ id b, e.Delivers id b → e.before.producers[id]? ≠ some c) :
    e.after.requesters.held? c = e.before.requesters.held? c := by
  by_cases hnew : e.op.opened? e.before = some (.request c)
  · have hfresh := (Side.known_opened e hnew).1
    have hnone : e.before.requesters.sides[c]? = none :=
      getElem?_neg e.before.requesters.sides c fun hin => hfresh (hopened c hin)
    rw [e.requesters_after hs]
    obtain ⟨s, now, op⟩ := e
    cases op with
    | openRequest =>
      cases hnew
      have hbefore : s.requesters.held? ⟨s.requesters.next⟩ = none := by
        rw [Switchboard.held?, hnone]
      rw [hbefore]
      simp [Event.requesters, Switchboard.connect, Switchboard.held?]
    | _ => cases hnew
  · exact Switchboard.held?_congr (Event.sides_requesters hs hkeeps hnew hother)

/-! ### What a requester is to hold -/

theorem unread_concat (id : TaskId) (c : ConnectionId) (past : List Event) (e : Event) :
    unread id c (past ++ [e]) = e.unread id c (unread id c past) := by
  rw [unread, List.foldl_append]
  rfl

theorem Event.unread_of_empties {held : Option ByteArray} (h : e.Empties c) :
    e.unread id c held = none := by
  rcases h with (hop | ⟨i, hop⟩) | hop <;> simp [Event.unread, hop]

theorem Event.unread_of_delivers {held : Option ByteArray} (h : e.Delivers id b) :
    e.unread id c held = some b := by
  simp [Event.unread, h.1, h.2]

theorem Event.unread_same {held : Option ByteArray} (hkeeps : ¬ e.Empties c)
    (hnone : ∀ b, ¬ e.Delivers id b) : e.unread id c held = held := by
  unfold Event.unread
  split
  · next i b hop houtcome =>
    refine if_neg ?_
    rintro rfl
    exact hnone b ⟨hop, houtcome⟩
  · next d hop => exact if_neg fun (h : d = c) => hkeeps (Or.inl (Or.inl (h ▸ hop)))
  · next i d hop => exact if_neg fun (h : d = c) => hkeeps (Or.inl (Or.inr ⟨i, h ▸ hop⟩))
  · next d hop => exact if_neg fun (h : d = c) => hkeeps (Or.inr (h ▸ hop))
  · rfl

/-- Nobody awaits a result on this connection, and none has come. -/
structure Unheard (s : Scheduler) (c : ConnectionId) : Prop where
  opened : s.requesters.Opened
  nobody : ∀ x : TaskId, s.producers[x]? ≠ some c
  empty : s.requesters.held? c = none

/-- The result of this task, and of no other, is awaited on this connection if anywhere, and this is
held there. -/
structure Heard (s : Scheduler) (id : TaskId) (c : ConnectionId) (held : Option ByteArray) :
    Prop where
  opened : s.requesters.Opened
  known : id.value < s.nextId.value
  only : ∀ x : TaskId, s.producers[x]? = some c → x = id
  mine : ∀ p, s.producers[id]? = some p → p = c
  holds : s.requesters.held? c = held
  gone : held ≠ none → id ∉ s.producers

variable {held : Option ByteArray}

theorem Unheard.new (limits : Limits) (c : ConnectionId) : Unheard (.new limits) c where
  opened := Switchboard.opened_empty
  nobody x := by simp [Scheduler.new]
  empty := by simp [Scheduler.new, Switchboard.held?, Switchboard.empty]

theorem Unheard.after (h : Unheard e.before c) (hs : Sound e.before ∅)
    (hop : ∀ r, e.op ≠ .submit r c) : Unheard e.after c := by
  refine ⟨Event.opened_after hs h.opened, fun x hx => ?_, ?_⟩
  · rcases Event.producers_of_after hs hx with hold | ⟨⟨r, hsubmit⟩, -⟩
    · exact h.nobody x hold
    · exact hop r hsubmit
  · by_cases hempties : e.Empties c
    · exact Event.held?_of_empties hs hempties
    · rw [Event.held?_same hs h.opened hempties fun id b _ => h.nobody id, h.empty]

theorem Unheard.run {steps : List (Moment × Operation)} (h : Unheard s c) (hs : Sound s ∅)
    (hop : ∀ d ∈ s.trace steps, ∀ r, d.op ≠ .submit r c) : Unheard (s.run steps) c := by
  refine hs.trace_induction (P := fun _ s => Unheard s c) h ?_
  intro past e he hs hbefore
  exact hbefore.after hs (hop e he)

/-- A request is submitted, and its result is awaited on a connection of its own. -/
theorem Unheard.submit (h : Unheard e.before c) (hs : Sound e.before ∅) {r : Request}
    (hop : e.op = .submit r c) : Heard e.after e.before.nextId c none := by
  have hproducers : e.after.producers = e.before.producers.insert e.before.nextId c := by
    rw [e.producers_after hs, Event.producers, hop]
  refine ⟨Event.opened_after hs h.opened, ?_, fun x hx => ?_, fun p hp => ?_, ?_, by simp⟩
  · have hnumbers := (e.numbers hs).2
    have hentry : e.entry.tasks.length = 1 := by
      simp [Event.entry, Event.outcome, hop, step, Entry.of, Entry.tasks]
    omega
  · rcases Event.producers_of_after hs hx with hold | ⟨-, hnew⟩
    · exact absurd hold (h.nobody x)
    · exact hnew
  · rw [hproducers, Std.ExtTreeMap.getElem?_insert_self] at hp
    exact (Option.some.inj hp).symm
  · have hkeeps : ¬ e.Empties c := by
      rintro ((h | ⟨i, h⟩) | h) <;> rw [hop] at h <;> cases h
    rw [Event.held?_same hs h.opened hkeeps fun id b _ => h.nobody id, h.empty]

/-- A requester holds what it is to hold after an event, and something only if its task is awaited
no more. -/
theorem Heard.holds_after (h : Heard e.before id c held) (hs : Sound e.before ∅) :
    e.after.requesters.held? c = e.unread id c held ∧
      (e.unread id c held ≠ none → id ∉ e.after.producers) := by
  by_cases hempties : e.Empties c
  · rw [Event.unread_of_empties hempties]
    exact ⟨Event.held?_of_empties hs hempties, fun hne => absurd rfl hne⟩
  by_cases hdelivers : ∃ b, e.Delivers id b
  · obtain ⟨b, hb⟩ := hdelivers
    obtain ⟨hop, p, hp, -⟩ := (Event.delivers_iff hs).mp hb
    obtain rfl := h.mine p hp
    rw [Event.unread_of_delivers hb]
    exact ⟨Event.held?_of_delivers hs hb hp,
      fun _ => Event.notMem_of_closes hs (Or.inr (Or.inl ⟨b, hop⟩))⟩
  · have hother : ∀ x b, e.Delivers x b → e.before.producers[x]? ≠ some c := by
      rintro x b hb hx
      exact hdelivers ⟨b, h.only x hx ▸ hb⟩
    rw [Event.unread_same hempties fun b hb => hdelivers ⟨b, hb⟩]
    refine ⟨(Event.held?_same hs h.opened hempties hother).trans h.holds, fun hne => ?_⟩
    exact (e.forgotten_after hs h.known (h.gone hne)).2

/-- A requester holds what it is to hold, whatever else happens. -/
theorem Heard.after (h : Heard e.before id c held) (hs : Sound e.before ∅)
    (hop : ∀ r, e.op ≠ .submit r c) : Heard e.after id c (e.unread id c held) := by
  have hnext := (e.numbers hs).2
  have hknown := h.known
  obtain ⟨hholds, hover⟩ := h.holds_after hs
  refine ⟨Event.opened_after hs h.opened, by omega, fun x hx => ?_, fun p hp => ?_, hholds, hover⟩
  · rcases Event.producers_of_after hs hx with hold | ⟨⟨r, hsubmit⟩, -⟩
    · exact h.only x hold
    · exact absurd hsubmit (hop r)
  · rcases Event.producers_of_after hs hp with hold | ⟨-, rfl⟩
    · exact h.mine p hold
    · exact absurd hknown (Nat.lt_irrefl _)

theorem Heard.run {steps : List (Moment × Operation)} (h : Heard s id c none) (hs : Sound s ∅)
    (hop : ∀ d ∈ s.trace steps, ∀ r, d.op ≠ .submit r c) :
    Heard (s.run steps) id c (unread id c (s.trace steps)) := by
  refine hs.trace_induction (P := fun past s => Heard s id c (unread id c past)) h ?_
  intro past e he hs hbefore
  rw [unread_concat]
  exact hbefore.after hs (hop e he)

/-- Once a task is not awaited any more, its requester holds what it held, until it reads it. -/
theorem Heard.kept_run {steps : List (Moment × Operation)} (h : Heard s id c held)
    (hs : Sound s ∅) (hgone : id ∉ s.producers) (hop : ∀ d ∈ s.trace steps, ∀ r, d.op ≠ .submit r c)
    (hkeeps : ∀ d ∈ s.trace steps, d.Empties c → held = none) :
    Heard (s.run steps) id c held := by
  refine (hs.trace_induction (P := fun _ s => id ∉ s.producers ∧ Heard s id c held)
    ⟨hgone, h⟩ ?_).2
  rintro past e he hs ⟨hgone, hbefore⟩
  refine ⟨(e.forgotten_after hs hbefore.known hgone).2, ?_⟩
  have hunread : e.unread id c held = held := by
    by_cases hempties : e.Empties c
    · rw [Event.unread_of_empties hempties, hkeeps e he hempties]
    · refine Event.unread_same hempties fun b hb => ?_
      obtain ⟨-, p, hp, -⟩ := (Event.delivers_iff hs).mp hb
      exact hgone (Std.ExtTreeMap.getElem?_eq_some_iff.mp hp).1
  rw [← hunread]
  exact hbefore.after hs (hop e he)

/-- A requester that holds nothing, and whose task is not awaited any more, reads nothing. -/
theorem Heard.silent {steps : List (Moment × Operation)} (h : Heard s id c none) (hs : Sound s ∅)
    (hgone : id ∉ s.producers) (hop : ∀ d ∈ s.trace steps, ∀ r, d.op ≠ .submit r c)
    (he : e ∈ s.trace steps) (hreads : e.Reads c) : e.outcome = .result none := by
  obtain ⟨past, future, hsplit⟩ := List.append_of_mem he
  obtain ⟨xs, -, hpast, hbefore, -⟩ := trace_split hsplit
  have hop' : ∀ d ∈ s.trace xs, ∀ r, d.op ≠ .submit r c := fun d hd =>
    hop d (hsplit ▸ List.mem_append_left _ (hpast ▸ hd))
  have hkept := h.kept_run hs hgone hop' fun _ _ _ => rfl
  rw [hbefore] at hkept
  rw [Event.outcome_of_reads hreads, hkept.holds]

theorem unread_of_none (hnone : ∀ d ∈ past, ∀ b, ¬ d.Delivers id b) : unread id c past = none := by
  induction past using List.reverseRecOn with
  | nil => rfl
  | append_singleton past e ih =>
    rw [unread_concat, ih fun d hd => hnone d (List.mem_append_left _ hd)]
    by_cases he : e.Empties c
    · exact Event.unread_of_empties he
    · exact Event.unread_same he (hnone e (by simp))

/-- As long as a requester does not read, it holds its result once that is delivered. -/
theorem Heard.unread_iff {steps : List (Moment × Operation)} (h : Heard s id c none)
    (hs : Sound s ∅)
    (hkeeps : ∀ d ∈ s.trace steps, (∀ r, d.op ≠ .submit r c) ∧ ¬ d.Empties c) :
    unread id c (s.trace steps) = some b ↔ ∃ d ∈ s.trace steps, d.Delivers id b := by
  refine (hs.trace_induction (P := fun past s => Heard s id c (unread id c past) ∧
    (unread id c past = some b ↔ ∃ d ∈ past, d.Delivers id b)) ⟨h, by simp [unread]⟩ ?_).2
  rintro past e he hs ⟨hheard, hiff⟩
  obtain ⟨hsubmit, hempties⟩ := hkeeps e he
  rw [unread_concat]
  refine ⟨hheard.after hs hsubmit, ?_⟩
  simp only [List.mem_append, List.mem_singleton, or_and_right, exists_or, exists_eq_left]
  rw [← hiff]
  by_cases hdelivers : ∃ b', e.Delivers id b'
  · obtain ⟨b', hb'⟩ := hdelivers
    -- A result was delivered before only if the task is not awaited any more.
    have hnone : unread id c past = none := by
      by_contra hne
      obtain ⟨-, p, hp, -⟩ := (Event.delivers_iff hs).mp hb'
      exact hheard.gone hne (Std.ExtTreeMap.getElem?_eq_some_iff.mp hp).1
    rw [Event.unread_of_delivers hb', hnone]
    have hsame : e.Delivers id b ↔ b' = b :=
      ⟨fun hb => (Operation.complete.inj (hb'.1.symm.trans hb.1)).2, fun heq => heq ▸ hb'⟩
    simp [hsame]
  · have hnot : ∀ b, ¬ e.Delivers id b := fun b hb => hdelivers ⟨b, hb⟩
    rw [Event.unread_same hempties hnot]
    exact (or_iff_left (hnot b)).symm

theorem Heard.finds {steps : List (Moment × Operation)} (h : Heard s id c none) (hs : Sound s ∅)
    (hop : ∀ d ∈ s.trace steps, ∀ r, d.op ≠ .submit r c) :
    Finds id c (s.trace steps) (s.run steps) := by
  -- Every event of the run finds the requester as it is to be, and is followed by a run.
  have hat : ∀ {mid y rest}, s.trace steps = mid ++ y :: rest → Sound y.before ∅ ∧
      Heard y.before id c (unread id c mid) ∧ (∀ r, y.op ≠ .submit r c) ∧
      ∃ ys, y.after.trace ys = rest ∧ ∀ d ∈ y.after.trace ys, ∀ r, d.op ≠ .submit r c := by
    intro mid y rest hsplit
    obtain ⟨xs, ys, hmid, hbefore, hrest, -⟩ := trace_split hsplit
    have hrun : Heard (s.run xs) id c (unread id c (s.trace xs)) := h.run hs fun d hd =>
      hop d (hsplit ▸ List.mem_append_left _ (hmid ▸ hd))
    refine ⟨hbefore ▸ hs.run xs, hbefore ▸ hmid ▸ hrun, hop y (hsplit ▸ by simp), ys, hrest, ?_⟩
    exact fun d hd => hop d (hsplit ▸ by simp [hrest ▸ hd])
  refine ⟨(h.run hs hop).holds, ?_, ?_, ?_⟩
  · intro mid d between y rest b hsplit hdelivers hbetween hreads
    obtain ⟨hsound, hheard, hsubmit, ys, hrest, hops⟩ := hat hsplit
    have hafter := hheard.after hsound hsubmit
    rw [Event.unread_of_delivers hdelivers] at hafter
    obtain ⟨us, -, hus, hbefore, -⟩ := trace_split hrest
    have hkept : Heard (d.after.run us) id c (some b) := hafter.kept_run (d.sound_after hsound)
      (hafter.gone (by simp)) (fun x hx => hops x (hrest ▸ List.mem_append_left _ (hus ▸ hx)))
      fun x hx he => absurd he (hbetween x (hus ▸ hx))
    rw [Event.outcome_of_reads hreads, ← hbefore, hkept.holds]
  · intro mid y rest b hsplit hreads houtcome z hz
    obtain ⟨hsound, hheard, hsubmit, ys, rfl, hops⟩ := hat hsplit
    rw [Event.outcome_of_reads hreads, hheard.holds] at houtcome
    have hheld := Outcome.result.inj houtcome
    have hgone := y.forgotten_after hsound hheard.known (hheard.gone (by simp [hheld]))
    have hafter := hheard.after hsound hsubmit
    rw [Event.unread_of_empties (Or.inl hreads)] at hafter
    exact hafter.silent (y.sound_after hsound) hgone.2 hops hz
  · intro mid y rest hsplit hrelease hnone
    obtain ⟨hsound, hheard, hsubmit, ys, rfl, hops⟩ := hat hsplit
    have hreads : y.Reads c := Or.inr ⟨id, hrelease⟩
    have hgone : id ∉ y.after.producers :=
      Event.notMem_of_closes hsound (Or.inr (Or.inr ⟨c, hrelease⟩))
    have hafter := hheard.after hsound hsubmit
    rw [Event.unread_of_empties (Or.inl hreads)] at hafter
    refine ⟨?_, fun z hz => hafter.silent (y.sound_after hsound) hgone hops hz⟩
    rw [Event.outcome_of_reads hreads, hheard.holds, unread_of_none hnone]

/-! ### All requests -/

/-- Every result that is awaited is awaited where its request was submitted. -/
theorem submitted_run (limits : Limits) (steps : List (Moment × Operation)) :
    ∀ id c, ((new limits).run steps).producers[id]? = some c →
      ∃ e ∈ (new limits).trace steps, e.before.nextId = id ∧ ∃ r, e.op = .submit r c := by
  refine (Sound.new limits).trace_induction (P := fun past s => ∀ id c,
    s.producers[id]? = some c → ∃ e ∈ past, e.before.nextId = id ∧ ∃ r, e.op = .submit r c)
    (by simp [Scheduler.new]) ?_
  intro past e _ hs hpast id c hid
  rcases Event.producers_of_after hs hid with hold | ⟨hsubmit, rfl⟩
  · obtain ⟨d, hd, hsubmitted⟩ := hpast id c hold
    exact ⟨d, List.mem_append_left _ hd, hsubmitted⟩
  · exact ⟨e, by simp, rfl, hsubmit⟩

theorem Event.found (hs : Sound e.before ∅) (hop : e.op = .complete id b) :
    (e.before.IsAwaited id ∧ ∃ delivery, e.outcome = .completed (.ok delivery)) ∨
      (¬ e.before.IsAwaited id ∧ e.outcome = .completed (.error (.taskNotFound id)) ∧
        e.after = e.before) := by
  obtain ⟨s, now, op⟩ := e
  change Sound s ∅ at hs
  cases hop
  cases hp : s.producers[id]? with
  | none =>
    have hid : id ∉ s.producers := by simp [Std.ExtTreeMap.mem_iff_isSome_getElem?, hp]
    have hstep : s.step now (.complete id b) = (.completed (.error (.taskNotFound id)), s) := by
      rw [step, hs.complete_of_notMem hid]
    refine Or.inr ⟨fun h => hid (hs.isAwaited_iff.mp h), ?_, ?_⟩
    · rw [Event.outcome, hstep]
    · rw [Event.after, hstep]
  | some p =>
    have hid := (Std.ExtTreeMap.getElem?_eq_some_iff.mp hp).1
    exact Or.inl ⟨hs.isAwaited_iff.mpr hid, _, congrArg Outcome.completed (hs.complete_fst hp b)⟩

/-- Each request has one result at most in every run, and its requester finds it. -/
theorem results_trace (limits : Limits) (steps : List (Moment × Operation)) :
    Results ((new limits).trace steps) ((new limits).run steps) := by
  have hover : ∀ past d future, (new limits).trace steps = past ++ d :: future → ∀ id,
      d.Closes id → id.value < d.before.nextId.value → ∀ e ∈ future, ∀ b, e.op = .complete id b →
        e.outcome = .completed (.error (.taskNotFound id)) := by
    intro past d future hsplit id hcloses hid e he b hop
    have hs : Sound d.before ∅ := sound_of_mem_trace (hsplit ▸ List.mem_append_cons_self)
    obtain ⟨-, ys, -, -, rfl, -⟩ := trace_split hsplit
    have hnext := (d.numbers hs).2
    exact refused_trace (d.sound_after hs) (by omega) (Event.notMem_of_closes hs hcloses) he hop
  refine ⟨fun e he id b => Event.found (sound_of_mem_trace he),
    fun e he id b => Event.delivers_iff (sound_of_mem_trace he), ?_, hover, ?_, ?_⟩
  · rintro past d future hsplit id ⟨b, delivery, hop, houtcome⟩ e he ⟨b', delivery', hop', hok⟩
    have hs : Sound d.before ∅ := sound_of_mem_trace (hsplit ▸ List.mem_append_cons_self)
    have hid : id ∈ d.before.tasks := by
      rcases Event.found hs hop with ⟨⟨t, ht, -⟩, -⟩ | ⟨-, hrefused, -⟩
      · exact mem_tasks ht
      · rw [houtcome] at hrefused
        cases hrefused
    have hrefused := hover past d future hsplit id (Or.inr (Or.inl ⟨b, hop⟩))
      (hs.numbered.below hid).2 e he b' hop'
    rw [hok] at hrefused
    cases hrefused
  · intro past d future hsplit id b hdelivers
    have hs : Sound d.before ∅ := sound_of_mem_trace (hsplit ▸ List.mem_append_cons_self)
    obtain ⟨xs, -, rfl, hbefore, -⟩ := trace_split hsplit
    obtain ⟨-, c, hc, -⟩ := (Event.delivers_iff hs).mp hdelivers
    refine ⟨c, submitted_run limits xs id c (hbefore ▸ hc), Event.held?_of_delivers hs hdelivers hc,
      fun other hne => Switchboard.held?_congr ?_⟩
    rw [Event.requesters_of_delivers hs hdelivers hc]
    simp [Std.ExtTreeMap.getElem?_insert, hne.symm]
  · intro past e future hsplit r c hop halone
    obtain ⟨xs, ys, rfl, hbefore, rfl, hlast⟩ := trace_split hsplit
    have hs : Sound e.before ∅ := hbefore ▸ sound_run limits xs
    have hunheard : Unheard e.before c := hbefore ▸ (Unheard.new limits c).run (.new limits)
      fun d hd r' => halone d (List.mem_append_left _ hd) r'
    rw [← hlast]
    exact (hunheard.submit hs hop).finds (e.sound_after hs)
      fun d hd r' => halone d (List.mem_append_right _ hd) r'

end Scheduler

end TaskExchange
