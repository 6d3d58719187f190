import TaskExchange.Proofs.Record
import TaskExchange.Proofs.Sound

/-!
Entries: an operation first enters something in the books, or nothing, and may take tasks back from
workers; then it passes tasks on.  Main statements: every event of a sound scheduler is an entry
with shifts after it, as they are recorded (`Event.enters`), entries keep a scheduler sound
(`Enters.sound`), and so every run does (`sound_run`).  What is shown of runs from here on is shown
by `Sound.trace_induction`.
-/

namespace TaskExchange

namespace Switchboard

variable {α : Type}

/-- No waiting side holds anything that it did not hold before. -/
def NoNews (b b' : Switchboard α) : Prop :=
  ∀ c, b'.sides[c]? = b.sides[c]? ∨ b'.held? c = none

theorem noNews_refl (b : Switchboard α) : b.NoNews b := fun _ => Or.inl rfl

theorem noNews_connect (b : Switchboard α) : b.NoNews b.connect.2 := by
  intro c
  by_cases h : (⟨b.next⟩ : ConnectionId) = c
  · exact Or.inr (by simp [connect, held?, h])
  · exact Or.inl (by simp [connect, Std.ExtTreeMap.getElem?_insert, h])

theorem noNews_leave (b : Switchboard α) (c : ConnectionId) : b.NoNews (b.leave c) := by
  intro d
  by_cases h : c = d
  · exact Or.inr (by simp [leave, held?, h])
  · exact Or.inl (by simp [leave, Std.ExtTreeMap.getElem?_erase, h])

theorem noNews_take (b : Switchboard α) (c : ConnectionId) : b.NoNews (b.take c).2 := by
  intro d
  rw [take]
  split
  · by_cases h : c = d
    · exact Or.inr (by simp [held?, h])
    · exact Or.inl (by simp [Std.ExtTreeMap.getElem?_insert, h])
  · exact Or.inl rfl

end Switchboard

namespace Scheduler

/-- What an operation does to the books and to the lines of workers before it passes tasks on; the
tasks that are new or were taken back are in its hand. -/
inductive Enters (now : Moment) (s : Scheduler) : Entry → Scheduler → Finset TaskId → Prop where
  /-- Workers may leave their lines, waiting sides may come, be read and leave, and tasks may be
  taken back from workers. -/
  | connections {pool : Lanes ConnectionId} {polls : Switchboard (List Task)}
      {requesters : Switchboard ByteArray} {back : List TaskId} {mid : Scheduler} :
      (∀ lane, (pool.line lane).Sublist (s.pool.line lane)) → s.polls.NoNews polls →
      Recall { s with pool, polls, requesters } back mid →
      Enters now s .nothing mid back.toFinset
  /-- A worker waits where no task does. -/
  | park {lane : Lane} {c : ConnectionId} :
      s.queues.line lane = [] →
      Enters now s .nothing { s with pool := s.pool.pushBack lane c } ∅
  | batch {requests : List Request} {job : JobId} {category : Category} :
      s.targetOf requests = .ok (job, category) →
      Enters now s
        (.accepted (batchTasks now (numbersFrom s.nextId.value requests.length) requests))
        (s.enroll now job category requests) (numbersFrom s.nextId.value requests.length).toFinset
  | single {r : Request} {c : ConnectionId} :
      Enters now s (.accepted [.ofRequest s.nextId .priority now.civil r]) (s.enrollSingle now r c)
        {s.nextId}
  | acknowledge {id : TaskId} {mid : Scheduler} :
      s.acknowledge? id = some mid → Enters now s (.acknowledged id) mid ∅
  | withdraw {id : TaskId} {t : Task} {requesters : Switchboard ByteArray} :
      s.tasks[id]? = some t → t.kind = .priority →
      Enters now s (.withdrawn id) { (s.withdraw id).2 with requesters } ∅
  /-- There is no such request. -/
  | withdrawNothing {id : TaskId} {requesters : Switchboard ByteArray} :
      (∀ t, s.tasks[id]? = some t → t.kind = .regional) →
      Enters now s (.withdrawn id) { s with requesters } ∅
  | deleteJob {job : JobId} {mid : Scheduler} :
      s.deleteJob? job = some mid → Enters now s (.deleted job) mid ∅

variable {now : Moment} {s mid : Scheduler} {hand : Finset TaskId} {entry : Entry}

theorem Enters.sound (h : Enters now s entry mid hand) (hs : Sound s ∅) : Sound mid hand := by
  cases h with
  | connections _ _ hrecall => exact hrecall.sound (hs.connections ..)
  | park => exact hs.connections ..
  | batch htarget => exact hs.enroll now htarget
  | single => exact hs.enrollSingle ..
  | acknowledge hmid => exact hs.acknowledge hmid
  | withdraw ht hkind => exact (hs.withdraw ht hkind).connections ..
  | withdrawNothing => exact hs.connections ..
  | deleteJob hmid => exact hs.deleteJob hmid

/-! ### The operations, one by one -/

/-- Workers may leave their lines, and waiting sides may come, be read and leave. -/
theorem Enters.quiet {pool : Lanes ConnectionId} {polls : Switchboard (List Task)}
    (requesters : Switchboard ByteArray)
    (hpool : ∀ lane, (pool.line lane).Sublist (s.pool.line lane)) (hpolls : s.polls.NoNews polls) :
    Enters now s .nothing { s with pool, polls, requesters } ∅ :=
  .connections hpool hpolls (.nil _)

theorem Enters.idle (now : Moment) (s : Scheduler) : Enters now s .nothing s ∅ :=
  .quiet s.requesters (fun _ => List.Sublist.refl _) (Switchboard.noNews_refl _)

/-- The new tasks of a batch are passed on, and what nobody received joins its line. -/
theorem shifts_enqueueBatch (now : Moment) (hs : Sound s ∅) {requests : List Request} {job : JobId}
    {category : Category} (h : s.targetOf requests = .ok (job, category)) :
    ∃ s', s.enqueueBatch now requests =
        .ok (numbersFrom s.nextId.value requests.length, s') ∧
      Shifts now (s.enroll now job category requests)
        (numbersFrom s.nextId.value requests.length).toFinset
        (passedOn now (numbersFrom s.nextId.value requests.length)
          (s.enroll now job category requests)) s' ∅ := by
  have hplaced := (hs.enroll now h).placed
  have hsorted := pairwise_numbersFrom s.nextId.value requests.length
  obtain ⟨rest, s₁, heach, hsub, hshifts, hempty⟩ :=
    shifts_dispatchEach now [] hplaced (nodup_numbersFrom ..)
      (fun id hid => List.mem_toFinset.mpr hid) (hsorted.imp fun h _ _ => Nat.le_of_lt h)
      fun id hid hnot => absurd (List.mem_toFinset.mp hid) hnot
  rw [Finset.sdiff_self, Finset.empty_union] at hshifts
  have hresult : s.enqueueBatch now requests =
      .ok (numbersFrom s.nextId.value requests.length,
        { s₁ with queues := s₁.queues.append ⟨.regional, category⟩ rest }) := by
    rw [enqueueBatch, h]
    simp only [acceptEach_eq, List.reverse_nil, List.nil_append, bind, Except.bind]
    rw [enroll, acceptEach_eq] at heach
    rw [heach]
    rfl
  have hfresh : ∀ x ∈ rest, s₁.FreshIn ⟨.regional, category⟩ x := by
    intro x hx
    obtain ⟨r, hr, ht⟩ := enroll_task_of_mem now job category (hsub.subset hx)
    refine hshifts.freshIn_of_mem hplaced (List.mem_toFinset.mpr hx) ⟨_, ht, ?_, rfl⟩
    rw [← ((targetOf_ok h).2.1 r hr).2]
    rfl
  refine ⟨_, hresult, ?_⟩
  cases rest with
  | nil => simpa using hshifts
  | cons id rest =>
    have hpool : s₁.pool.line ⟨.regional, category⟩ = [] := by
      obtain ⟨t, ht, hlane, -⟩ := hfresh id (List.mem_cons_self ..)
      exact hlane ▸ hempty id (List.mem_cons_self ..) t ht
    have happend := shifts_append now hpool s₁.queues (hsorted.sublist hsub)
      fun x hx => ⟨hfresh x hx, fun t ht => (hshifts.placed hplaced).key ht⟩
    simpa using hshifts.trans happend

/-- A worker that polls waits where no task does, or is given the head of the line. -/
theorem shifts_poll (now : Moment) (hp : Placed s ∅) (lane : Lane) (c : ConnectionId) :
    (s.queues.line lane = [] ∧
      s.poll now lane c = (.parked, { s with pool := s.pool.pushBack lane c })) ∨
    ∃ tasks s', s.queues.line lane ≠ [] ∧ s.poll now lane c = (.dispatched tasks, s') ∧
      Shifts now s ∅ (tasks.map (⟨·, none⟩)) s' ∅ ∧
      tasks.map (·.id) = (s.queues.line lane).take (s.batchLimit lane.kind) ∧
      s'.queues = s.queues.setLine lane
        ((s.queues.line lane).drop (s.batchLimit lane.kind)) := by
  by_cases hline : s.queues.line lane = []
  · refine Or.inl ⟨hline, ?_⟩
    have htake : s.takeQueued now lane (s.batchLimit lane.kind) = ([], s) := by
      rw [takeQueued, hline]
      cases s.batchLimit lane.kind <;> rfl
    rw [poll, htake]
  · obtain ⟨tasks, s', htake, hshifts, hids, hqueues⟩ :=
      shifts_takeQueued now hp lane (s.batchLimit lane.kind)
    refine Or.inr ⟨tasks, s', hline, ?_, hshifts, hids, hqueues⟩
    have hlimit : s.batchLimit lane.kind ≠ 0 := by
      cases lane.kind <;> simp [batchLimit]
    cases tasks with
    | nil =>
      have hnone := hids.symm
      simp [List.take_eq_nil_iff, hlimit, hline] at hnone
    | cons t tasks => rw [poll, htake]

theorem enters_withdraw (id : TaskId) (requesters : Switchboard ByteArray) :
    Enters now s (.withdrawn id) { (s.withdraw id).2 with requesters } ∅ := by
  cases ht : s.tasks[id]? with
  | none =>
    have hstate : s.withdraw id = (none, s) := by simp [withdraw, ht]
    rw [hstate]
    exact .withdrawNothing fun t h => by simp [ht] at h
  | some t =>
    cases hkind : t.kind with
    | priority => exact .withdraw ht hkind
    | regional =>
      have hstate : s.withdraw id = (none, s) := by simp [withdraw, ht, Task.isRegional, hkind]
      rw [hstate]
      refine .withdrawNothing fun u hu => ?_
      rw [ht] at hu
      cases hu
      exact hkind

/-- A result goes to the requester of its task, if there is one and it has not left. -/
theorem complete_snd (s : Scheduler) (id : TaskId) (result : ByteArray) :
    (s.complete id result).2 = { (s.withdraw id).2 with
      requesters := ((s.withdraw id).1.bind (s.requesters.send? · result)).getD s.requesters } := by
  obtain ⟨-, -, hrequesters⟩ := s.withdraw_connections id
  rw [complete]
  split
  · next h =>
    rw [h] at hrequesters ⊢
    simp [← hrequesters]
  · next c s' h =>
    rw [h] at hrequesters ⊢
    split
    · next hsend => simp [← hrequesters, hsend]
    · next hsend => simp [← hrequesters, hsend]

/-! ### Every event is an entry with shifts after it -/

/-- What is recorded of an event is what happens: after its entry the state is `mid`, and from there
on tasks are passed on. -/
structure Event.Explained (e : Event) (mid : Scheduler) : Prop where
  enters : Enters e.now e.before e.entry mid e.hand
  shifts : Shifts e.now mid e.hand e.handovers e.after ∅
  pool : mid.pool = e.pool
  polls : mid.polls = e.polls
  requesters : mid.requesters = e.requesters

/-- An event that does nothing but enter something passes no tasks on. -/
theorem explained_entry {op : Operation} {outcome : Outcome} {s' : Scheduler}
    (hstep : s.step now op = (outcome, s'))
    (henters : Enters now s (.of now op outcome) s' ∅)
    (htasks : (Entry.of now op outcome).tasks = [])
    (hlisted : Event.listed ⟨s, now, op⟩ = []) (hlog : Event.handovers ⟨s, now, op⟩ = [])
    (hpool : s'.pool = Event.pool ⟨s, now, op⟩) (hpolls : s'.polls = Event.polls ⟨s, now, op⟩)
    (hrequesters : s'.requesters = Event.requesters ⟨s, now, op⟩) :
    ∃ mid, Event.Explained ⟨s, now, op⟩ mid := by
  have hentry : Event.entry ⟨s, now, op⟩ = .of now op outcome := by
    rw [Event.entry, Event.outcome, hstep]
  have hhand : Event.hand ⟨s, now, op⟩ = ∅ := by
    simp [Event.hand, hentry, htasks, Event.requeued, hlisted]
  have hafter : Event.after ⟨s, now, op⟩ = s' := by rw [Event.after, hstep]
  refine ⟨s', ?_, ?_, hpool, hpolls, hrequesters⟩
  · rw [hentry, hhand]
    exact henters
  · rw [hhand, hlog, hafter]
    exact .refl

/-- An event that does nothing but take tasks back passes on those that were in flight. -/
theorem explained_requeue {op : Operation} {outcome : Outcome} {r : Scheduler} (hs : Sound s ∅)
    {pool : Lanes ConnectionId} {polls : Switchboard (List Task)} {ids : List TaskId}
    (hr : r = { s with pool, polls })
    (hstep : s.step now op = (outcome, (r.requeueFront now ids).2))
    (hentry : Entry.of now op outcome = .nothing)
    (hsub : ∀ lane, (pool.line lane).Sublist (s.pool.line lane)) (hnews : s.polls.NoNews polls)
    (hlisted : Event.listed ⟨s, now, op⟩ = ids)
    (hlog : Event.handovers ⟨s, now, op⟩ = r.givenAgain now ids)
    (hpool : pool = Event.pool ⟨s, now, op⟩) (hpolls : polls = Event.polls ⟨s, now, op⟩)
    (hrequesters : s.requesters = Event.requesters ⟨s, now, op⟩) :
    ∃ mid, Event.Explained ⟨s, now, op⟩ mid := by
  subst hr
  have hs₀ : Sound { s with pool, polls } ∅ := hs.connections pool polls s.requesters
  obtain ⟨back, mid, hrecall, hback, hshifts, -⟩ := shifts_requeueFront now hs₀.placed ids
  have hentry' : Event.entry ⟨s, now, op⟩ = .nothing := by
    rw [Event.entry, Event.outcome, hstep]
    exact hentry
  have hhand : Event.hand ⟨s, now, op⟩ = back.toFinset := by
    rw [Event.hand_of_nothing hentry', Event.requeued, hlisted, hback]
  have hafter : Event.after ⟨s, now, op⟩ =
      (Scheduler.requeueFront { s with pool, polls } now ids).2 := by
    rw [Event.after, hstep]
  refine ⟨mid, ?_, ?_, hrecall.pool.trans hpool, hrecall.polls.trans hpolls,
    hrecall.books.requesters.trans hrequesters⟩
  · rw [hentry', hhand]
    exact .connections hsub hnews hrecall
  · rw [hhand, hlog, hafter]
    exact hshifts

theorem explained_enqueueBatch (hs : Sound s ∅) (requests : List Request) :
    ∃ mid, Event.Explained ⟨s, now, .enqueueBatch requests⟩ mid := by
  cases htarget : s.targetOf requests with
  | error r =>
    have hstep : s.step now (.enqueueBatch requests) = (.refused r, s) := by
      simp [step, enqueueBatch, htarget, bind, Except.bind]
    exact explained_entry hstep (.idle now s) rfl rfl (by simp [Event.handovers, htarget]) rfl rfl
      rfl
  | ok target =>
    obtain ⟨job, category⟩ := target
    obtain ⟨s', hresult, hshifts⟩ := shifts_enqueueBatch now hs htarget
    have hstep : s.step now (.enqueueBatch requests) =
        (.accepted (numbersFrom s.nextId.value requests.length), s') := by
      rw [step, hresult]
    have hentry : Event.entry ⟨s, now, .enqueueBatch requests⟩ = .accepted
        (batchTasks now (numbersFrom s.nextId.value requests.length) requests) := by
      rw [Event.entry, Event.outcome, hstep]
      rfl
    have hhand : Event.hand ⟨s, now, .enqueueBatch requests⟩ =
        (numbersFrom s.nextId.value requests.length).toFinset := by
      rw [Event.hand, hentry, Entry.tasks, ids_batchTasks now (length_numbersFrom ..)]
      simp [Event.requeued, Event.listed]
    have hlog : Event.handovers ⟨s, now, .enqueueBatch requests⟩ =
        passedOn now (numbersFrom s.nextId.value requests.length)
          (s.enroll now job category requests) := by
      simp only [Event.handovers, htarget]
    refine ⟨s.enroll now job category requests, ?_, ?_, ?_, ?_, ?_⟩
    · rw [hentry, hhand]
      exact .batch htarget
    · rw [hhand, hlog, Event.after, hstep]
      exact hshifts
    · exact enroll_pool
    · exact enroll_polls
    · exact enroll_requesters

theorem explained_poll (hs : Sound s ∅) (lane : Lane) (c : ConnectionId) :
    ∃ mid, Event.Explained ⟨s, now, .poll lane c⟩ mid := by
  rcases shifts_poll now hs.placed lane c with
    ⟨hline, hpoll⟩ | ⟨tasks, s', -, hpoll, hshifts, -⟩
  · have hstep : s.step now (.poll lane c) =
        (.polled .parked, { s with pool := s.pool.pushBack lane c }) := by
      rw [step, hpoll]
    refine explained_entry hstep (.park hline) rfl rfl ?_ ?_ rfl rfl
    · simp only [Event.handovers, Event.outcome, hstep]
    · simp only [Event.pool, Event.outcome, hstep]
  · have hstep : s.step now (.poll lane c) = (.polled (.dispatched tasks), s') := by
      rw [step, hpoll]
    have hhand : Event.hand ⟨s, now, .poll lane c⟩ = ∅ := by
      simp [Event.hand, Event.entry, Entry.of, Entry.tasks, Event.requeued, Event.listed]
    refine ⟨s, ?_, ?_, ?_, rfl, rfl⟩
    · rw [hhand]
      exact .idle now s
    · rw [hhand, Event.after, Event.handovers, Event.outcome]
      simpa only [hstep] using hshifts
    · simp only [Event.pool, Event.outcome, hstep]

theorem explained_acknowledge (hs : Sound s ∅) (id : TaskId) :
    ∃ mid, Event.Explained ⟨s, now, .acknowledge id⟩ mid := by
  have hlog : Event.handovers ⟨s, now, .acknowledge id⟩ = [] := givenAgain_nil ..
  cases hmid : s.acknowledge? id with
  | none =>
    have hstep : s.step now (.acknowledge id) = (.found false, s) := by simp [step, hmid]
    exact explained_entry hstep (.idle now s) rfl rfl hlog rfl rfl rfl
  | some mid =>
    have hstep : s.step now (.acknowledge id) = (.found true, mid) := by simp [step, hmid]
    obtain ⟨t, -, -, hr⟩ := removal_acknowledge hs.placed hs.ledger hmid
    exact explained_entry hstep (.acknowledge hmid) rfl rfl hlog hr.pool hr.polls hr.requesters

theorem explained_deleteJob (hs : Sound s ∅) (job : JobId) :
    ∃ mid, Event.Explained ⟨s, now, .deleteJob job⟩ mid := by
  have hlog : Event.handovers ⟨s, now, .deleteJob job⟩ = [] := givenAgain_nil ..
  cases hmid : s.deleteJob? job with
  | none =>
    have hstep : s.step now (.deleteJob job) = (.found false, s) := by simp [step, hmid]
    exact explained_entry hstep (.idle now s) rfl rfl hlog rfl rfl rfl
  | some mid =>
    have hstep : s.step now (.deleteJob job) = (.found true, mid) := by simp [step, hmid]
    obtain ⟨j, -, hr⟩ := removal_deleteJob hs.placed hs.ledger hmid
    exact explained_entry hstep (.deleteJob hmid) rfl rfl hlog hr.pool hr.polls hr.requesters

theorem explained_reportLost (hs : Sound s ∅) (id : TaskId) :
    ∃ mid, Event.Explained ⟨s, now, .reportLost id⟩ mid := by
  cases hawaits : s.awaitsAcknowledgment id with
  | false =>
    have hstep : s.step now (.reportLost id) = (.found false, s) := by
      simp [step, reportLost, hawaits]
    have hlisted : Event.listed ⟨s, now, .reportLost id⟩ = [] := by simp [Event.listed, hawaits]
    have hlog : Event.handovers ⟨s, now, .reportLost id⟩ = [] := by simp [Event.handovers, hlisted]
    exact explained_entry hstep (.idle now s) rfl hlisted hlog rfl rfl rfl
  | true =>
    have hstep : s.step now (.reportLost id) =
        (.found ((s.requeueFront now [id]).1 = 1), (s.requeueFront now [id]).2) := by
      simp [step, reportLost, hawaits]
    have hlisted : Event.listed ⟨s, now, .reportLost id⟩ = [id] := by simp [Event.listed, hawaits]
    exact explained_requeue hs (r := s) rfl hstep rfl (fun _ => .refl _) s.polls.noNews_refl hlisted
      (by simp only [Event.handovers, hlisted]) rfl rfl rfl

theorem explained_abandonPoll (hs : Sound s ∅) (lane : Lane) (c : ConnectionId) :
    ∃ mid, Event.Explained ⟨s, now, .abandonPoll lane c⟩ mid := by
  have hsub : ∀ other, ((s.pool.keep lane (· ≠ c)).line other).Sublist (s.pool.line other) :=
    fun other => s.pool.line_keep_sublist lane other _
  have hread : (s.releasePoll lane c).1 = s.polls.held? c := s.polls.take_fst c
  cases hheld : s.polls.held? c with
  | none =>
    have hstep : s.step now (.abandonPoll lane c) = (.requeued 0, (s.releasePoll lane c).2) := by
      rw [step, abandonPoll, ← Prod.eta (s.releasePoll lane c), hread, hheld]
    have hlisted : Event.listed ⟨s, now, .abandonPoll lane c⟩ = [] := by
      simp [Event.listed, hheld]
    have hlog : Event.handovers ⟨s, now, .abandonPoll lane c⟩ = [] := by
      simp [Event.handovers, hlisted]
    exact explained_entry hstep (.quiet _ hsub (s.polls.noNews_take c)) rfl hlisted hlog rfl rfl rfl
  | some tasks =>
    have hstep : s.step now (.abandonPoll lane c) =
        (.requeued ((s.releasePoll lane c).2.requeueFront now (tasks.map (·.id))).1,
          ((s.releasePoll lane c).2.requeueFront now (tasks.map (·.id))).2) := by
      rw [step, abandonPoll, ← Prod.eta (s.releasePoll lane c), hread, hheld]
      rfl
    have hlisted : Event.listed ⟨s, now, .abandonPoll lane c⟩ = tasks.map (·.id) := by
      simp [Event.listed, hheld]
    exact explained_requeue hs (r := (s.releasePoll lane c).2) rfl hstep rfl hsub
      (s.polls.noNews_take c) hlisted (by simp only [Event.handovers, hlisted]) rfl rfl rfl

/-- A new request is passed on, or joins its line. -/
theorem shifts_submit (now : Moment) (hs : Sound s ∅) (r : Request) (c : ConnectionId) :
    Shifts now (s.enrollSingle now r c) {s.nextId}
      (passedOn now [s.nextId] (s.enrollSingle now r c)) (s.submit now r c).2 ∅ := by
  have hfresh : (s.enrollSingle now r c).FreshIn ⟨.priority, r.category⟩ s.nextId := by
    exact ⟨_, by rw [getElem?_enrollSingle, if_pos rfl], rfl, rfl⟩
  exact shifts_offer now (hs.enrollSingle now r c).placed hfresh

theorem explained_submit (hs : Sound s ∅) (r : Request) (c : ConnectionId) :
    ∃ mid, Event.Explained ⟨s, now, .submit r c⟩ mid := by
  have hhand : Event.hand ⟨s, now, .submit r c⟩ = {s.nextId} := by
    simp [Event.hand, Event.entry, Event.outcome, step, submit, accept, Entry.of, Entry.tasks,
      Task.ofRequest, Event.requeued, Event.listed]
  refine ⟨s.enrollSingle now r c, ?_, ?_, rfl, rfl, rfl⟩
  · rw [hhand]
    exact .single
  · rw [hhand]
    exact shifts_submit now hs r c

theorem explained_complete (id : TaskId) (result : ByteArray) :
    ∃ mid, Event.Explained ⟨s, now, .complete id result⟩ mid := by
  obtain ⟨hpool, hpolls, hrequesters⟩ := s.withdraw_connections id
  have hstep : s.step now (.complete id result) =
      (.completed (s.complete id result).1, { (s.withdraw id).2 with
        requesters := Event.requesters ⟨s, now, .complete id result⟩ }) := by
    rw [step, complete_snd]
    rfl
  exact explained_entry hstep (enters_withdraw id _) rfl rfl (givenAgain_nil ..) hpool hpolls rfl

theorem Event.enters (e : Event) (hs : Sound e.before ∅) : ∃ mid, e.Explained mid := by
  obtain ⟨s, now, op⟩ := e
  change Sound s ∅ at hs
  have hsame : ∀ lane, (s.pool.line lane).Sublist (s.pool.line lane) := fun _ => .refl _
  have hquiet := Switchboard.noNews_refl s.polls
  have hnone : s.givenAgain now [] = [] := givenAgain_nil ..
  cases op with
  | openPoll =>
    exact explained_entry rfl (.quiet _ hsame s.polls.noNews_connect) rfl rfl hnone rfl rfl rfl
  | openRequest => exact explained_entry rfl (.quiet _ hsame hquiet) rfl rfl hnone rfl rfl rfl
  | leavePoll c =>
    exact explained_entry rfl (.quiet _ hsame (s.polls.noNews_leave c)) rfl rfl hnone rfl rfl rfl
  | leaveRequest c => exact explained_entry rfl (.quiet _ hsame hquiet) rfl rfl hnone rfl rfl rfl
  | readPoll c =>
    exact explained_entry rfl (.quiet _ hsame (s.polls.noNews_take c)) rfl rfl hnone rfl rfl rfl
  | readRequest c => exact explained_entry rfl (.quiet _ hsame hquiet) rfl rfl hnone rfl rfl rfl
  | enqueueBatch requests => exact explained_enqueueBatch hs requests
  | poll lane c => exact explained_poll hs lane c
  | acknowledge id => exact explained_acknowledge hs id
  | reportLost id => exact explained_reportLost hs id
  | requeueExpired t =>
    exact explained_requeue hs (r := s) rfl rfl rfl hsame hquiet rfl rfl rfl rfl rfl
  | deleteJob job => exact explained_deleteJob hs job
  | submit r c => exact explained_submit hs r c
  | withdraw id =>
    obtain ⟨hpool, hpolls, hrequesters⟩ := s.withdraw_connections id
    exact explained_entry rfl (enters_withdraw id _) rfl rfl hnone hpool hpolls hrequesters
  | complete id result => exact explained_complete id result
  | releaseRequest id c =>
    obtain ⟨hpool, hpolls, hrequesters⟩ := s.withdraw_connections id
    refine explained_entry rfl (enters_withdraw id _) rfl rfl hnone hpool hpolls ?_
    simp only [releaseRequest, hrequesters, Event.requesters]
  | releasePoll lane c =>
    exact explained_entry rfl (.quiet _ (fun other => s.pool.line_keep_sublist lane other _)
      (s.polls.noNews_take c)) rfl rfl hnone rfl rfl rfl
  | abandonPoll lane c => exact explained_abandonPoll hs lane c
  | returnUndelivered tasks =>
    exact explained_requeue hs (r := s) rfl rfl rfl hsame hquiet rfl rfl rfl rfl rfl

/-! ### What follows for every event -/

theorem Enters.noNews (h : Enters now s entry mid hand) (hs : Sound s ∅) :
    s.polls.NoNews mid.polls := by
  cases h with
  | connections _ hpolls hrecall => exact hrecall.polls ▸ hpolls
  | park => exact Switchboard.noNews_refl _
  | batch => simpa using Switchboard.noNews_refl s.polls
  | single => exact Switchboard.noNews_refl _
  | acknowledge hmid =>
    obtain ⟨t, -, -, hr⟩ := removal_acknowledge hs.placed hs.ledger hmid
    simpa [hr.polls] using Switchboard.noNews_refl s.polls
  | withdraw ht hkind =>
    simpa [(removal_withdraw hs.placed ht hkind).polls] using Switchboard.noNews_refl s.polls
  | withdrawNothing => exact Switchboard.noNews_refl _
  | deleteJob hmid =>
    obtain ⟨j, -, hr⟩ := removal_deleteJob hs.placed hs.ledger hmid
    simpa [hr.polls] using Switchboard.noNews_refl s.polls

/-- A worker that waits finds something on its waiting side when a task is handed over to it, and
only then. -/
theorem Event.received (e : Event) (hs : Sound e.before ∅) {c : ConnectionId}
    {tasks : List Task} :
    (e.after.polls.held? c = some tasks ∧ e.before.polls.held? c ≠ some tasks) ↔
      ∃ t, tasks = [t] ∧ ⟨t, some c⟩ ∈ e.handovers := by
  obtain ⟨mid, he⟩ := e.enters hs
  rcases he.shifts.handed c with ⟨hlog, hsame⟩ | ⟨t, -, -, hlog, hopen, hside, -⟩
  · constructor
    · rintro ⟨hafter, hbefore⟩
      rw [Switchboard.held?_congr hsame] at hafter
      rcases he.enters.noNews hs c with hmid | hmid
      · exact absurd (Switchboard.held?_congr hmid ▸ hafter) hbefore
      · rw [hmid] at hafter
        cases hafter
    · rintro ⟨t, -, hmem⟩
      rw [← mem_handedTo, hlog] at hmem
      cases hmem
  · have hmem : ∀ {u}, ⟨u, some c⟩ ∈ e.handovers ↔ u = t := by
      intro u
      rw [← mem_handedTo, hlog, List.mem_singleton]
    have hafter : e.after.polls.held? c = some [t] := by rw [Switchboard.held?, hside]
    have hbefore : e.before.polls.held? c = none :=
      Switchboard.held?_of_isOpen
        (e.isOpen_before (List.ne_nil_of_mem (hmem.mpr rfl)) (he.polls ▸ hopen))
    simp [hafter, hbefore, hmem, eq_comm]

/-- No connection is opened while tasks are passed on. -/
theorem Event.polls_next_after (e : Event) (hs : Sound e.before ∅) :
    e.after.polls.next = e.polls.next := by
  obtain ⟨mid, he⟩ := e.enters hs
  rw [he.shifts.polls_next, he.polls]

theorem Event.sound_after (e : Event) (hs : Sound e.before ∅) : Sound e.after ∅ := by
  obtain ⟨mid, he⟩ := e.enters hs
  exact he.shifts.sound (he.enters.sound hs)

/-- A sound scheduler stays sound. -/
theorem Sound.run (hs : Sound s ∅) (steps : List (Moment × Operation)) : Sound (s.run steps) ∅ :=
  run_induction (P := fun s => Sound s ∅) hs fun s now op hs => Event.sound_after ⟨s, now, op⟩ hs

/-- Whatever is done to a new scheduler, it stays sound. -/
theorem sound_run (limits : Limits) (steps : List (Moment × Operation)) :
    Sound ((new limits).run steps) ∅ := (Sound.new limits).run steps

/-- Whatever holds of no events and a sound scheduler, and is kept by each event of a run, holds of
the events of this run and the state that is reached. -/
theorem Sound.trace_induction {steps : List (Moment × Operation)}
    {P : List Event → Scheduler → Prop} (hs : Sound s ∅) (first : P [] s)
    (next : ∀ past, ∀ e ∈ s.trace steps, Sound e.before ∅ → P past e.before →
      P (past ++ [e]) e.after) : P (s.trace steps) (s.run steps) := by
  have h : Sound (s.run steps) ∅ ∧
      ((∀ e ∈ s.trace steps, e ∈ s.trace steps) → P (s.trace steps) (s.run steps)) := by
    -- The events so far are among those of the run.
    refine Scheduler.trace_induction (P := fun past x => Sound x ∅ ∧
      ((∀ e ∈ past, e ∈ s.trace steps) → P past x)) ⟨hs, fun _ => first⟩ ?_
    rintro past e ⟨hs, hpast⟩
    refine ⟨e.sound_after hs, fun hall => ?_⟩
    exact next past e (hall e (by simp)) hs (hpast fun d hd => hall d (List.mem_append_left _ hd))
  exact h.2 fun _ he => he

end Scheduler

end TaskExchange
