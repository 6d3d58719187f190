import TaskExchange.Proofs.Agreement
import TaskExchange.Proofs.Custody
import TaskExchange.Proofs.Frame

/-!
Separation: the two kinds of work share the table, the numbers and the ways in which tasks are
passed on, and still do not interfere.  Main statement: `separate_run`.  In every run an operation
on one kind leaves all that is of the other kind as it is; and what it does and answers depends on
its own kind alone, so that two runs that agree there agree there again afterwards.
-/

namespace TaskExchange

open Scheduler

/-- Somebody waits on a side for work of a kind, or for its result. -/
def Side.WaitsFor (k : Kind) (s : Scheduler) : Side → Prop
  | .poll c => ∃ lane, lane.kind = k ∧ c ∈ s.pool.line lane
  | .request c => k = .priority ∧ ∃ id : TaskId, s.producers[id]? = some c

namespace Scheduler

/-- Two states are the same as far as a kind of work goes: its tasks, their deliveries, its lines of
tasks and of workers, and the jobs or the requests. -/
structure SameShare (k : Kind) (s s' : Scheduler) : Prop extends SameIn (·.kind = k) s s' where
  jobs : k = .regional → s'.jobs = s.jobs
  producers : k = .priority → s'.producers = s.producers

/-- Two states are the same as far as a kind of work goes, and so are the next number and some
waiting sides, all those among them on which somebody waits for this kind of work. -/
structure Alike (k : Kind) (mine : Side → Prop) (s s' : Scheduler) : Prop where
  share : SameShare k s s'
  nextId : s'.nextId = s.nextId
  polls : SameOn (fun c => mine (.poll c)) s.polls.sides s'.polls.sides
  requesters : SameOn (fun c => mine (.request c)) s.requesters.sides s'.requesters.sides
  waits : ∀ side : Side, side.WaitsFor k s → mine side

/-- Neither of two states has a task of the other kind under a number. -/
def OwnOf (k : Kind) (s s' : Scheduler) (id : TaskId) : Prop :=
  (∀ t, s.tasks[id]? = some t → t.kind = k) ∧ ∀ t, s'.tasks[id]? = some t → t.kind = k

/-- What an operation on a kind of work does after a run has nothing to do with the other kind. -/
structure Separate (limits : Limits) (steps : List (Moment × Operation)) (now : Moment)
    (op : Operation) (k : Kind) : Prop where
  apart : ∀ other, other ≠ k →
    SameShare other ((new limits).run steps) (((new limits).run steps).step now op).2
  determined : ∀ (mine : Side → Prop) (steps' : List (Moment × Operation)),
    (∀ side ∈ op.side?, mine side) →
    Alike k mine ((new limits).run steps) ((new limits).run steps') →
    (((new limits).run steps').step now op).1 = (((new limits).run steps).step now op).1 ∧
      Alike k mine (((new limits).run steps).step now op).2
        (((new limits).run steps').step now op).2

variable {now : Moment} {op : Operation} {outcome : Outcome} {k other : Kind} {s s' mid : Scheduler}
  {entry : Entry} {hand : Finset TaskId} {e : Event} {t : Task} {id : TaskId} {c : ConnectionId}
  {own : TaskId → Prop} {mine : Side → Prop}

/-! ### The kinds of the tasks that an event is about -/

theorem Entry.kind?_of_mem (ht : t ∈ (Entry.of now op outcome).tasks) :
    op.kind? = some t.kind := by
  unfold Entry.of at ht
  split at ht
  · next requests ids =>
    obtain ⟨i, -, rfl⟩ := List.mem_iff_getElem.mp ht
    simp [Entry.tasks, batchTasks, Task.ofRequest, Operation.kind?]
  · obtain ⟨id, -, rfl⟩ := List.mem_map.mp ht
    rfl
  all_goals cases ht

theorem Entry.kind?_of_ends (h : (Entry.of now op outcome).ends t) : op.kind? = some t.kind := by
  unfold Entry.of at h
  split at h <;> first | exact h.elim | (rw [h.1]; rfl)

/-! ### Jobs and requests -/

theorem Enters.jobs_same (h : Enters now s entry mid hand) (hs : Sound s ∅)
    (hentry : entry = .nothing ∨ ∃ id, entry = .withdrawn id) : mid.jobs = s.jobs := by
  cases h with
  | connections _ _ hrecall => exact hrecall.books.jobs
  | park => rfl
  | withdraw ht hkind =>
    obtain rfl := hs.placed.key ht
    simp only [withdraw_state ht hkind]
    rfl
  | withdrawNothing => rfl
  | _ => simp at hentry

namespace Event

/-- The jobs are no matter of priority work. -/
theorem jobs_after (hs : Sound e.before ∅) (hkind : e.op.kind? = some .priority) :
    e.after.jobs = e.before.jobs := by
  obtain ⟨mid, he⟩ := e.enters hs
  have hbooks : e.after.jobs = mid.jobs := he.shifts.books.jobs
  obtain ⟨s, now, op⟩ := e
  cases op with
  | submit r c => exact (shifts_submit now hs r c).books.jobs
  | withdraw id => exact hbooks.trans (he.enters.jobs_same hs (Or.inr ⟨id, rfl⟩))
  | complete id b => exact hbooks.trans (he.enters.jobs_same hs (Or.inr ⟨id, rfl⟩))
  | releaseRequest id c => exact hbooks.trans (he.enters.jobs_same hs (Or.inr ⟨id, rfl⟩))
  | poll lane c => exact hbooks.trans (he.enters.jobs_same hs (Or.inl rfl))
  | releasePoll lane c => exact hbooks.trans (he.enters.jobs_same hs (Or.inl rfl))
  | abandonPoll lane c => exact hbooks.trans (he.enters.jobs_same hs (Or.inl rfl))
  | _ => cases hkind

/-- The requests are no matter of regional work. -/
theorem producers_of_regional (hs : Sound e.before ∅) (hkind : e.op.kind? = some .regional) :
    e.after.producers = e.before.producers := by
  rw [e.producers_after hs]
  obtain ⟨s, now, op⟩ := e
  cases op with
  | submit | withdraw | complete | releaseRequest => cases hkind
  | _ => rfl

end Event

/-! ### One run -/

namespace Event

section

-- What a worker that is abandoned has not read is of the kind that the event is about.
variable (hs : Sound e.before ∅) (hkind : e.op.kind? = some k)
  (hheld : ∀ lane c tasks, e.op = .abandonPoll lane c → e.before.polls.held? c = some tasks →
    ∀ t ∈ tasks, ∀ u, e.before.tasks[t.id]? = some u → u.kind = k)
include hs hkind hheld

/-- What an event takes back is of the kind that the event is about. -/
theorem kind_of_requeued (ht : e.before.tasks[id]? = some t) (hid : id ∈ e.requeued) :
    t.kind = k := by
  have hlisted : id ∈ e.listed := List.mem_toFinset.mp (Finset.mem_filter.mp hid).1
  obtain ⟨s, now, op⟩ := e
  cases op with
  | reportLost x =>
    obtain rfl : .regional = k := Option.some.inj hkind
    by_contra hne
    by_cases hx : id = x
    · subst hx
      have hnone : s.awaitsAcknowledgment id = false :=
        awaitsAcknowledgment_of_ne fun u hu => Option.some.inj (ht.symm.trans hu) ▸ hne
      simp [listed, hnone] at hlisted
    · simp only [listed] at hlisted
      split at hlisted <;> simp [hx] at hlisted
  | requeueExpired x =>
    obtain rfl : .regional = k := Option.some.inj hkind
    obtain ⟨u, hu, hregional⟩ := hs.regional_of_expired hlisted
    exact Option.some.inj (hu.symm.trans ht) ▸ hregional
  | abandonPoll lane c =>
    obtain ⟨u, hu, rfl⟩ := List.mem_map.mp hlisted
    cases htasks : s.polls.held? c with
    | none =>
      rw [htasks] at hu
      cases hu
    | some tasks =>
      rw [htasks] at hu
      exact hheld lane c tasks rfl htasks u hu t ht
  | returnUndelivered tasks => cases hkind
  | _ => cases hlisted

theorem elsewhere (hne : other ≠ k) : e.Elsewhere (·.kind = other) where
  accepted t ht hother := by
    have hmem := Entry.kind?_of_mem ht
    rw [hkind] at hmem
    exact hne (hother.symm.trans (Option.some.inj hmem).symm)
  ended _ hends hother := by
    have hmem := Entry.kind?_of_ends hends
    rw [hkind] at hmem
    exact hne (hother.symm.trans (Option.some.inj hmem).symm)
  back ht hid hother := hne (hother.symm.trans (kind_of_requeued hs hkind hheld ht hid))
  polls lane c hother := by
    refine ⟨fun hop => ?_, fun hop => ?_⟩
    · rw [hop] at hkind
      exact hne (hother.symm.trans (Option.some.inj hkind))
    · rcases hop with hop | hop <;>
      · rw [hop] at hkind
        exact hne (hother.symm.trans (Option.some.inj hkind))

theorem sameShare (hne : other ≠ k) : SameShare other e.before e.after where
  toSameIn := sameIn hs (elsewhere hs hkind hheld hne)
  jobs hother := by
    subst hother
    cases k with
    | regional => exact absurd rfl hne
    | priority => exact jobs_after hs hkind
  producers hother := by
    subst hother
    cases k with
    | regional => exact producers_of_regional hs hkind
    | priority => exact absurd rfl hne

end

end Event

/-! ### Two runs -/

namespace SameShare

theorem owned (h : SameShare k s s') : Owned k (OwnOf k s s') s := by
  intro id t ht hkind
  have ht' : s'.tasks[id]? = some t := (h.task_iff hkind).mpr ht
  exact ⟨fun u hu => Option.some.inj (ht.symm.trans hu) ▸ hkind,
    fun u hu => Option.some.inj (ht'.symm.trans hu) ▸ hkind⟩

theorem owned' (h : SameShare k s s') : Owned k (OwnOf k s s') s' :=
  fun ht hkind => h.owned ((h.task_iff hkind).mp ht) hkind

/-- What is under a number that is of no other kind is the same for both. -/
theorem tasks (h : SameShare k s s') : SameOn (OwnOf k s s') s.tasks s'.tasks := by
  intro id hid
  refine Option.ext fun t => ⟨fun ht => ?_, fun ht => ?_⟩
  · exact (h.task_iff (hid.2 t ht)).mp ht
  · exact (h.task_iff (hid.1 t ht)).mpr ht

theorem sameOn_inFlight (h : SameShare k s s') (hs : Sound s ∅) (hs' : Sound s' ∅) :
    SameOn (OwnOf k s s') s.inFlight s'.inFlight := by
  intro id hid
  cases ht : s.tasks[id]? with
  | some t => exact h.inFlight ht (hid.1 t ht)
  | none =>
    have ht' : s'.tasks[id]? = none := (h.tasks id hid).trans ht
    have hnone : ∀ {s : Scheduler}, Sound s ∅ → s.tasks[id]? = none → s.inFlight[id]? = none := by
      intro s hs ht
      refine getElem?_neg s.inFlight id fun hin => ?_
      obtain ⟨t, hsome⟩ := exists_of_mem_tasks (hs.mem_tasks_of_inFlight hin)
      rw [ht] at hsome
      cases hsome
    rw [hnone hs ht, hnone hs' ht']

theorem sameLines (h : SameShare k s s') (hs : Sound s ∅) :
    SameLines k (OwnOf k s s') s.queues s'.queues where
  line hlane := h.queue _ hlane
  own {lane} hlane id hid := by
    obtain ⟨-, t, ht, -, rfl⟩ := hs.placed.inLine hid
    exact h.owned ht hlane

end SameShare

theorem Alike.agree (h : Alike k mine s s') (hs : Sound s ∅) (hs' : Sound s' ∅)
    (hlimits : s'.limits = s.limits) : Agree k (OwnOf k s s') mine s s' where
  limits := hlimits
  nextId := h.nextId
  fresh {id} hid := by
    have hnone := hs.numbered.notMem_of_le hid
    have hnone' := hs'.numbered.notMem_of_le (h.nextId ▸ hid)
    exact ⟨fun t ht => absurd (mem_tasks ht) hnone, fun t ht => absurd (mem_tasks ht) hnone'⟩
  tasks := h.share.tasks
  kind hid ht := hid.1 _ ht
  inFlight := h.share.sameOn_inFlight hs hs'
  queues := h.share.sameLines hs
  pool := ⟨fun hlane => h.share.pool _ hlane, fun hlane c hc => h.waits (.poll c) ⟨_, hlane, hc⟩⟩
  polls := h.polls
  requesters := h.requesters
  jobs := h.share.jobs
  producers := h.share.producers
  awaited hk id c hc := h.waits (.request c) ⟨hk, id, hc⟩

theorem Agree.alike (h : Agree k own mine s s') (hown : Owned k own s) (hown' : Owned k own s') :
    Alike k mine s s' where
  share :=
    { task_iff := fun {id t} hkind => by
        constructor
        · intro ht
          exact (h.tasks id (hown' ht hkind)).symm.trans ht
        · intro ht
          exact (h.tasks id (hown ht hkind)).trans ht
      inFlight := fun ht hkind => h.inFlight _ (hown ht hkind)
      queue := fun _ hlane => h.queues.line hlane
      pool := fun _ hlane => h.pool.line hlane
      jobs := h.jobs
      producers := h.producers }
  nextId := h.nextId
  polls := h.polls
  requesters := h.requesters
  waits side hside := by
    cases side with
    | poll c =>
      obtain ⟨lane, hlane, hc⟩ := hside
      exact h.pool.own hlane c hc
    | request c =>
      obtain ⟨hk, id, hc⟩ := hside
      exact h.awaited hk hc

/-- If the tasks of a kind and all numbers that are not in use count as own, then so do the tasks of
this kind after an event. -/
theorem Event.owned_after (e : Event) (hs : Sound e.before ∅) (hown : Owned k own e.before)
    (hfresh : ∀ {id : TaskId}, e.before.nextId ≤ id → own id) : Owned k own e.after := by
  intro id t ht hkind
  rcases (e.roll_iff hs).mp (roll?_of_task ht) with ⟨hroll, -⟩ | ⟨hnew, rfl⟩
  · obtain ⟨u, hu, hsame⟩ := Option.map_eq_some_iff.mp hroll
    exact hown hu ((Task.kind_eq_of_asAccepted hsame).trans hkind)
  · exact hfresh (e.le_of_mem_tasks hs hnew)

/-- Two sound states that are the same for a kind of work are so after an operation on it, which
answers the same. -/
theorem Alike.step (h : Alike k mine s s') (hs : Sound s ∅) (hs' : Sound s' ∅)
    (hlimits : s'.limits = s.limits) (hkind : op.kind? = some k)
    (hside : ∀ side ∈ op.side?, mine side)
    (hheld : ∀ lane c tasks, op = .abandonPoll lane c → s.polls.held? c = some tasks →
      ∀ t ∈ tasks, OwnOf k s s' t.id) (now : Moment) :
    (s'.step now op).1 = (s.step now op).1 ∧ Alike k mine (s.step now op).2 (s'.step now op).2 := by
  have hagree := h.agree hs hs' hlimits
  have hstep := hagree.step hs hs' h.share.owned h.share.owned' hkind hside hheld now
  have hafter : Owned k (OwnOf k s s') (s.step now op).2 :=
    Event.owned_after ⟨s, now, op⟩ hs h.share.owned hagree.fresh
  have hafter' : Owned k (OwnOf k s s') (s'.step now op).2 :=
    Event.owned_after ⟨s', now, op⟩ hs' h.share.owned' fun hid => hagree.fresh (h.nextId ▸ hid)
  exact ⟨hstep.result, hstep.agree.alike hafter hafter'⟩

/-! ### What a worker has not read -/

section

variable {limits : Limits} {steps : List (Moment × Operation)} {tasks : List Task}

/-- What a worker has not read is of the kind of its polls. -/
theorem kind_of_held (hpolls : ∀ x ∈ steps, ∀ lane, x.2 = .poll lane c → lane.kind = k)
    (hheld : ((new limits).run steps).polls.held? c = some tasks) : ∀ t ∈ tasks, t.kind = k := by
  obtain ⟨t, rfl, hmem⟩ := unread_run limits steps hheld
  obtain ⟨e, he, hg⟩ := List.mem_flatMap.mp hmem
  obtain ⟨past, future, hsplit⟩ := List.append_of_mem he
  obtain ⟨xs, -, rfl, hbefore, -⟩ := trace_split hsplit
  have hin := (e.waited (sound_of_mem_trace he) hg).1
  rw [← hbefore] at hin
  obtain ⟨d, hd, hop, -⟩ := parked_run limits xs hin
  have hd' : d ∈ (new limits).trace steps := hsplit ▸ List.mem_append_left _ hd
  intro u hu
  obtain rfl := List.mem_singleton.mp hu
  exact hpolls (d.now, d.op) (mem_steps_of_mem_trace hd') u.lane hop

/-- What a worker has not read has the kind of the task that has its number. -/
theorem kind_of_held_task (hheld : ((new limits).run steps).polls.held? c = some tasks)
    (ht : t ∈ tasks) {u : Task} (hu : ((new limits).run steps).tasks[t.id]? = some u) :
    u.kind = t.kind := by
  obtain ⟨v, rfl, hmem⟩ := unread_run limits steps hheld
  obtain rfl := List.mem_singleton.mp ht
  obtain ⟨e, he, hg⟩ := List.mem_flatMap.mp hmem
  have hid : u.id = t.id := (sound_run limits steps).placed.key hu
  have hsame : u.asAccepted = t.asAccepted :=
    eq_of_accepted (accepted_of_mem_handovers he hg)
      (mem_accepted_run limits steps (roll?_of_task hu)) hid
  exact Task.kind_eq_of_asAccepted hsame

end

/-- In every run the two kinds of work do not interfere.  A worker that is gone is known by its
connection alone, so it counts for a kind only if all its polls were of this kind. -/
theorem separate_run (limits : Limits) (steps : List (Moment × Operation)) (now : Moment)
    (op : Operation) (k : Kind) (hkind : op.kind? = some k)
    (hpolls : ∀ lane c, op = .abandonPoll lane c → ∀ x ∈ steps, ∀ other, x.2 = .poll other c →
      other.kind = k) : Separate limits steps now op k := by
  have hs := sound_run limits steps
  have hheld : ∀ lane c tasks, op = .abandonPoll lane c →
      ((new limits).run steps).polls.held? c = some tasks → ∀ t ∈ tasks, t.kind = k :=
    fun lane c tasks hop hheld => kind_of_held (hpolls lane c hop) hheld
  constructor
  · intro other hne
    refine Event.sameShare (e := ⟨(new limits).run steps, now, op⟩) hs hkind ?_ hne
    intro lane c tasks hop htasks t ht u hu
    exact (kind_of_held_task htasks ht hu).trans (hheld lane c tasks hop htasks t ht)
  · intro mine steps' hside halike
    have hlimits : ((new limits).run steps').limits = ((new limits).run steps).limits := by
      rw [limits_run, limits_run]
    refine halike.step hs (sound_run limits steps') hlimits hkind hside ?_ now
    intro lane c tasks hop htasks t ht
    have hmine : mine (.poll c) := hside _ (by rw [hop]; rfl)
    have htasks' : ((new limits).run steps').polls.held? c = some tasks :=
      (Switchboard.held?_congr (halike.polls c hmine)).trans htasks
    have hk := hheld lane c tasks hop htasks t ht
    exact ⟨fun u hu => (kind_of_held_task htasks ht hu).trans hk,
      fun u hu => (kind_of_held_task htasks' ht hu).trans hk⟩

/-- A worker waits for each kind of work, a batch and a request come, and each worker is given a
task. -/
def bothKinds : List (Moment × Operation) :=
  [.openPoll, .poll ⟨.regional, ⟨"graph", "1"⟩⟩ ⟨0⟩, .openPoll,
    .poll ⟨.priority, ⟨"graph", "1"⟩⟩ ⟨1⟩, .openRequest,
    .enqueueBatch [⟨some ⟨"job"⟩, ⟨"graph", "1"⟩, default⟩],
    .submit ⟨some ⟨"job"⟩, ⟨"graph", "1"⟩, default⟩ ⟨0⟩].map fun op => (default, op)

/-- The second worker is gone and its task is taken back, while the first one keeps its own; and it
would be the same if the first task were completed already. -/
theorem separate_bothKinds :
    Operation.kind? (.abandonPoll ⟨.priority, ⟨"graph", "1"⟩⟩ ⟨1⟩) = some .priority ∧
      (∀ x ∈ bothKinds, ∀ other, x.2 = .poll other ⟨1⟩ → other.kind = .priority) ∧
      Separate .standard bothKinds default (.abandonPoll ⟨.priority, ⟨"graph", "1"⟩⟩ ⟨1⟩)
        .priority ∧
      Alike .priority (fun _ => True) ((new .standard).run bothKinds)
        ((new .standard).run (bothKinds ++ [(default, .acknowledge ⟨1⟩)])) ∧
      (((new .standard).run bothKinds).abandonPoll default ⟨.priority, ⟨"graph", "1"⟩⟩ ⟨1⟩).1 = 1 ∧
      (((new .standard).run bothKinds).abandonPoll default ⟨.priority, ⟨"graph", "1"⟩⟩
        ⟨1⟩).2.inFlight.keys = [⟨1⟩] := by
  have hpolls : ∀ x ∈ bothKinds, ∀ other, x.2 = .poll other ⟨1⟩ → other.kind = .priority := by
    intro x hx other hop
    simp only [bothKinds, List.map_cons, List.map_nil, List.mem_cons, List.not_mem_nil,
      or_false] at hx
    rcases hx with rfl | rfl | rfl | rfl | rfl | rfl | rfl <;> cases hop
    rfl
  refine ⟨rfl, hpolls, ?_, ?_, by decide +kernel⟩
  · refine separate_run .standard bothKinds default _ .priority rfl fun lane c hop => ?_
    cases hop
    exact hpolls
  · have hs := sound_run .standard bothKinds
    have hfound : (((new .standard).run bothKinds).acknowledge? ⟨1⟩).isSome = true := by
      decide +kernel
    obtain ⟨mid, hmid⟩ := Option.isSome_iff_exists.mp hfound
    obtain ⟨t, -, -, hr⟩ := removal_acknowledge hs.placed hs.ledger hmid
    have hrun : (new .standard).run (bothKinds ++ [(default, .acknowledge ⟨1⟩)]) = mid := by
      rw [run_append, run, List.foldl_cons, List.foldl_nil, step, hmid]
      rfl
    have hshare := (separate_run .standard bothKinds default (.acknowledge ⟨1⟩) .regional rfl
      (by simp)).apart .priority (by decide)
    rw [step, hmid] at hshare
    rw [hrun]
    exact ⟨hshare, hr.nextId, fun c _ => by rw [hr.polls], fun c _ => by rw [hr.requesters],
      fun _ _ => trivial⟩

end Scheduler

end TaskExchange
