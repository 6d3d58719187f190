import TaskExchange.Proofs.Allotment
import TaskExchange.Proofs.Leasing

/-!
Requeues: what exactly happens to tasks that are taken back from workers.  Of any list of numbers
those count that are in flight, each once and in increasing order, however the list names them.  In
each lane the smallest go to the workers that have not left, one to each, and the others stand
before all that stood in line.  Main statement: `requeues_run`, for the operation itself and for the
four by which others ask for it.
-/

namespace TaskExchange.Scheduler

/-- The tasks of a list that are in flight, in the order of their numbers, each once. -/
structure Returning (s : Scheduler) (ids back : List TaskId) : Prop where
  increasing : back.Pairwise (·.value < ·.value)
  mem_iff : ∀ id, id ∈ back ↔ id ∈ ids ∧ id ∈ s.inFlight

/-- Tasks that were in flight are taken back and given out again, with these results. -/
structure Requeued (now : Moment) (s : Scheduler) (back : List TaskId)
    (result : Nat × Scheduler) : Prop where
  count : result.1 = back.length
  /-- In each lane, each task goes to the worker of the same place, among the workers that have not
  left: it is in flight once more, under a new lease. -/
  given : ∀ lane (k : Nat) id c, (s.inLane lane back)[k]? = some id →
    (s.openIn lane)[k]? = some c → ∃ t, s.tasks[id]? = some t ∧
      result.2.tasks[id]? = some { t with state := .inFlight, deliveries := t.deliveries + 1 } ∧
      result.2.inFlight[id]? = some (leaseFrom s.limits now lane.kind) ∧
      result.2.polls.sides[c]? =
        some (.holding [{ t with state := .inFlight, deliveries := t.deliveries + 1 }])
  /-- The others wait. -/
  waits : ∀ lane (k : Nat) id, (s.inLane lane back)[k]? = some id →
    (s.openIn lane).length ≤ k → ∃ t, s.tasks[id]? = some t ∧
      result.2.tasks[id]? = some { t with state := .queued } ∧ id ∉ result.2.inFlight
  /-- They stand before all that stood in line. -/
  line : ∀ lane, result.2.queues.line lane =
    (s.inLane lane back).drop (s.openIn lane).length ++ s.queues.line lane
  /-- Every task that is taken back belongs to a lane. -/
  housed : ∀ id ∈ back, ∃ lane, id ∈ s.inLane lane back
  others : ∀ id ∉ back, result.2.tasks[id]? = s.tasks[id]? ∧
    result.2.inFlight[id]? = s.inFlight[id]?
  /-- Nothing comes to other waiting sides. -/
  sides : ∀ c, (∀ lane (k : Nat), (s.openIn lane)[k]? = some c → (s.inLane lane back).length ≤ k) →
    result.2.polls.sides[c]? = s.polls.sides[c]?
  /-- From each line of workers, those have gone that were served or stood before one who was, or
  all if they were too few. -/
  pool : ∀ lane, ∃ gone, Dismissed s.polls.isOpen (s.inLane lane back).length (s.pool.line lane)
    gone (result.2.pool.line lane)
  rest : result.2 = { s with
    tasks := result.2.tasks
    inFlight := result.2.inFlight
    queues := result.2.queues
    pool := result.2.pool
    polls := { s.polls with sides := result.2.polls.sides } }

/-- What the operations do that take tasks back from workers. -/
structure Requeues (now : Moment) (s : Scheduler) : Prop where
  front : ∀ ids, ∃ back, Returning s ids back ∧ Requeued now s back (s.requeueFront now ids)
  /-- Neither the order of the numbers nor how often each is named makes a difference, nor do
  numbers that are not in flight. -/
  order : ∀ ids ids', (∀ id ∈ s.inFlight, id ∈ ids ↔ id ∈ ids') →
    s.requeueFront now ids = s.requeueFront now ids'
  undelivered : ∀ tasks, ∃ back, Returning s (tasks.map (·.id)) back ∧
    Requeued now s back (s.returnUndelivered now tasks)
  /-- All tasks come back whose leases have ended. -/
  expired : ∀ t, ∃ back, back.Pairwise (·.value < ·.value) ∧
    (∀ id, id ∈ back ↔ ∃ lease, s.inFlight[id]? = some (some lease) ∧ lease ≤ t) ∧
    Requeued now s back (s.requeueExpired now t)
  /-- A task that is lost comes back, if it is a regional one in flight; else nothing happens. -/
  lost : ∀ id, if id ∈ s.inFlight ∧ s.tasks[id]?.any Task.isRegional then
      (s.reportLost now id).1 = true ∧ Requeued now s [id] (1, (s.reportLost now id).2)
    else s.reportLost now id = (false, s)
  /-- A worker that is gone leaves its line first; then what it was given comes back. -/
  abandoned : ∀ lane c, match s.polls.held? c with
    | some tasks => ∃ back, Returning s (tasks.map (·.id)) back ∧
      Requeued now (s.releasePoll lane c).2 back (s.abandonPoll now lane c)
    | none => s.abandonPoll now lane c = (0, (s.releasePoll lane c).2)

variable {now : Moment} {s s' mid : Scheduler} {ids ids' back left : List TaskId} {id : TaskId}
  {lane : Lane} {c : ConnectionId}

/-! ### Taking back -/

/-- The tasks that come back stand in the order of the list. -/
theorem sublist_takeBackEach : ∀ (ids taken : List TaskId) (s : Scheduler),
    ∃ back, (takeBackEach ids taken s).1 = taken.reverse ++ back ∧ back.Sublist ids
  | [], taken, s => ⟨[], by simp [takeBackEach], List.Sublist.refl _⟩
  | id :: ids, taken, s => by
    cases hback : s.takeBack? id with
    | none =>
      obtain ⟨back, heach, hsub⟩ := sublist_takeBackEach ids taken s
      exact ⟨back, by simp [takeBackEach, hback, heach], hsub.cons _⟩
    | some s' =>
      obtain ⟨back, heach, hsub⟩ := sublist_takeBackEach ids (id :: taken) s'
      exact ⟨id :: back, by simp [takeBackEach, hback, heach], hsub.cons_cons _⟩

/-- Of the tasks in a list those come back that are in flight, in the order of their numbers. -/
theorem returning_takeBackEach (s : Scheduler) (ids : List TaskId) :
    ∃ back mid, takeBackEach (ids.mergeSort (· ≤ ·)) [] s = (back, mid) ∧ Recall s back mid ∧
      Returning s ids back := by
  obtain ⟨back, mid, heach, hrecall, hnodup, hmem⟩ :=
    recall_takeBackEach (ids.mergeSort (· ≤ ·)) s []
  obtain ⟨back', heach', hsub⟩ := sublist_takeBackEach (ids.mergeSort (· ≤ ·)) [] s
  rw [List.reverse_nil, List.nil_append] at heach heach'
  obtain rfl : back = back' := by rw [← heach', heach]
  have hsorted : (ids.mergeSort (· ≤ ·)).Pairwise fun a b => a.value ≤ b.value := by
    refine (List.pairwise_mergeSort ?_ ?_ ids).imp fun h => of_decide_eq_true h
    · intro a b c hab hbc
      exact decide_eq_true (Nat.le_trans (of_decide_eq_true hab) (of_decide_eq_true hbc))
    · intro a b
      rcases Nat.le_total a.value b.value with h | h
      · exact Bool.or_eq_true_iff.mpr (Or.inl (decide_eq_true h))
      · exact Bool.or_eq_true_iff.mpr (Or.inr (decide_eq_true h))
  refine ⟨back, mid, heach, hrecall, ?_, fun id => by simp [hmem]⟩
  refine ((hsorted.sublist hsub).and hnodup).imp fun {a b} h => ?_
  refine Nat.lt_of_le_of_ne h.1 fun heq => h.2 ?_
  cases a; cases b
  exact congrArg TaskId.mk heq

theorem Returning.nodup (h : Returning s ids back) : back.Nodup := by
  refine h.increasing.imp fun {a b} hlt heq => ?_
  exact Nat.lt_irrefl b.value (heq ▸ hlt)

/-- There is one such list of tasks only. -/
theorem Returning.unique (h : Returning s ids back) (h' : Returning s ids' left)
    (hsame : ∀ id ∈ s.inFlight, id ∈ ids ↔ id ∈ ids') : back = left := by
  have hperm : back.Perm left := by
    refine (List.perm_ext_iff_of_nodup h.nodup h'.nodup).mpr fun id => ?_
    rw [h.mem_iff, h'.mem_iff]
    exact and_congr_left (hsame id)
  refine hperm.eq_of_pairwise (fun a b _ _ hab hba => ?_) h.increasing h'.increasing
  exact absurd (Nat.lt_trans hab hba) (Nat.lt_irrefl _)

namespace Recall

/-- Nothing but the tasks that come back decides what has become of everything. -/
theorem unique (h : Recall s back mid) (h' : Recall s back s') : mid = s' := by
  have htasks : mid.tasks = s'.tasks :=
    Std.ExtTreeMap.ext_getElem? fun {id} => by rw [h.tasks, h'.tasks]
  have hflight : mid.inFlight = s'.inFlight :=
    Std.ExtTreeMap.ext_getElem? fun {id} => by rw [h.inFlight, h'.inFlight]
  rw [h.rest, h'.rest, htasks, hflight]

theorem inLane_eq (h : Recall s back mid) (lane : Lane) (ids : List TaskId) :
    mid.inLane lane ids = s.inLane lane ids := by
  refine List.filter_congr fun id _ => ?_
  rw [h.tasks]
  split
  · cases s.tasks[id]? <;> rfl
  · rfl

theorem openIn_eq (h : Recall s back mid) (lane : Lane) : mid.openIn lane = s.openIn lane := by
  rw [openIn, openIn, h.pool, h.polls]

theorem free (h : Recall s back mid) (hp : Placed s ∅) (hnodup : back.Nodup) : Free mid back where
  nodup := hnodup
  task id hid := by
    obtain ⟨t, ht, -, ht'⟩ := h.exists_of_mem hp hid
    have hkey : t.id = id := hp.key ht
    exact ⟨t.requeue, ht', hkey, rfl, fun hin => (h.mem_inFlight_iff.mp hin).1 hid⟩

end Recall

/-! ### Standing in front -/

/-- Tasks stand at the heads of their lines, and nothing else has moved. -/
theorem queueFrontEach_eq (s : Scheduler) : ∀ ids : List TaskId, ∃ queues,
    queueFrontEach ids s = { s with queues } ∧
      ∀ lane, queues.line lane = s.inLane lane ids ++ s.queues.line lane
  | [] => ⟨s.queues, rfl, fun lane => by simp [inLane]⟩
  | id :: ids => by
    obtain ⟨queues, heach, hline⟩ := queueFrontEach_eq s ids
    have hstep : queueFrontEach (id :: ids) s = (queueFrontEach ids s).queueFront id := rfl
    rw [hstep, heach, queueFront]
    cases ht : s.tasks[id]? with
    | none => exact ⟨queues, rfl, fun lane => by simpa [inLane, ht] using hline lane⟩
    | some t =>
      refine ⟨queues.pushFront t.lane id, rfl, fun lane => ?_⟩
      rw [Lanes.pushFront, Lanes.line_setLine, inLane_cons ht]
      split
      · next hlane => rw [hlane, hline, List.cons_append]
      · exact hline lane

/-! ### The operation -/

/-- Tasks that come back go to workers or to the heads of their lines. -/
theorem requeueFront_eq (hp : Placed s ∅) (hapart : Apart s) (now : Moment) (ids : List TaskId) :
    ∃ back mid left s₁, Returning s ids back ∧ Recall s back mid ∧
      Allotted now mid back left s₁ ∧
      s.requeueFront now ids = (back.length, queueFrontEach left s₁) := by
  obtain ⟨back, mid, hback, hrecall, hreturn⟩ := returning_takeBackEach s ids
  have hapart' : Apart mid := hapart.sublist fun lane => by rw [hrecall.pool]
  obtain ⟨left, s₁, heach, hallot⟩ :=
    allotted_dispatchEach now [] (hrecall.free hp hreturn.nodup) hapart'
  rw [List.reverse_nil, List.nil_append] at heach
  exact ⟨back, mid, left, s₁, hreturn, hrecall, hallot, by simp [requeueFront, hback, heach]⟩

theorem requeued_requeueFront (hp : Placed s ∅) (hapart : Apart s) (now : Moment)
    (ids : List TaskId) :
    ∃ back, Returning s ids back ∧ Requeued now s back (s.requeueFront now ids) := by
  obtain ⟨back, mid, left, s₁, hreturn, hrecall, hallot, hresult⟩ :=
    requeueFront_eq hp hapart now ids
  obtain ⟨queues, hfront, hline⟩ := queueFrontEach_eq s₁ left
  have hinLane : ∀ lane, mid.inLane lane back = s.inLane lane back := fun lane =>
    hrecall.inLane_eq lane back
  have hopenIn := hrecall.openIn_eq
  refine ⟨back, hreturn, ?_⟩
  rw [hresult, hfront]
  refine ⟨rfl, ?given, ?waits, ?line, ?housed, ?others, ?sides, ?pool, ?rest⟩
  case given =>
    intro lane k id c hid hc
    obtain ⟨u, hu, htask, hflight, hside⟩ :=
      hallot.given_of_place ((hinLane lane).symm ▸ hid) ((hopenIn lane).symm ▸ hc)
    obtain ⟨t, ht, -, ht'⟩ := hrecall.exists_of_mem hp (mem_of_getElem?_inLane hid)
    rw [ht'] at hu
    obtain rfl := Option.some.inj hu
    have hkind : t.kind = lane.kind :=
      congrArg Lane.kind (lane_of_mem_inLane (List.mem_of_getElem? hid) ht)
    rw [leaseEnd?_eq, hrecall.books.limits] at hflight
    exact ⟨t, ht, htask, hkind ▸ hflight, hside⟩
  case waits =>
    intro lane k id hid hlength
    have hback : id ∈ back := mem_of_getElem?_inLane hid
    obtain ⟨t, ht, -, ht'⟩ := hrecall.exists_of_mem hp hback
    obtain ⟨htask, hflight⟩ := hallot.task_of_place hreturn.nodup ht'
      ((hinLane lane).symm ▸ hid) ((hopenIn lane).symm ▸ hlength)
    refine ⟨t, ht, htask, ?_⟩
    rw [Std.ExtTreeMap.mem_iff_isSome_getElem?, hflight, hrecall.inFlight, if_pos hback]
    exact Bool.false_ne_true
  case line =>
    intro lane
    rw [hline, hallot.inLane_eq, hallot.left, hinLane, hopenIn, hallot.queues, hrecall.queues]
  case housed =>
    intro id hid
    obtain ⟨t, ht, -⟩ := hrecall.exists_of_mem hp hid
    exact ⟨t.lane, List.mem_filter.mpr ⟨hid, by simp [ht]⟩⟩
  case others =>
    intro id hid
    obtain ⟨htask, hflight⟩ := hallot.task_of_notMem hid
    rw [hrecall.task_of_notMem hid] at htask
    rw [hrecall.inFlight, if_neg hid] at hflight
    exact ⟨htask, hflight⟩
  case sides =>
    intro c hc
    have hside := hallot.side_of_place fun lane k hk => hinLane lane ▸ hc lane k (hopenIn lane ▸ hk)
    exact hside.trans (by rw [hrecall.polls])
  case pool =>
    intro lane
    have hdismissed := hallot.dismissed lane
    rwa [hinLane, hrecall.pool, hrecall.polls] at hdismissed
  case rest => rw [hallot.rest, hrecall.rest]

/-- Which numbers are in flight is all that matters. -/
theorem requeueFront_congr (now : Moment) (h : ∀ id ∈ s.inFlight, id ∈ ids ↔ id ∈ ids') :
    s.requeueFront now ids = s.requeueFront now ids' := by
  obtain ⟨back, mid, hback, hrecall, hreturn⟩ := returning_takeBackEach s ids
  obtain ⟨back', mid', hback', hrecall', hreturn'⟩ := returning_takeBackEach s ids'
  obtain rfl := hreturn.unique hreturn' h
  obtain rfl := hrecall.unique hrecall'
  rw [requeueFront, requeueFront, hback, hback']

/-! ### The operations that ask for it -/

theorem requeued_reportLost (hp : Placed s ∅) (hapart : Apart s) (now : Moment)
    (hflight : id ∈ s.inFlight) (hregional : s.tasks[id]?.any Task.isRegional) :
    (s.reportLost now id).1 = true ∧ Requeued now s [id] (1, (s.reportLost now id).2) := by
  obtain ⟨back, hreturn, hrequeued⟩ := requeued_requeueFront hp hapart now [id]
  have halone : Returning s [id] [id] := by
    refine ⟨by simp, fun x => ?_⟩
    simp only [List.mem_singleton]
    exact ⟨fun hx => ⟨hx, hx ▸ hflight⟩, fun hx => hx.1⟩
  obtain rfl : back = [id] := hreturn.unique halone fun _ _ => Iff.rfl
  have hawaits : s.awaitsAcknowledgment id = true := by
    rw [awaitsAcknowledgment, Bool.and_eq_true]
    exact ⟨Std.ExtTreeMap.contains_iff_mem.mpr hflight, hregional⟩
  have hcount : (s.requeueFront now [id]).1 = 1 := hrequeued.count
  rw [reportLost, if_pos hawaits]
  exact ⟨by simp [hcount], hcount ▸ hrequeued⟩

theorem requeues_of_sound (hs : Sound s ∅) (hapart : Apart s) (now : Moment) : Requeues now s := by
  have hall := requeued_requeueFront hs.placed hapart now
  refine ⟨hall, fun ids ids' => requeueFront_congr now, fun tasks => hall _, ?_, ?_, ?_⟩
  · intro t
    obtain ⟨back, hreturn, hrequeued⟩ := hall (s.expired t)
    refine ⟨back, hreturn.increasing, fun id => ?_, hrequeued⟩
    rw [hreturn.mem_iff, mem_expired]
    refine and_iff_left_of_imp ?_
    rintro ⟨lease, hlease, -⟩
    exact (Std.ExtTreeMap.getElem?_eq_some_iff.mp hlease).1
  · intro id
    split
    · next h => exact requeued_reportLost hs.placed hapart now h.1 h.2
    · next h =>
      have hawaits : ¬ s.awaitsAcknowledgment id = true := by
        rw [awaitsAcknowledgment, Bool.and_eq_true]
        exact fun h' => h ⟨Std.ExtTreeMap.contains_iff_mem.mp h'.1, h'.2⟩
      rw [reportLost, if_neg hawaits]
  · intro lane c
    have hreleased : Sound (s.releasePoll lane c).2 ∅ := hs.connections ..
    have hapart' : Apart (s.releasePoll lane c).2 :=
      hapart.sublist fun other => s.pool.line_keep_sublist lane other _
    have hread : (s.releasePoll lane c).1 = s.polls.held? c := s.polls.take_fst c
    rw [abandonPoll, ← Prod.eta (s.releasePoll lane c), hread]
    cases s.polls.held? c with
    | none => rfl
    | some tasks =>
      obtain ⟨back, hreturn, hrequeued⟩ :=
        requeued_requeueFront hreleased.placed hapart' now (tasks.map (·.id))
      exact ⟨back, ⟨hreturn.increasing, hreturn.mem_iff⟩, hrequeued⟩

/-! ### Every run -/

/-- What is taken back from workers, in whatever state, goes to waiting workers or to the heads of
lines.  A worker hands over its waiting side when it polls, so no side is polled on twice. -/
theorem requeues_run (limits : Limits) (steps : List (Moment × Operation))
    (hpolled : (steps.filterMap (·.2.polledOn?)).Nodup) (now : Moment) :
    Requeues now ((new limits).run steps) :=
  requeues_of_sound (sound_run limits steps) (apart_run limits steps hpolled) now

/-- Three workers are given a task each; then two more wait, of whom the first leaves. -/
def threeTasks : List (Moment × Operation) :=
  [.enqueueBatch (List.replicate 3 ⟨some ⟨"job"⟩, ⟨"graph", "1"⟩, default⟩),
    .openPoll, .poll ⟨.regional, ⟨"graph", "1"⟩⟩ ⟨0⟩, .openPoll,
    .poll ⟨.regional, ⟨"graph", "1"⟩⟩ ⟨1⟩, .openPoll, .poll ⟨.regional, ⟨"graph", "1"⟩⟩ ⟨2⟩,
    .openPoll, .poll ⟨.regional, ⟨"graph", "1"⟩⟩ ⟨3⟩, .openPoll,
    .poll ⟨.regional, ⟨"graph", "1"⟩⟩ ⟨4⟩, .leavePoll ⟨3⟩].map fun op => (default, op)

/-- Of the three tasks, the first has the one worker to go to that is left. -/
theorem requeues_threeTasks : (threeTasks.filterMap (·.2.polledOn?)).Nodup ∧
    Requeues default ((new .standard).run threeTasks) ∧
    ((new .standard).run threeTasks).inFlight.keys = [⟨1⟩, ⟨2⟩, ⟨3⟩] ∧
    ((new .standard).run threeTasks).allotment [⟨1⟩, ⟨2⟩, ⟨3⟩] ⟨.regional, ⟨"graph", "1"⟩⟩ =
      [(⟨1⟩, ⟨4⟩)] := by
  have hdistinct : (threeTasks.filterMap (·.2.polledOn?)).Nodup := by decide
  exact ⟨hdistinct, requeues_run _ _ hdistinct _, by decide +kernel, by decide +kernel⟩

end TaskExchange.Scheduler
