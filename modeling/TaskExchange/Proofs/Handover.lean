import TaskExchange.Scheduler.Dispatch

/-!
Handovers: what it takes to give a task to a worker that waits.  The workers of the task's lane are
tried one after the other; those that have left are dropped, and each failed attempt is undone
without a trace.  Main statement: `dispatchToWaiting_cases`, by which either all workers of the lane
had left, and the lane has no workers now and all else is as before, or the first that had not left
holds the task.  `passedOn` lists the handovers when one task after the other is passed on.
-/

namespace TaskExchange

namespace Task

/-- The task as it was when it was accepted: all that no delivery changes. -/
def asAccepted (t : Task) : Task := { t with state := .queued, deliveries := 0 }

@[simp] theorem asAccepted_dispatch (t : Task) : t.dispatch.asAccepted = t.asAccepted := rfl

@[simp] theorem asAccepted_requeue (t : Task) : t.requeue.asAccepted = t.asAccepted := rfl

section

variable {t u : Task} (h : t.asAccepted = u.asAccepted)

include h

theorem kind_eq_of_asAccepted : t.kind = u.kind := by
  simpa [asAccepted] using congrArg Task.kind h

theorem job_eq_of_asAccepted : t.job = u.job := by
  simpa [asAccepted] using congrArg Task.job h

theorem category_eq_of_asAccepted : t.category = u.category := by
  simpa [asAccepted] using congrArg Task.category h

theorem lane_eq_of_asAccepted : t.lane = u.lane := by
  rw [lane, lane, kind_eq_of_asAccepted h, category_eq_of_asAccepted h]

end

end Task

/-- A copy of a task that a worker was given, and the connection on which the worker waited; a
worker that is given tasks at once did not wait. -/
structure Handover where
  task : Task
  receiver : Option ConnectionId

/-- The tasks that workers were given. -/
def handedOver (log : List Handover) : List TaskId := log.map (·.task.id)

/-- What was given to the worker on a connection. -/
def handedTo (c : ConnectionId) (log : List Handover) : List Task :=
  (log.filter (·.receiver = some c)).map (·.task)

section

variable {c : ConnectionId} {t : Task} {log : List Handover}

theorem mem_handedOver {id : TaskId} : id ∈ handedOver log ↔ ∃ g ∈ log, g.task.id = id :=
  List.mem_map

@[simp] theorem handedOver_append (log more : List Handover) :
    handedOver (log ++ more) = handedOver log ++ handedOver more := List.map_append

@[simp] theorem handedTo_nil (c : ConnectionId) : handedTo c [] = [] := rfl

@[simp] theorem handedTo_append (c : ConnectionId) (log more : List Handover) :
    handedTo c (log ++ more) = handedTo c log ++ handedTo c more := by
  simp [handedTo]

theorem mem_handedTo : t ∈ handedTo c log ↔ ⟨t, some c⟩ ∈ log := by
  simp only [handedTo, List.mem_map, List.mem_filter, decide_eq_true_eq]
  constructor
  · rintro ⟨⟨u, receiver⟩, ⟨hmem, rfl⟩, rfl⟩
    exact hmem
  · intro hmem
    exact ⟨_, ⟨hmem, rfl⟩, rfl⟩

theorem handedTo_eq_nil (h : ∀ t : Task, ⟨t, some c⟩ ∉ log) : handedTo c log = [] :=
  List.eq_nil_iff_forall_not_mem.mpr fun t ht => h t (mem_handedTo.mp ht)

/-- Workers that are given tasks at once did not wait. -/
@[simp] theorem handedTo_map_none (c : ConnectionId) (tasks : List Task) :
    handedTo c (tasks.map (⟨·, none⟩)) = [] := by
  simp [handedTo]

end

namespace Scheduler

/-- These are now the workers that wait in a lane. -/
def setWorkers (s : Scheduler) (lane : Lane) (workers : List ConnectionId) : Scheduler :=
  { s with pool := s.pool.setLine lane workers }

/-- The task is given out: it is in flight, under a lease of its own. -/
def deliver (s : Scheduler) (now : Moment) (t : Task) : Scheduler :=
  { s with
    tasks := s.tasks.insert t.id t.dispatch
    inFlight := s.inFlight.insert t.id (s.leaseEnd? now t) }

/-- The worker that waits on a connection holds the task, and the rest of its lane's workers wait
on. -/
def handTo (s : Scheduler) (now : Moment) (t : Task) (c : ConnectionId)
    (rest : List ConnectionId) : Scheduler :=
  { (s.deliver now t).setWorkers t.lane rest with
    polls := { s.polls with sides := s.polls.sides.insert c (.holding [t.dispatch]) } }

/-- The handover of a task that is passed on: the first worker of its lane that has not left
receives it. -/
def handover? (s : Scheduler) (id : TaskId) : Option Handover :=
  s.tasks[id]?.bind fun t =>
    ((s.pool.line t.lane).find? s.polls.isOpen).map fun c => ⟨t.dispatch, some c⟩

/-- The handovers of tasks that are passed on one after the other. -/
def passedOn (now : Moment) : List TaskId → Scheduler → List Handover
  | [], _ => []
  | id :: rest, s => (s.handover? id).toList ++ passedOn now rest (s.dispatchToWaiting now id).2

variable {s : Scheduler} {now : Moment} {t : Task}

/-- Tasks are passed on to workers that wait. -/
theorem receiver_of_mem_passedOn {g : Handover} : ∀ {ids : List TaskId} {s : Scheduler},
    g ∈ passedOn now ids s → ∃ c, g.receiver = some c
  | [], _, hg => by cases hg
  | id :: ids, s, hg => by
    rcases List.mem_append.mp hg with hg | hg
    · obtain ⟨t, -, c, -, rfl⟩ : ∃ t, s.tasks[id]? = some t ∧ ∃ c,
          (s.pool.line t.lane).find? s.polls.isOpen = some c ∧
            (⟨t.dispatch, some c⟩ : Handover) = g := by
        simpa [handover?, Option.bind_eq_some_iff] using hg
      exact ⟨c, rfl⟩
    · exact receiver_of_mem_passedOn hg

@[simp] theorem setWorkers_line (s : Scheduler) (lane : Lane) :
    s.setWorkers lane (s.pool.line lane) = s := by
  simp [setWorkers]

@[simp] theorem setWorkers_setWorkers (s : Scheduler) (lane : Lane) (xs ys : List ConnectionId) :
    (s.setWorkers lane xs).setWorkers lane ys = s.setWorkers lane ys := by
  simp [setWorkers]

@[simp] theorem handTo_setWorkers (s : Scheduler) (now : Moment) (t : Task) (c : ConnectionId)
    (xs rest : List ConnectionId) :
    (s.setWorkers t.lane xs).handTo now t c rest = s.handTo now t c rest := by
  simp [setWorkers, handTo, deliver, leaseEnd?]

theorem startDelivery?_eq (now : Moment) (ht : s.tasks[t.id]? = some t) :
    s.startDelivery? now t.id = some (t.dispatch, s.deliver now t) := by
  simp [startDelivery?, ht, deliver]

/-- A delivery that is undone leaves no trace. -/
theorem undoDelivery_deliver (ht : s.tasks[t.id]? = some t) (hq : t.state = .queued)
    (hf : t.id ∉ s.inFlight) : (s.deliver now t).undoDelivery t.id = s := by
  have htasks : (s.tasks.insert t.id t.dispatch).modify t.id Task.undoDispatch = s.tasks := by
    ext id u
    rw [Std.ExtTreeMap.getElem?_modify, Std.ExtTreeMap.getElem?_insert]
    by_cases hid : t.id = id
    · subst hid
      simp [Task.undoDispatch_dispatch hq, ht]
    · simp [hid, Std.ExtTreeMap.getElem?_insert]
  have hflight : (s.inFlight.insert t.id (s.leaseEnd? now t)).erase t.id = s.inFlight := by
    ext id u
    rw [Std.ExtTreeMap.getElem?_erase, Std.ExtTreeMap.getElem?_insert]
    by_cases hid : t.id = id
    · subst hid
      simp [getElem?_neg s.inFlight t.id hf]
    · simp [hid]
  simp only [undoDelivery, deliver, htasks, hflight]

theorem send?_deliver_of_closed {c : ConnectionId} (now : Moment) (t : Task) (lane : Lane)
    (rest : List ConnectionId) (hc : s.polls.isOpen c = false) :
    ((s.setWorkers lane rest).deliver now t).polls.send? c [t.dispatch] = none := by
  simp [Switchboard.send?, deliver, setWorkers, hc]

theorem send?_deliver_of_open {c : ConnectionId} (now : Moment) (t : Task) (lane : Lane)
    (rest : List ConnectionId) (hc : s.polls.isOpen c = true) :
    ((s.setWorkers lane rest).deliver now t).polls.send? c [t.dispatch] =
      some { s.polls with sides := s.polls.sides.insert c (.holding [t.dispatch]) } := by
  simp [Switchboard.send?, deliver, setWorkers, hc]

theorem tryWaiting_cons_of_closed {lane : Lane} {c : ConnectionId} (rest : List ConnectionId)
    (ht : s.tasks[t.id]? = some t) (hq : t.state = .queued) (hf : t.id ∉ s.inFlight)
    (hc : s.polls.isOpen c = false) :
    tryWaiting now t.id lane (c :: rest) s =
      tryWaiting now t.id lane rest (s.setWorkers lane rest) := by
  have hundo : ((s.setWorkers lane rest).deliver now t).undoDelivery t.id =
      s.setWorkers lane rest :=
    undoDelivery_deliver (s := s.setWorkers lane rest) ht hq hf
  have hsend := send?_deliver_of_closed now t lane rest hc
  have hstart := startDelivery?_eq (s := s.setWorkers lane rest) now ht
  simp only [setWorkers] at hstart hundo hsend ⊢
  simp only [tryWaiting, hstart, hsend, hundo]

theorem tryWaiting_cons_of_open {c : ConnectionId} (rest : List ConnectionId)
    (ht : s.tasks[t.id]? = some t) (hc : s.polls.isOpen c = true) :
    tryWaiting now t.id t.lane (c :: rest) s = (true, s.handTo now t c rest) := by
  have hsend := send?_deliver_of_open now t t.lane rest hc
  have hstart := startDelivery?_eq (s := s.setWorkers t.lane rest) now ht
  simp only [setWorkers] at hstart hsend
  simp only [tryWaiting, hstart, hsend]
  rfl

/-- Workers that have all left are dropped, and nothing else happens. -/
theorem tryWaiting_of_closed {lane : Lane} : ∀ {line : List ConnectionId} {s : Scheduler},
    s.tasks[t.id]? = some t → t.state = .queued → t.id ∉ s.inFlight → s.pool.line lane = line →
    (∀ c ∈ line, s.polls.isOpen c = false) →
    tryWaiting now t.id lane line s = (false, s.setWorkers lane [])
  | [], s, _, _, _, hline, _ => by rw [tryWaiting, ← hline, setWorkers_line]
  | c :: rest, s, ht, hq, hf, _, hclosed => by
    have hc : s.polls.isOpen c = false := hclosed c (List.mem_cons_self ..)
    have hrest : ∀ d ∈ rest, s.polls.isOpen d = false := fun d hd =>
      hclosed d (List.mem_cons_of_mem _ hd)
    rw [tryWaiting_cons_of_closed rest ht hq hf hc]
    rw [tryWaiting_of_closed (s := s.setWorkers lane rest) ht hq hf (by simp [setWorkers]) hrest]
    rw [setWorkers_setWorkers]

/-- The first worker that has not left holds the task; those before it are dropped. -/
theorem tryWaiting_of_open {c : ConnectionId} {rest : List ConnectionId} :
    ∀ {dead : List ConnectionId} {s : Scheduler},
    s.tasks[t.id]? = some t → t.state = .queued → t.id ∉ s.inFlight →
    (∀ d ∈ dead, s.polls.isOpen d = false) → s.polls.isOpen c = true →
    tryWaiting now t.id t.lane (dead ++ c :: rest) s = (true, s.handTo now t c rest)
  | [], _, ht, _, _, _, hopen => tryWaiting_cons_of_open rest ht hopen
  | d :: dead, s, ht, hq, hf, hdead, hopen => by
    have hd : s.polls.isOpen d = false := hdead d (List.mem_cons_self ..)
    have hdead' : ∀ d' ∈ dead, s.polls.isOpen d' = false := fun d' hd' =>
      hdead d' (List.mem_cons_of_mem _ hd')
    rw [List.cons_append, tryWaiting_cons_of_closed _ ht hq hf hd]
    rw [tryWaiting_of_open (s := s.setWorkers t.lane (dead ++ c :: rest)) ht hq hf hdead' hopen]
    rw [handTo_setWorkers]

/-- A task that waits nowhere is given to the first worker of its lane that has not left, or to
nobody if all of them have. -/
theorem dispatchToWaiting_cases (now : Moment) (ht : s.tasks[t.id]? = some t)
    (hq : t.state = .queued) (hf : t.id ∉ s.inFlight) :
    ((∀ c ∈ s.pool.line t.lane, s.polls.isOpen c = false) ∧ s.handover? t.id = none ∧
      s.dispatchToWaiting now t.id = (false, s.setWorkers t.lane [])) ∨
    ∃ dead c rest, s.pool.line t.lane = dead ++ c :: rest ∧
      (∀ d ∈ dead, s.polls.isOpen d = false) ∧ s.polls.isOpen c = true ∧
      s.handover? t.id = some ⟨t.dispatch, some c⟩ ∧
      s.dispatchToWaiting now t.id = (true, s.handTo now t c rest) := by
  have hdispatch : s.dispatchToWaiting now t.id =
      tryWaiting now t.id t.lane (s.pool.line t.lane) s := by
    simp only [dispatchToWaiting, ht]
  cases hfind : (s.pool.line t.lane).find? s.polls.isOpen with
  | none =>
    have hclosed : ∀ c ∈ s.pool.line t.lane, s.polls.isOpen c = false := by
      simpa using List.find?_eq_none.mp hfind
    exact Or.inl ⟨hclosed, by simp [handover?, ht, hfind],
      hdispatch.trans (tryWaiting_of_closed ht hq hf rfl hclosed)⟩
  | some c =>
    obtain ⟨hopen, dead, rest, hline, hdead⟩ := List.find?_eq_some_iff_append.mp hfind
    have hdead' : ∀ d ∈ dead, s.polls.isOpen d = false := by simpa using hdead
    refine Or.inr ⟨dead, c, rest, hline, hdead', hopen, by simp [handover?, ht, hfind], ?_⟩
    rw [hdispatch, hline, tryWaiting_of_open ht hq hf hdead' hopen]

end Scheduler

end TaskExchange
