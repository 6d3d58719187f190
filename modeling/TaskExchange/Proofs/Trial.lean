import TaskExchange.Proofs.Allotment
import TaskExchange.Proofs.Leasing

/-!
Trials: how the workers of a lane are tried on a task.  Every turn of the dispatcher's loop takes a
worker out of the pool, marks the task as given out and resumes the worker with it; when that worker
turns out to have left, the task and the deliveries are put back and the next turn begins.  Main
statement: `tried_dispatchToWaiting`.  The loop ends, and no worker is resumed twice.  When nobody
received the task, its lane has no workers any more and all else is as it was; when somebody did, it
was the first worker that had not left, and only those before it are dropped.
-/

namespace TaskExchange.Scheduler

/-- What a turn of the dispatcher's loop leads to. -/
inductive Turn where
  /-- The loop is over with this result, after this worker was resumed, if one was. -/
  | done (resumed : Option ConnectionId) (result : Bool × Scheduler)
  /-- This worker was resumed in vain, and there is another turn. -/
  | again (resumed : ConnectionId) (s : Scheduler)

/-- One turn of the loop: the worker that has waited longest is taken out of the pool, a delivery
begins, and the worker is resumed with the task. -/
def turn (s : Scheduler) (now : Moment) (id : TaskId) (lane : Lane) : Turn :=
  match s.pool.pop? lane with
  | none => .done none (false, s)
  | some (c, pool) =>
    match { s with pool }.startDelivery? now id with
    | none => .done none (false, { s with pool })
    | some (t, s) =>
      match s.polls.send? c [t] with
      | some polls => .done (some c) (true, { s with polls })
      | none => .again c (s.undoDelivery id)

/-- Turn after turn, these workers are resumed, and then the loop is over with this result. -/
inductive Trials (now : Moment) (id : TaskId) (lane : Lane) :
    List ConnectionId → Scheduler → Bool × Scheduler → Prop where
  | done {s : Scheduler} {resumed : Option ConnectionId} {result : Bool × Scheduler} :
      s.turn now id lane = .done resumed result → Trials now id lane resumed.toList s result
  | again {s s' : Scheduler} {c : ConnectionId} {tried : List ConnectionId}
      {result : Bool × Scheduler} : s.turn now id lane = .again c s' →
      Trials now id lane tried s' result → Trials now id lane (c :: tried) s result

/-- The workers of a lane that are resumed with a task: those that have left, up to the first that
has not, and this one. -/
def resumed (s : Scheduler) (lane : Lane) : List ConnectionId :=
  (s.pool.line lane).take ((s.pool.line lane).findIdx s.polls.isOpen + 1)

/-- All workers of the task's lane were tried in vain. -/
structure InVain (s : Scheduler) (t : Task) (s' : Scheduler) : Prop where
  tried : s.resumed t.lane = s.pool.line t.lane
  closed : ∀ c ∈ s.pool.line t.lane, s.polls.isOpen c = false
  emptied : s'.pool.line t.lane = []
  pools : ∀ lane, lane ≠ t.lane → s'.pool.line lane = s.pool.line lane
  /-- The task, its count of deliveries and all other parts are what they were. -/
  rest : s' = { s with pool := s'.pool }

/-- A worker of the task's lane received the task. -/
structure Received (now : Moment) (s : Scheduler) (t : Task) (s' : Scheduler) : Prop where
  /-- It is the first that had not left; those before it are dropped, and those behind it stay as
  they stood. -/
  worker : ∃ dead c behind, s.pool.line t.lane = dead ++ c :: behind ∧
    s.resumed t.lane = dead ++ [c] ∧ (∀ d ∈ dead, s.polls.isOpen d = false) ∧
    s.polls.isOpen c = true ∧ s'.pool.line t.lane = behind ∧
    s'.polls.sides[c]? =
      some (.holding [{ t with state := .inFlight, deliveries := t.deliveries + 1 }]) ∧
    ∀ d, d ≠ c → s'.polls.sides[d]? = s.polls.sides[d]?
  pools : ∀ lane, lane ≠ t.lane → s'.pool.line lane = s.pool.line lane
  task : s'.tasks[t.id]? = some { t with state := .inFlight, deliveries := t.deliveries + 1 }
  tasks : ∀ id, id ≠ t.id → s'.tasks[id]? = s.tasks[id]?
  /-- It was not in flight, and now it is, under one lease. -/
  flight : s.inFlight[t.id]? = none ∧
    s'.inFlight[t.id]? = some (leaseFrom s.limits now t.kind) ∧
    s'.inFlight.size = s.inFlight.size + 1
  inFlight : ∀ id, id ≠ t.id → s'.inFlight[id]? = s.inFlight[id]?
  rest : s' = { s with
    tasks := s'.tasks
    inFlight := s'.inFlight
    pool := s'.pool
    polls := { s.polls with sides := s'.polls.sides } }

/-- The workers of its lane are tried on a task that stands nowhere, like those in this hand. -/
structure Tried (now : Moment) (s : Scheduler) (hand : Finset TaskId) (t : Task)
    (result : Bool × Scheduler) : Prop where
  /-- The loop ends, in one way only. -/
  ends : ∀ tried outcome, Trials now t.id t.lane tried s outcome ↔
    tried = s.resumed t.lane ∧ outcome = result
  bounded : (s.resumed t.lane).length ≤ (s.pool.line t.lane).length
  /-- The task is received exactly if there is someone to receive it. -/
  answer : result.1 = true ↔ ∃ c ∈ s.pool.line t.lane, s.polls.isOpen c = true
  failed : result.1 = false → InVain s t result.2
  received : result.1 = true → Received now s t result.2
  /-- The parts of the scheduler agree as before; a task that was received stands somewhere now. -/
  sound : Sound result.2 (if result.1 then hand.erase t.id else hand)

variable {now : Moment} {s s' : Scheduler} {hand : Finset TaskId} {t : Task} {id : TaskId}
  {lane : Lane} {c : ConnectionId} {line rest tried tried' : List ConnectionId}
  {result result' : Bool × Scheduler}

/-! ### Turns -/

theorem turn_of_nil (hline : s.pool.line lane = []) :
    s.turn now id lane = .done none (false, s) := by
  rw [turn, Lanes.pop?, hline]

theorem turn_of_open (hline : s.pool.line t.lane = c :: rest) (ht : s.tasks[t.id]? = some t)
    (hc : s.polls.isOpen c = true) :
    s.turn now t.id t.lane = .done (some c) (true, s.handTo now t c rest) := by
  have hsend := send?_deliver_of_open now t t.lane rest hc
  have hstart := startDelivery?_eq (s := s.setWorkers t.lane rest) now ht
  simp only [setWorkers] at hstart hsend
  simp only [turn, Lanes.pop?, hline, hstart, hsend]
  rfl

theorem turn_of_closed (hline : s.pool.line lane = c :: rest) (ht : s.tasks[t.id]? = some t)
    (hq : t.state = .queued) (hf : t.id ∉ s.inFlight) (hc : s.polls.isOpen c = false) :
    s.turn now t.id lane = .again c (s.setWorkers lane rest) := by
  have hundo : ((s.setWorkers lane rest).deliver now t).undoDelivery t.id =
      s.setWorkers lane rest :=
    undoDelivery_deliver (s := s.setWorkers lane rest) ht hq hf
  have hsend := send?_deliver_of_closed now t lane rest hc
  have hstart := startDelivery?_eq (s := s.setWorkers lane rest) now ht
  simp only [setWorkers] at hstart hundo hsend ⊢
  simp only [turn, Lanes.pop?, hline, hstart, hsend, hundo]

/-! ### The loop -/

theorem Trials.unique (h : Trials now id lane tried s result)
    (h' : Trials now id lane tried' s result') : tried = tried' ∧ result = result' := by
  induction h generalizing tried' with
  | done hturn =>
    cases h' with
    | done hturn' =>
      cases hturn.symm.trans hturn'
      exact ⟨rfl, rfl⟩
    | again hturn' => cases hturn.symm.trans hturn'
  | again hturn _ ih =>
    cases h' with
    | done hturn' => cases hturn.symm.trans hturn'
    | again hturn' hrest =>
      cases hturn.symm.trans hturn'
      obtain ⟨rfl, rfl⟩ := ih hrest
      exact ⟨rfl, rfl⟩

/-- The workers are resumed one after the other up to the first that has not left. -/
theorem trials_tryWaiting (now : Moment) : ∀ {line : List ConnectionId} {s : Scheduler},
    s.pool.line t.lane = line → s.tasks[t.id]? = some t → t.state = .queued →
    t.id ∉ s.inFlight → Trials now t.id t.lane (line.take (line.findIdx s.polls.isOpen + 1)) s
      (tryWaiting now t.id t.lane line s)
  | [], s, hline, _, _, _ =>
    have hdone : s.turn now t.id t.lane = .done none (false, s) := turn_of_nil hline
    Trials.done hdone
  | c :: rest, s, hline, ht, hq, hf => by
    cases hc : s.polls.isOpen c with
    | true =>
      rw [tryWaiting_cons_of_open rest ht hc, List.findIdx_cons, hc]
      have hdone : s.turn now t.id t.lane = .done (some c) _ := turn_of_open hline ht hc
      exact Trials.done hdone
    | false =>
      have hrest : Trials now t.id t.lane (rest.take (rest.findIdx s.polls.isOpen + 1))
          (s.setWorkers t.lane rest) (tryWaiting now t.id t.lane rest (s.setWorkers t.lane rest)) :=
        trials_tryWaiting now (s := s.setWorkers t.lane rest) (by simp [setWorkers]) ht hq hf
      rw [tryWaiting_cons_of_closed rest ht hq hf hc, List.findIdx_cons, hc]
      exact .again (turn_of_closed hline ht hq hf hc) hrest

theorem trials_dispatchToWaiting (now : Moment) (ht : s.tasks[t.id]? = some t)
    (hq : t.state = .queued) (hf : t.id ∉ s.inFlight) :
    Trials now t.id t.lane (s.resumed t.lane) s (s.dispatchToWaiting now t.id) := by
  simp only [dispatchToWaiting, ht]
  exact trials_tryWaiting now rfl ht hq hf

/-! ### What is left of them -/

theorem inVain_setWorkers (hclosed : ∀ c ∈ s.pool.line t.lane, s.polls.isOpen c = false) :
    InVain s t (s.setWorkers t.lane []) where
  tried := by
    have hlast : (s.pool.line t.lane).findIdx s.polls.isOpen = (s.pool.line t.lane).length :=
      List.findIdx_eq_length_of_false hclosed
    rw [resumed, hlast, List.take_of_length_le (Nat.le_succ _)]
  closed := hclosed
  emptied := Lanes.line_setLine_self ..
  pools _ hlane := Lanes.line_setLine_of_ne _ _ (Ne.symm hlane)
  rest := rfl

theorem received_handTo (now : Moment) {dead behind : List ConnectionId}
    (hline : s.pool.line t.lane = dead ++ c :: behind)
    (hdead : ∀ d ∈ dead, s.polls.isOpen d = false) (hopen : s.polls.isOpen c = true)
    (hf : t.id ∉ s.inFlight) :
    Received now s t (s.handTo now t c behind) where
  worker := by
    have hfirst : (dead ++ c :: behind).findIdx s.polls.isOpen = dead.length := by
      rw [List.findIdx_append, List.findIdx_eq_length_of_false hdead, List.findIdx_cons, hopen]
      simp
    refine ⟨dead, c, behind, hline, ?_, hdead, hopen, Lanes.line_setLine_self .., ?_, ?_⟩
    · rw [resumed, hline, hfirst, List.take_append]
      simp
    · exact Std.ExtTreeMap.getElem?_insert_self
    · intro d hd
      simp [handTo, Std.ExtTreeMap.getElem?_insert, Ne.symm hd]
  pools _ hlane := Lanes.line_setLine_of_ne _ _ (Ne.symm hlane)
  task := Std.ExtTreeMap.getElem?_insert_self
  tasks id hid := by
    simp [handTo, setWorkers, deliver, Std.ExtTreeMap.getElem?_insert, Ne.symm hid]
  flight := by
    refine ⟨getElem?_neg s.inFlight t.id hf, ?_, ?_⟩
    · rw [← leaseEnd?_eq]
      exact Std.ExtTreeMap.getElem?_insert_self
    · simp [handTo, setWorkers, deliver, Std.ExtTreeMap.size_insert, hf]
  inFlight id hid := by
    simp [handTo, setWorkers, deliver, Std.ExtTreeMap.getElem?_insert, Ne.symm hid]
  rest := rfl

/-- A task that is given out of the hand leaves all parts in agreement. -/
theorem Sound.handTo (hs : Sound s hand) (now : Moment) (ht : s.tasks[t.id]? = some t)
    (hid : t.id ∈ hand) (c : ConnectionId) (behind : List ConnectionId) :
    Sound (s.handTo now t c behind) (hand.erase t.id) := by
  have hbooks := SameBooks.deliver now ht
  have hdelivered : Sound (s.deliver now t) (hand.erase t.id) := by
    refine ⟨hs.placed.deliver now hid, hs.numbered.congr hbooks, hs.ledger.congr hbooks,
      hs.awaited.congr hbooks, fun {id u lease} hu hkind hlease => ?_⟩
    rw [deliver, Std.ExtTreeMap.getElem?_insert] at hu hlease
    by_cases h : t.id = id
    · subst h
      obtain rfl : t.dispatch = u := by simpa using hu
      obtain rfl : s.leaseEnd? now t = lease := by simpa using hlease
      exact leaseEnd?_of_priority hkind
    · exact hs.unleased (by simpa [h] using hu) hkind (by simpa [h] using hlease)
  exact hdelivered.connections _ _ _

/-- A task that waits in no line is in the hand. -/
theorem Placed.mem_hand (hp : Placed s hand) (ht : s.tasks[t.id]? = some t)
    (hq : t.state = .queued) (hout : ∀ lane, t.id ∉ s.queues.line lane) : t.id ∈ hand := by
  by_contra hnot
  exact hout t.lane (hp.queued ht hq hnot)

/-- However many of the workers that wait for a task have left, the dispatcher comes to an end, and
either one worker has the task or there is no trace of its attempts but that those workers are gone.
-/
theorem tried_dispatchToWaiting (hs : Sound s hand) (ht : s.tasks[t.id]? = some t)
    (hq : t.state = .queued) (hout : ∀ lane, t.id ∉ s.queues.line lane) (now : Moment) :
    Tried now s hand t (s.dispatchToWaiting now t.id) := by
  have hid := hs.placed.mem_hand ht hq hout
  have hf := hs.placed.not_inFlight ht hq
  have htrials := trials_dispatchToWaiting now ht hq hf
  have hends : ∀ tried outcome, Trials now t.id t.lane tried s outcome ↔
      tried = s.resumed t.lane ∧ outcome = s.dispatchToWaiting now t.id := by
    refine fun tried outcome => ⟨fun h => h.unique htrials, ?_⟩
    rintro ⟨rfl, rfl⟩
    exact htrials
  have hbounded : (s.resumed t.lane).length ≤ (s.pool.line t.lane).length :=
    (List.take_sublist ..).length_le
  rcases dispatchToWaiting_cases now ht hq hf with
    ⟨hclosed, -, hresult⟩ | ⟨dead, c, behind, hline, hdead, hopen, -, hresult⟩
  · refine ⟨hends, hbounded, ?_, ?_, ?_, ?_⟩ <;> rw [hresult]
    · simpa using hclosed
    · exact fun _ => inVain_setWorkers hclosed
    · intro h
      cases h
    · exact hs.connections _ _ _
  · refine ⟨hends, hbounded, ?_, ?_, ?_, ?_⟩ <;> rw [hresult]
    · exact iff_of_true rfl ⟨c, hline ▸ List.mem_append_cons_self, hopen⟩
    · intro h
      cases h
    · exact fun _ => received_handTo now hline hdead hopen hf
    · exact hs.handTo now ht hid c behind

/-- Three workers wait for a task, of whom the first two have left, and a request comes in. -/
def twoDeparted : Scheduler :=
  ((new .standard).run (([.openPoll, .poll ⟨.priority, ⟨"graph", "1"⟩⟩ ⟨0⟩, .openPoll,
    .poll ⟨.priority, ⟨"graph", "1"⟩⟩ ⟨1⟩, .openPoll, .poll ⟨.priority, ⟨"graph", "1"⟩⟩ ⟨2⟩,
    .leavePoll ⟨0⟩, .leavePoll ⟨1⟩, .openRequest] : List Operation).map fun op =>
      (default, op))).enrollSingle default ⟨none, ⟨"graph", "1"⟩, default⟩ ⟨0⟩

/-- All three are resumed, and the third receives the task. -/
theorem tried_twoDeparted : ∃ t : Task, twoDeparted.tasks[t.id]? = some t ∧
    t.state = .queued ∧ (∀ lane, t.id ∉ twoDeparted.queues.line lane) ∧
    Sound twoDeparted {t.id} ∧
    Tried default twoDeparted {t.id} t (twoDeparted.dispatchToWaiting default t.id) ∧
    twoDeparted.resumed t.lane = [⟨0⟩, ⟨1⟩, ⟨2⟩] ∧
    (twoDeparted.dispatchToWaiting default t.id).1 = true := by
  let t : Task := .ofRequest ⟨1⟩ .priority default ⟨none, ⟨"graph", "1"⟩, default⟩
  have hs : Sound twoDeparted {t.id} := (sound_run .standard _).enrollSingle ..
  have ht : twoDeparted.tasks[t.id]? = some t := getElem?_enrollSingle ..
  have hout : ∀ lane, t.id ∉ twoDeparted.queues.line lane := fun lane hin =>
    (hs.placed.inLine hin).1 (Finset.mem_singleton_self _)
  exact ⟨t, ht, rfl, hout, hs, tried_dispatchToWaiting hs ht rfl hout default,
    by decide +kernel, by decide +kernel⟩

end TaskExchange.Scheduler
