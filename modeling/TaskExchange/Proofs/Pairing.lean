import TaskExchange.Proofs.Frame
import TaskExchange.Proofs.Parking

/-!
Pairing: tasks and workers that meet in a lane.  Main statement: `paired_run`.  When nothing waits
in a lane, tasks are given out there one at a time, and workers that poll there stay, then the
worker that polls as the k-th receives the task that is accepted as the k-th and nothing else,
whoever comes first, however requests are batched, and whatever is done in other lanes in between.
-/

namespace TaskExchange

/-- What was submitted as a task. -/
def Task.request (t : Task) : Request := ⟨t.job, t.category, t.payload⟩

namespace Scheduler

namespace Event

/-- What a worker that polls on a connection is given at once. -/
def servedOn (e : Event) (c : ConnectionId) : List Task :=
  match e.op, e.outcome with
  | .poll _ d, .polled (.dispatched tasks) => if d = c then tasks else []
  | _, _ => []

/-- What comes to a waiting side to which nothing had come. -/
def news (e : Event) (c : ConnectionId) : List Task :=
  if (e.before.polls.held? c).isSome then [] else (e.after.polls.held? c).getD []

/-- The connection on which a worker polls in a lane. -/
def pollsIn? (lane : Lane) (e : Event) : Option ConnectionId :=
  match e.op with
  | .poll other c => if other = lane then some c else none
  | _ => none

end Event

/-- What a worker receives on a connection, at once or later. -/
def receivedOn (c : ConnectionId) (events : List Event) : List Task :=
  events.flatMap fun e => e.servedOn c ++ e.news c

/-- The connections on which workers poll in a lane, in their order. -/
def polledIn (lane : Lane) (events : List Event) : List ConnectionId :=
  events.filterMap (·.pollsIn? lane)

/-- The tasks that are accepted in a lane, in their order. -/
def acceptedIn (lane : Lane) (events : List Event) : List Task :=
  (events.flatMap (·.entry.tasks)).filter (·.lane = lane)

/-- A run leads to a state in which nothing waits in a lane and goes on with requests that are
accepted there and polls of workers that stay, in any order, and with anything in other lanes. -/
structure Interleaving (limits : Limits) (lane : Lane) (first steps : List (Moment × Operation)) :
    Prop where
  limit : lane.kind = .regional → limits.maxBatch ≤ 1
  distinct : ((first ++ steps).filterMap (·.2.polledOn?)).Nodup
  queue : ((new limits).run first).queues.line lane = []
  pool : ((new limits).run first).pool.line lane = []
  each : ∀ e ∈ ((new limits).run first).trace steps,
    (∃ t ∈ e.entry.tasks, t.lane = lane) ∨
      (∃ c, e.op = .poll lane c ∧ e.before.polls.isOpen c = true) ∨ e.Elsewhere (· = lane)
  stays : ∀ e ∈ ((new limits).run first).trace steps, ∀ c ∈ e.before.pool.line lane,
    e.op ≠ .leavePoll c

/-- Each worker receives the task that has its place, if there is one, and nothing else. -/
def Paired (lane : Lane) (events : List Event) : Prop :=
  ∀ (k : Nat) (c : ConnectionId), (polledIn lane events)[k]? = some c →
    receivedOn c events = ((acceptedIn lane events)[k]?.map Task.dispatch).toList

variable {now : Moment} {s s' mid : Scheduler} {hand hand' : Finset TaskId}
  {log more : List Handover} {entry : Entry} {e : Event} {lane : Lane} {c : ConnectionId}
  {t : Task}

/-! ### Tasks that are passed on to workers that stay -/

section

variable {queue : List TaskId} {workers : List ConnectionId}

/-- Of new tasks of a lane some have been passed on, in their order, to the workers that waited
there, or have joined the line, and the others are in hand. -/
structure Progress (lane : Lane) (queue : List TaskId) (workers : List ConnectionId)
    (done todo : List Task) (s : Scheduler) (hand : Finset TaskId) (log : List Handover) :
    Prop where
  hand : hand = (todo.map Task.id).toFinset
  tasks : ∀ t ∈ todo, s.tasks[t.id]? = some t
  pool : s.pool.line lane = workers.drop done.length
  line : s.queues.line lane = queue ++ (done.drop workers.length).map Task.id
  stay : ∀ c ∈ workers.drop done.length, s.polls.isOpen c = true
  given : ∀ (i : Nat) (c : ConnectionId), workers[i]? = some c →
    handedTo c log = (done[i]?.map Task.dispatch).toList

variable {done todo : List Task}

theorem drop_succ_of_cons {α : Type} {xs rest : List α} {x : α} {n : Nat}
    (h : xs.drop n = x :: rest) : xs.drop (n + 1) = rest := by
  rw [← List.drop_drop, h, List.drop_one, List.tail_cons]

theorem getElem?_of_drop {α : Type} {xs rest : List α} {x : α} {n : Nat}
    (h : xs.drop n = x :: rest) : xs[n]? = some x := by
  have hhead := congrArg (·[0]?) h
  simpa using hhead

/-- Another place of a list is not the one at its end. -/
theorem getElem?_concat_of_ne {i : Nat} (h : i ≠ done.length) : (done ++ [t])[i]? = done[i]? := by
  rw [List.getElem?_append]
  split
  · rfl
  · rw [List.getElem?_eq_none (by simp; omega), List.getElem?_eq_none (by omega)]

namespace Progress

theorem mem (h : Progress lane queue workers done todo s hand log)
    (ht : s.tasks[t.id]? = some t) (hh : t.id ∈ hand) : t ∈ todo := by
  rw [h.hand, List.mem_toFinset] at hh
  obtain ⟨u, hu, hid⟩ := List.mem_map.mp hh
  have htask := h.tasks u hu
  rw [hid, ht] at htask
  exact Option.some.inj htask ▸ hu

/-- Of the workers that wait in the lane none has left. -/
theorem nobody (h : Progress lane queue workers done todo s hand log)
    {gone : List ConnectionId} (hsub : gone ⊆ s.pool.line lane)
    (hgone : ∀ d ∈ gone, s.polls.isOpen d = false) : gone = [] := by
  refine List.eq_nil_iff_forall_not_mem.mpr fun d hd => ?_
  have hstays := h.stay d (h.pool ▸ hsub hd)
  simp [hgone d hd] at hstays

section

variable (h : Progress lane queue workers done (t :: todo) s hand log)
  (hnew : t.id ∉ todo.map Task.id)

include h hnew

theorem erase : hand.erase t.id = (todo.map Task.id).toFinset := by
  rw [h.hand, List.map_cons, List.toFinset_cons,
    Finset.erase_insert fun hin => hnew (List.mem_toFinset.mp hin)]

/-- The first task that is left is given to the first worker that waits. -/
theorem give (hnodup : workers.Nodup) (hlane : t.lane = lane) {rest : List ConnectionId}
    (hline : s.pool.line lane = c :: rest) (now : Moment) :
    Progress lane queue workers (done ++ [t]) todo (s.handTo now t c rest) (hand.erase t.id)
      (log ++ [⟨t.dispatch, some c⟩]) := by
  have hdrop : workers.drop done.length = c :: rest := h.pool.symm.trans hline
  have hget : workers[done.length]? = some c := getElem?_of_drop hdrop
  have hlt : done.length < workers.length := (List.getElem?_eq_some_iff.mp hget).1
  have hnext : workers.drop (done ++ [t]).length = rest := by
    rw [List.length_append, List.length_singleton, drop_succ_of_cons hdrop]
  have hother : c ∉ rest := (List.nodup_cons.mp (hdrop ▸ hnodup.sublist (List.drop_sublist ..))).1
  refine ⟨h.erase hnew, fun u hu => ?_, ?_, ?_, fun d hd => ?_, fun i d hi => ?_⟩
  · have hne : t.id ≠ u.id := fun hid => hnew (hid ▸ List.mem_map_of_mem hu)
    have htask := h.tasks u (List.mem_cons_of_mem _ hu)
    simpa [handTo, setWorkers, deliver, Std.ExtTreeMap.getElem?_insert, hne] using htask
  · rw [hnext, ← hlane]
    exact Lanes.line_setLine_self ..
  · have hqueue : (s.handTo now t c rest).queues.line lane = s.queues.line lane := rfl
    rw [hqueue, h.line, List.drop_eq_nil_of_le (Nat.le_of_lt hlt),
      List.drop_eq_nil_of_le (by simp; omega)]
  · rw [hnext] at hd
    have hne : c ≠ d := fun hcd => hother (hcd ▸ hd)
    have hstays := h.stay d (hdrop ▸ List.mem_cons_of_mem _ hd)
    rw [Switchboard.isOpen] at hstays ⊢
    simpa [handTo, setWorkers, deliver, Std.ExtTreeMap.getElem?_insert, hne] using hstays
  · rw [handedTo_append, h.given i d hi]
    by_cases hi' : i = done.length
    · subst hi'
      obtain rfl : c = d := Option.some.inj (hget.symm.trans hi)
      simp [handedTo]
    · have hne : c ≠ d := by
        rintro rfl
        have hlt' := (List.getElem?_eq_some_iff.mp hi).1
        exact hi' ((List.getElem?_inj hlt' hnodup).mp (hi.trans hget.symm))
      rw [getElem?_concat_of_ne hi']
      simp [handedTo, hne]

/-- The first task that is left joins the line, as no worker waits. -/
theorem join (hline : s.pool.line lane = []) :
    Progress lane queue workers (done ++ [t]) todo
      { s with queues := s.queues.setLine lane (s.queues.line lane ++ [t.id]) }
      (hand.erase t.id) log := by
  have hle : workers.length ≤ done.length :=
    List.drop_eq_nil_iff.mp (h.pool.symm.trans hline)
  have hnobody : workers.drop (done ++ [t]).length = [] :=
    List.drop_eq_nil_of_le (by simp; omega)
  refine ⟨h.erase hnew, fun u hu => h.tasks u (List.mem_cons_of_mem _ hu), ?_, ?_,
    fun d hd => ?_, fun i d hi => ?_⟩
  · rw [hnobody, ← hline]
  · rw [Lanes.line_setLine_self, h.line, List.drop_append_of_le_length hle]
    simp
  · rw [hnobody] at hd
    cases hd
  · have hlt : i < workers.length := (List.getElem?_eq_some_iff.mp hi).1
    rw [getElem?_concat_of_ne (by omega)]
    exact h.given i d hi

end

variable (hlane : ∀ t ∈ todo, t.lane = lane) (hfresh : ∀ t ∈ todo, t.deliveries = 0)
  (horder : todo.Pairwise (·.id.value < ·.id.value))

include hlane hfresh horder

/-- The foremost task in hand is the first of those that are left. -/
theorem first (h : Progress lane queue workers done todo s hand log)
    (ht : s.tasks[t.id]? = some t) (hh : t.id ∈ hand) (hforemost : Foremost s hand t) :
    ∃ rest, todo = t :: rest ∧ t.id ∉ rest.map Task.id := by
  have hin := h.mem ht hh
  cases todo with
  | nil => cases hin
  | cons u rest =>
    have hu : u ∈ u :: rest := List.mem_cons_self ..
    obtain ⟨hfirst, -⟩ := List.pairwise_cons.mp horder
    have hle : t.id.value ≤ u.id.value := by
      refine hforemost u.id ?_ ⟨u, h.tasks u hu, ?_, hfresh u hu⟩
      · rw [h.hand, List.mem_toFinset]
        exact List.mem_map_of_mem hu
      · exact (hlane u hu).trans (hlane t hin).symm
    rcases List.mem_cons.mp hin with rfl | hin
    · refine ⟨rest, rfl, fun hid => ?_⟩
      obtain ⟨v, hv, hid⟩ := List.mem_map.mp hid
      exact Nat.lt_irrefl _ (hid ▸ hfirst v hv)
    · exact absurd (hfirst t hin) (Nat.not_lt.mpr hle)

/-- A shift gives the first task that is left to the first worker, or puts it in line if there is no
worker. -/
theorem shift (h : Progress lane queue workers done todo s hand log)
    (hnodup : workers.Nodup) (hshift : Shift now s hand more s' hand')
    (hmore : ∀ g ∈ more, g.receiver ≠ none) :
    ∃ done' todo', done' ++ todo' = done ++ todo ∧
      Progress lane queue workers done' todo' s' hand' (log ++ more) := by
  cases hshift with
  | @give t dead c rest' ht hh hforemost hline hdead hopen =>
    obtain ⟨rest, rfl, hnew⟩ := h.first hlane hfresh horder ht hh hforemost
    obtain rfl : t.lane = lane := hlane t (List.mem_cons_self ..)
    -- All workers of the lane stay, so the first of them receives the task.
    obtain rfl : dead = [] := h.nobody (hline ▸ List.subset_append_left ..) hdead
    exact ⟨done ++ [t], rest, by simp, h.give hnew hnodup rfl hline now⟩
  | @drop t ht hh hall =>
    obtain rfl : t.lane = lane := hlane t (h.mem ht hh)
    have hnobody := h.nobody (List.Subset.refl _) hall
    refine ⟨done, todo, rfl, h.hand, h.tasks, ?_, h.line, h.stay, ?_⟩
    · rw [← h.pool, hnobody]
      exact Lanes.line_setLine_self ..
    · rw [List.append_nil]
      exact h.given
  | @join t xs ht hh hempty hxs =>
    have hin := h.mem ht hh
    obtain rfl : t.lane = lane := hlane t hin
    obtain ⟨-, hforemost, rfl⟩ :=
      hxs.resolve_right fun hpos => Nat.ne_of_gt hpos.1 (hfresh t hin)
    obtain ⟨rest, rfl, hnew⟩ := h.first hlane hfresh horder ht hh hforemost
    rw [List.append_nil]
    exact ⟨done ++ [t], rest, by simp, h.join hnew hempty⟩
  | take => exact absurd rfl (hmore _ (List.mem_singleton_self _))

end Progress

/-- Shifts that leave nothing in hand give the tasks to the workers, one to one, and put those that
are left over in line. -/
theorem Shifts.progress (hlane : ∀ t ∈ todo, t.lane = lane)
    (hfresh : ∀ t ∈ todo, t.deliveries = 0) (horder : todo.Pairwise (·.id.value < ·.id.value))
    (h : Shifts now s hand log s' ∅) (hnodup : workers.Nodup)
    (hlog : ∀ g ∈ log, g.receiver ≠ none)
    (hfirst : Progress lane queue workers [] todo s hand []) :
    Progress lane queue workers todo [] s' ∅ log := by
  suffices hrun : ∀ {log s' hand'}, Shifts now s hand log s' hand' →
      (∀ g ∈ log, g.receiver ≠ none) → ∃ done rest, done ++ rest = todo ∧
        Progress lane queue workers done rest s' hand' log by
    obtain ⟨done, rest, hall, hlast⟩ := hrun h hlog
    have hnone : rest = [] := List.eq_nil_iff_forall_not_mem.mpr fun t ht => by
      have hin := List.mem_toFinset.mpr (List.mem_map_of_mem (f := Task.id) ht)
      rw [← hlast.hand] at hin
      cases hin
    subst hnone
    rw [List.append_nil] at hall
    exact hall ▸ hlast
  intro log s' hand' h
  induction h with
  | refl => exact fun _ => ⟨[], todo, rfl, hfirst⟩
  | @tail log more s' s'' _ _ _ hshift ih =>
    intro hlog
    obtain ⟨done, rest, rfl, hbefore⟩ := ih fun g hg => hlog g (List.mem_append_left _ hg)
    exact hbefore.shift (fun t ht => hlane t (List.mem_append_right _ ht))
      (fun t ht => hfresh t (List.mem_append_right _ ht)) (List.pairwise_append.mp horder).2.1
      hnodup hshift fun g hg => hlog g (List.mem_append_right _ hg)

end

/-! ### What an event does to workers -/

namespace Event

/-- What comes to a waiting side is what was handed over there. -/
theorem news_eq (hs : Sound e.before ∅) (c : ConnectionId) :
    e.news c = handedTo c e.handovers := by
  obtain ⟨mid, he⟩ := e.enters hs
  rcases he.shifts.handed c with ⟨hnone, hside⟩ | ⟨t, -, -, hlog, hopen, hside, -⟩
  · rw [hnone, news, Switchboard.held?_congr hside]
    split
    · rfl
    · next hheld =>
      rw [Option.not_isSome_iff_eq_none] at hheld
      rcases he.enters.noNews hs c with hsame | hmid
      · rw [Switchboard.held?_congr hsame, hheld]
        rfl
      · rw [hmid]
        rfl
  · have hg : ⟨t, some c⟩ ∈ e.handovers := mem_handedTo.mp (hlog ▸ List.mem_singleton_self t)
    have hhand : e.hand ≠ ∅ := Finset.ne_empty_of_mem (he.shifts.mem_hand_of_mem hg rfl)
    rw [he.polls, isOpen_polls hhand] at hopen
    have hafter : e.after.polls.held? c = some [t] := by rw [Switchboard.held?, hside]
    rw [news, Switchboard.held?_of_isOpen hopen, hafter, hlog]
    rfl

/-- A waiting side that does not leave is open when tasks are passed on. -/
theorem isOpen_polls_of_stays (hop : e.op ≠ .leavePoll c)
    (hopen : e.before.polls.isOpen c = true) : e.polls.isOpen c = true := by
  obtain ⟨s, now, op⟩ := e
  cases op with
  | openPoll =>
    by_cases hnext : (⟨s.polls.next⟩ : ConnectionId) = c
    · simp [polls, Switchboard.connect, Switchboard.isOpen, hnext]
    · refine (Switchboard.isOpen_congr ?_).trans hopen
      simp [polls, Switchboard.connect, Std.ExtTreeMap.getElem?_insert, hnext]
  | leavePoll d =>
    have hne : d ≠ c := fun h => hop (h ▸ rfl)
    refine (Switchboard.isOpen_congr ?_).trans hopen
    simp [polls, Switchboard.leave, Std.ExtTreeMap.getElem?_erase, hne]
  | readPoll d => exact (s.polls.isOpen_take d c).trans hopen
  | releasePoll lane d => exact (s.polls.isOpen_take d c).trans hopen
  | abandonPoll lane d => exact (s.polls.isOpen_take d c).trans hopen
  | _ => exact hopen

/-- A worker that stays goes on waiting until it is given a task. -/
theorem isOpen_after (hs : Sound e.before ∅) (hop : e.op ≠ .leavePoll c)
    (hnone : handedTo c e.handovers = []) (hopen : e.before.polls.isOpen c = true) :
    e.after.polls.isOpen c = true := by
  obtain ⟨mid, he⟩ := e.enters hs
  rcases he.shifts.handed c with ⟨-, hside⟩ | ⟨t, -, -, hlog, -⟩
  · rw [Switchboard.isOpen_congr hside, he.polls]
    exact isOpen_polls_of_stays hop hopen
  · rw [hnone] at hlog
    cases hlog

/-- A task that waits is as it was when tasks were passed on. -/
theorem task_of_line (e : Event) (hs : Sound e.before ∅) {id : TaskId}
    (hid : id ∈ e.after.queues.line lane) :
    ∃ mid, e.Explained mid ∧ e.after.tasks[id]? = mid.tasks[id]? := by
  obtain ⟨mid, he⟩ := e.enters hs
  refine ⟨mid, he, (he.shifts.unchanged fun hin => ?_).1⟩
  obtain ⟨g, hg, rfl⟩ := mem_handedOver.mp hin
  have hgives := e.gives hs hg
  obtain ⟨-, u, hu, hqueued, -⟩ := (e.sound_after hs).placed.inLine hid
  obtain rfl := Option.some.inj (hu.symm.trans hgives.entry)
  rw [hgives.state] at hqueued
  cases hqueued

theorem servedOn_of_ne (hop : ∀ lane, e.op ≠ .poll lane c) : e.servedOn c = [] := by
  rw [servedOn]
  split
  · next hpoll _ => exact if_neg fun h => hop _ (h ▸ hpoll)
  · rfl

theorem pollsIn?_eq_some_iff : e.pollsIn? lane = some c ↔ e.op = .poll lane c := by
  rw [pollsIn?]
  split
  · next hop => simp [hop]
  · next hnot =>
    simp only [reduceCtorEq, false_iff]
    exact hnot lane c

/-- A poll enters nothing in the books. -/
theorem entry_of_poll (hop : e.op = .poll lane c) : e.entry = .nothing := by
  rw [entry, hop]
  rfl

/-- A poll has no task in hand. -/
theorem hand_of_poll (hop : e.op = .poll lane c) : e.hand = ∅ := by
  rw [hand_of_nothing (entry_of_poll hop), requeued, listed, hop]
  rfl

/-- When requests are accepted no task is taken back. -/
theorem requeued_of_accepted (ht : t ∈ e.entry.tasks) : e.requeued = ∅ := by
  have hlisted : e.listed = [] := by
    obtain ⟨s, now, op⟩ := e
    cases op with
    | reportLost => cases ht
    | requeueExpired => cases ht
    | abandonPoll => cases ht
    | returnUndelivered => cases ht
    | _ => rfl
  simp [requeued, hlisted]

/-- When requests are accepted no worker polls. -/
theorem ne_poll_of_accepted (ht : t ∈ e.entry.tasks) : e.op ≠ .poll lane c := by
  intro hop
  rw [entry_of_poll hop] at ht
  cases ht

/-- What is passed on of the requests that are accepted goes to workers that wait. -/
theorem receiver_of_accepted (ht : t ∈ e.entry.tasks) : ∀ g ∈ e.handovers, g.receiver ≠ none := by
  rintro ⟨u, -⟩ hg rfl
  obtain ⟨tasks, houtcome⟩ := e.dispatched_of_mem hg
  obtain ⟨lane, c, hop⟩ := e.poll_of_polled houtcome
  exact ne_poll_of_accepted ht hop

/-- Requests are accepted in the order of their numbers. -/
theorem pairwise_tasks (e : Event) (hs : Sound e.before ∅) :
    e.entry.tasks.Pairwise (·.id.value < ·.id.value) := by
  have hsorted := pairwise_numbersFrom e.before.nextId.value e.entry.tasks.length
  rw [← (e.numbers hs).1, List.pairwise_map] at hsorted
  exact hsorted

/-- A task that waits and was not in hand is as it was. -/
theorem task_of_queued (e : Event) (hs : Sound e.before ∅) {id : TaskId}
    (hid : id ∈ e.after.queues.line lane) (hnot : id ∉ e.hand)
    (ht : e.before.tasks[id]? = some t) : e.after.tasks[id]? = some t := by
  obtain ⟨mid, he, hsame⟩ := e.task_of_line hs hid
  obtain ⟨-, u, hu, -⟩ := (e.sound_after hs).placed.inLine hid
  rw [hsame, (he.enters.unchanged_of_mem hs hnot (mem_tasks (hsame ▸ hu))).1, ht]

end Event

/-! ### A lane in which workers and tasks meet -/

theorem receivedOn_concat (c : ConnectionId) (past : List Event) (e : Event) :
    receivedOn c (past ++ [e]) = receivedOn c past ++ (e.servedOn c ++ e.news c) := by
  simp [receivedOn]

theorem polledIn_concat (lane : Lane) (past : List Event) (e : Event) :
    polledIn lane (past ++ [e]) = polledIn lane past ++ (e.pollsIn? lane).toList := by
  cases h : e.pollsIn? lane <;> simp [polledIn, h]

theorem acceptedIn_concat (lane : Lane) (past : List Event) (e : Event) :
    acceptedIn lane (past ++ [e]) =
      acceptedIn lane past ++ e.entry.tasks.filter (·.lane = lane) := by
  simp [acceptedIn]

section

variable {past : List Event}

theorem polledIn_concat_of_ne (h : ∀ c, e.op ≠ .poll lane c) :
    polledIn lane (past ++ [e]) = polledIn lane past := by
  have hnobody : e.pollsIn? lane = none := Option.eq_none_iff_forall_ne_some.mpr fun c hc =>
    h c (Event.pollsIn?_eq_some_iff.mp hc)
  rw [polledIn_concat, hnobody, Option.toList_none, List.append_nil]

theorem polledIn_concat_of_poll (hop : e.op = .poll lane c) :
    polledIn lane (past ++ [e]) = polledIn lane past ++ [c] := by
  rw [polledIn_concat, Event.pollsIn?_eq_some_iff.mpr hop, Option.toList_some]

theorem acceptedIn_concat_of_ne (h : ∀ t ∈ e.entry.tasks, t.lane ≠ lane) :
    acceptedIn lane (past ++ [e]) = acceptedIn lane past := by
  rw [acceptedIn_concat, List.filter_eq_nil_iff.mpr fun t ht => by simpa using h t ht,
    List.append_nil]

theorem acceptedIn_concat_of_poll {other : Lane} (hop : e.op = .poll other c) :
    acceptedIn lane (past ++ [e]) = acceptedIn lane past :=
  acceptedIn_concat_of_ne fun t ht => by
    rw [Event.entry_of_poll hop] at ht
    cases ht

end

/-- Of the tasks that were accepted in a lane and the workers that polled there those wait that are
more than the others. -/
structure Surplus (lane : Lane) (accepted : List Task) (polled : List ConnectionId)
    (s : Scheduler) : Prop where
  line : s.queues.line lane = (accepted.drop polled.length).map Task.id
  pool : s.pool.line lane = polled.drop accepted.length
  tasks : ∀ t ∈ accepted.drop polled.length, s.tasks[t.id]? = some t
  stay : ∀ c ∈ polled.drop accepted.length, s.polls.isOpen c = true

/-- Tasks that are accepted are all passed on, to the workers that wait or else into the line. -/
theorem Surplus.progress {accepted : List Task} {polled : List ConnectionId}
    (h : Surplus t.lane accepted polled e.before) (hs : Sound e.before ∅) (ht : t ∈ e.entry.tasks)
    (hnodup : polled.Nodup) (he : e.Explained mid) :
    Progress t.lane ((accepted.drop polled.length).map Task.id) (polled.drop accepted.length)
      e.entry.tasks [] e.after ∅ e.handovers := by
  have hintake := he.enters.intake ht
  have hfirst : Progress t.lane ((accepted.drop polled.length).map Task.id)
      (polled.drop accepted.length) [] e.entry.tasks mid e.hand [] := by
    refine ⟨?_, hintake.tasks, ?_, ?_, fun c hc => ?_, fun i c _ => by simp⟩
    · rw [Event.hand, Event.requeued_of_accepted ht, Finset.union_empty]
    · rw [hintake.pool]
      exact h.pool
    · rw [hintake.queues, h.line]
      simp
    · rw [hintake.polls]
      exact h.stay c hc
  exact he.shifts.progress hintake.lane hintake.fresh (e.pairwise_tasks hs)
    (hnodup.sublist (List.drop_sublist ..)) (Event.receiver_of_accepted ht) hfirst

/-- A worker that polls where tasks wait, and may have one, is given the first. -/
theorem Surplus.eq_of_serves {accepted rest tasks : List Task} {polled : List ConnectionId}
    {u : Task} (h : Surplus lane accepted polled e.before) (hop : e.op = .poll lane c)
    (hlimit : e.before.batchLimit lane.kind = 1)
    (hdrop : accepted.drop polled.length = u :: rest) (hserves : e.Serves lane tasks) :
    tasks = [u.dispatch] := by
  have hids := hserves.head
  rw [h.line, hdrop, hlimit, List.map_cons, List.take_succ_cons, List.take_zero,
    List.map_eq_singleton_iff] at hids
  obtain ⟨t, rfl, hid⟩ := hids
  obtain ⟨v, hready, -, rfl⟩ := (hserves.each t (List.mem_singleton_self t)).taken
  have hv : e.before.tasks[v.id]? = some v := by
    cases hready with
    | new hnew =>
      rw [Event.entry_of_poll hop] at hnew
      cases hnew
    | back _ hback =>
      have hin := Finset.mem_union_right (e.entry.tasks.map Task.id).toFinset hback
      rw [← Event.hand, Event.hand_of_poll hop] at hin
      cases hin
    | same hv => exact hv
  have hid : v.id = u.id := hid
  rw [hid, h.tasks u (hdrop ▸ List.mem_cons_self ..)] at hv
  rw [Option.some.inj hv]

section

variable {limits : Limits} {steps : List (Moment × Operation)} {early past future : List Event}
  (hpolled : (((new limits).trace steps).filterMap (·.op.polledOn?)).Nodup)
  (hsplit : (new limits).trace steps = (early ++ past) ++ e :: future)

include hpolled hsplit

theorem nodup_polledIn : (polledIn lane past).Nodup := by
  have hall := nodup_filterMap hpolled (f := (·.pollsIn? lane)) fun h =>
    polledOn?_of_poll (Event.pollsIn?_eq_some_iff.mp h)
  rw [hsplit, List.filterMap_append, List.filterMap_append] at hall
  exact (List.nodup_append'.mp (List.nodup_append'.mp hall).1).2.1

/-- A worker that has polled in a lane waits there if anywhere, and does not poll again. -/
theorem once_of_polledIn (hc : c ∈ polledIn lane past) :
    (∀ other, c ∈ e.before.pool.line other → other = lane) ∧ ∀ other, e.op ≠ .poll other c := by
  obtain ⟨y, hy, hop⟩ := List.mem_filterMap.mp hc
  have hop := Event.pollsIn?_eq_some_iff.mp hop
  have hy' : y ∈ early ++ past := List.mem_append_right _ hy
  refine ⟨fun other hin => ?_, ne_poll hpolled hsplit hy' hop⟩
  obtain ⟨z, hz, hop'⟩ := polled_before hsplit hin
  have htrace : ∀ {x}, x ∈ early ++ past → x ∈ (new limits).trace steps := fun hx =>
    hsplit ▸ List.mem_append_left _ hx
  rw [eq_of_polls hpolled (htrace hz) (htrace hy') hop' hop, hop] at hop'
  cases hop'
  rfl

/-- A worker has received nothing before it polls. -/
theorem receivedOn_of_poll {other : Lane} (hop : e.op = .poll other c) :
    receivedOn c past = [] := by
  have hsilent := silent_before hpolled hsplit hop
  refine List.flatMap_eq_nil_iff.mpr fun y hy => ?_
  have hy' : y ∈ early ++ past := List.mem_append_right _ hy
  have hs : Sound y.before ∅ := sound_of_mem_trace (hsplit ▸ List.mem_append_left _ hy')
  have hnone : handedTo c y.handovers = [] := handedTo_eq_nil fun t ht =>
    hsilent y hy' [t] ((y.brings_iff hs).mpr ht)
  rw [y.news_eq hs, hnone, List.append_nil]
  exact Event.servedOn_of_ne fun lane hop' => ne_poll hpolled hsplit hy' hop' other hop

variable (hs : Sound e.before ∅)

include hs

/-- A worker that has had its task is given no other. -/
theorem Surplus.handedTo_of_lt {k : Nat}
    (h : Surplus lane (acceptedIn lane past) (polledIn lane past) e.before)
    (hk : (polledIn lane past)[k]? = some c) (hlt : k < (acceptedIn lane past).length) :
    handedTo c e.handovers = [] := by
  refine handedTo_eq_nil fun t ht => ?_
  have hpool := (e.waited hs ht).1
  rw [(once_of_polledIn hpolled hsplit (List.mem_of_getElem? hk)).1 t.lane hpool, h.pool,
    List.mem_iff_getElem?] at hpool
  obtain ⟨i, hi⟩ := hpool
  rw [List.getElem?_drop, ← hk] at hi
  have hk' := (List.getElem?_eq_some_iff.mp hk).1
  have heq := (List.getElem?_inj hk' (nodup_polledIn hpolled hsplit)).mp hi.symm
  omega

variable (hpast : Paired lane past)

include hpast

/-- A worker that has polled receives on what is handed over to it. -/
theorem receivedOn_of_polledIn {k : Nat} (hk : (polledIn lane past)[k]? = some c) :
    receivedOn c (past ++ [e]) =
      ((acceptedIn lane past)[k]?.map Task.dispatch).toList ++ handedTo c e.handovers := by
  have hc : c ∈ polledIn lane past := List.mem_of_getElem? hk
  rw [receivedOn_concat, hpast k c hk, e.news_eq hs,
    Event.servedOn_of_ne (once_of_polledIn hpolled hsplit hc).2, List.nil_append]

/-- The worker that polls has its place after all others, and these are given nothing. -/
theorem Paired.poll (hop : e.op = .poll lane c) (hserved : e.servedOn c =
      ((acceptedIn lane past)[(polledIn lane past).length]?.map Task.dispatch).toList) :
    Paired lane (past ++ [e]) := by
  intro k d hk
  rw [acceptedIn_concat_of_poll hop]
  rw [polledIn_concat_of_poll hop, List.getElem?_append] at hk
  split at hk
  · rw [receivedOn_of_polledIn hpolled hsplit hs hpast hk, Event.handedTo_of_poll hop d,
      List.append_nil]
  · next hlt =>
    obtain ⟨hzero, rfl⟩ : k - (polledIn lane past).length = 0 ∧ c = d := by
      rw [List.getElem?_singleton] at hk
      split at hk
      · next hzero => exact ⟨hzero, Option.some.inj hk⟩
      · cases hk
    have hlast : k = (polledIn lane past).length := by omega
    rw [receivedOn_concat, receivedOn_of_poll hpolled hsplit hop, List.nil_append,
      e.news_eq hs, Event.handedTo_of_poll hop c, List.append_nil, hserved, hlast]

variable (h : Surplus lane (acceptedIn lane past) (polledIn lane past) e.before)

include h

/-- Nothing happens in the lane when something is done elsewhere and nobody leaves. -/
theorem Surplus.elsewhere (helse : e.Elsewhere (· = lane))
    (hstay : ∀ c ∈ e.before.pool.line lane, e.op ≠ .leavePoll c) :
    Surplus lane (acceptedIn lane (past ++ [e])) (polledIn lane (past ++ [e])) e.after ∧
      Paired lane (past ++ [e]) := by
  have hsame := e.sameIn hs helse
  have haccepted : acceptedIn lane (past ++ [e]) = acceptedIn lane past :=
    acceptedIn_concat_of_ne helse.accepted
  have hpolls : polledIn lane (past ++ [e]) = polledIn lane past :=
    polledIn_concat_of_ne fun c => (helse.polls lane c rfl).1
  have hnone : ∀ c ∈ polledIn lane past, handedTo c e.handovers = [] := fun c hc =>
    handedTo_eq_nil fun t ht => helse.handover hs ht
      ((once_of_polledIn hpolled hsplit hc).1 t.lane (e.waited hs ht).1)
  constructor
  · rw [haccepted, hpolls]
    refine ⟨(hsame.queue lane rfl).trans h.line, (hsame.pool lane rfl).trans h.pool,
      fun t ht => ?_, fun c hc => ?_⟩
    · have hlane : t.lane = lane := by
        simpa using (List.mem_filter.mp (List.mem_of_mem_drop ht)).2
      exact (hsame.task_iff hlane).mpr (h.tasks t ht)
    · exact Event.isOpen_after hs (hstay c (h.pool ▸ hc)) (hnone c (List.mem_of_mem_drop hc))
        (h.stay c hc)
  · intro k c hk
    rw [hpolls] at hk
    rw [haccepted, receivedOn_of_polledIn hpolled hsplit hs hpast hk,
      hnone c (List.mem_of_getElem? hk), List.append_nil]

/-- A worker that polls where no task waits has to wait. -/
theorem Surplus.park (hop : e.op = .poll lane c) (hopen : e.before.polls.isOpen c = true)
    (hline : e.before.queues.line lane = []) (hparked : e.outcome = .polled .parked) :
    Surplus lane (acceptedIn lane (past ++ [e])) (polledIn lane (past ++ [e])) e.after ∧
      Paired lane (past ++ [e]) := by
  have hle : (acceptedIn lane past).length ≤ (polledIn lane past).length := by
    rw [h.line, List.map_eq_nil_iff, List.drop_eq_nil_iff] at hline
    exact hline
  have hnone : (acceptedIn lane past).drop (polledIn lane past ++ [c]).length = [] :=
    List.drop_eq_nil_of_le (by simp; omega)
  have hafter := e.after_of_parks hs (Event.parksIn?_eq_some_iff.mpr ⟨hop, hparked⟩)
  refine ⟨?_, Paired.poll hpolled hsplit hs hpast hop ?_⟩
  · rw [acceptedIn_concat_of_poll hop, polledIn_concat_of_poll hop, hafter]
    refine ⟨?_, ?_, fun t ht => ?_, fun d hd => ?_⟩
    · rw [hnone]
      exact hline
    · rw [Lanes.pushBack, Lanes.line_append, if_pos rfl, h.pool,
        List.drop_append_of_le_length hle]
    · rw [hnone] at ht
      cases ht
    · rw [List.drop_append_of_le_length hle] at hd
      rcases List.mem_append.mp hd with hd | hd
      · exact h.stay d hd
      · obtain rfl := List.mem_singleton.mp hd
        exact hopen
  · rw [Event.servedOn, hop, hparked, List.getElem?_eq_none hle]
    rfl

/-- A worker that polls where tasks wait is given the first one. -/
theorem Surplus.serve {tasks : List Task} (hop : e.op = .poll lane c)
    (hlimit : e.before.batchLimit lane.kind = 1) (hline : e.before.queues.line lane ≠ [])
    (hdispatched : e.outcome = .polled (.dispatched tasks)) (hserves : e.Serves lane tasks) :
    Surplus lane (acceptedIn lane (past ++ [e])) (polledIn lane (past ++ [e])) e.after ∧
      Paired lane (past ++ [e]) := by
  obtain ⟨u, rest, hdrop⟩ : ∃ u rest,
      (acceptedIn lane past).drop (polledIn lane past).length = u :: rest := by
    rw [h.line, Ne, List.map_eq_nil_iff] at hline
    exact List.exists_cons_of_ne_nil hline
  obtain rfl := h.eq_of_serves hop hlimit hdrop hserves
  have hlt : (polledIn lane past).length < (acceptedIn lane past).length :=
    (List.getElem?_eq_some_iff.mp (getElem?_of_drop hdrop)).1
  have hnext : (acceptedIn lane past).drop (polledIn lane past ++ [c]).length = rest := by
    rw [List.length_append, List.length_singleton, drop_succ_of_cons hdrop]
  have hnobody : (polledIn lane past ++ [c]).drop (acceptedIn lane past).length = [] :=
    List.drop_eq_nil_of_le (by simp; omega)
  have hafter : e.after.queues.line lane = rest.map Task.id := by
    rw [hserves.rest, hlimit, h.line, hdrop, List.map_cons, List.drop_one, List.tail_cons]
  refine ⟨?_, Paired.poll hpolled hsplit hs hpast hop ?_⟩
  · rw [acceptedIn_concat_of_poll hop, polledIn_concat_of_poll hop]
    refine ⟨by rw [hafter, hnext], ?_, fun t ht => ?_, fun d hd => ?_⟩
    · have hsub := e.pool_after_sublist hs lane
      have hparks : e.parksIn? lane = none := by
        rw [Event.parksIn?, hop, hdispatched]
      rw [h.pool, List.drop_eq_nil_of_le (Nat.le_of_lt hlt), hparks] at hsub
      rw [hnobody, List.sublist_nil.mp hsub]
    · rw [hnext] at ht
      have hin : t.id ∈ e.after.queues.line lane := hafter ▸ List.mem_map_of_mem ht
      have hhand : t.id ∉ e.hand := Event.hand_of_poll hop ▸ Finset.notMem_empty _
      exact e.task_of_queued hs hin hhand (h.tasks t (hdrop ▸ List.mem_cons_of_mem _ ht))
    · rw [hnobody] at hd
      cases hd
  · rw [Event.servedOn, hop, hdispatched, getElem?_of_drop hdrop]
    simp

/-- A worker that polls is given the first task that waits, or waits itself. -/
theorem Surplus.poll (hop : e.op = .poll lane c) (hopen : e.before.polls.isOpen c = true)
    (hlimit : e.before.batchLimit lane.kind = 1) :
    Surplus lane (acceptedIn lane (past ++ [e])) (polledIn lane (past ++ [e])) e.after ∧
      Paired lane (past ++ [e]) := by
  rcases e.polled hs hop with ⟨hline, hparked, -⟩ | ⟨hline, tasks, hdispatched, hserves⟩
  · exact h.park hpolled hsplit hs hpast hop hopen hline hparked
  · exact h.serve hpolled hsplit hs hpast hop hlimit hline hdispatched hserves

/-- Tasks that are accepted go to the workers that wait, one to one, or else wait themselves. -/
theorem Surplus.accept (hin : ∃ t ∈ e.entry.tasks, t.lane = lane) :
    Surplus lane (acceptedIn lane (past ++ [e])) (polledIn lane (past ++ [e])) e.after ∧
      Paired lane (past ++ [e]) := by
  obtain ⟨t₀, ht₀, rfl⟩ := hin
  obtain ⟨mid, he⟩ := e.enters hs
  have hintake := he.enters.intake ht₀
  have haccepted : acceptedIn t₀.lane (past ++ [e]) =
      acceptedIn t₀.lane past ++ e.entry.tasks := by
    rw [acceptedIn_concat, List.filter_eq_self.mpr fun t ht => by simpa using hintake.lane t ht]
  have hpolls : polledIn t₀.lane (past ++ [e]) = polledIn t₀.lane past :=
    polledIn_concat_of_ne fun c => Event.ne_poll_of_accepted ht₀
  have hlast := h.progress hs ht₀ (nodup_polledIn hpolled hsplit) he
  have hline : e.after.queues.line t₀.lane = ((acceptedIn t₀.lane past ++ e.entry.tasks).drop
      (polledIn t₀.lane past).length).map Task.id := by
    rw [hlast.line, List.drop_append, List.map_append, List.length_drop]
  have hdrop : ((polledIn t₀.lane past).drop (acceptedIn t₀.lane past).length).drop
      e.entry.tasks.length = (polledIn t₀.lane past).drop
        (acceptedIn t₀.lane past ++ e.entry.tasks).length := by
    rw [List.drop_drop, List.length_append]
  constructor
  · rw [haccepted, hpolls]
    refine ⟨hline, hlast.pool.trans hdrop, fun t ht => ?_, fun c hc => hlast.stay c (hdrop ▸ hc)⟩
    have hwaits : t.id ∈ e.after.queues.line t₀.lane := hline ▸ List.mem_map_of_mem ht
    rw [List.drop_append] at ht
    rcases List.mem_append.mp ht with hold | hnew
    · have ht := h.tasks t hold
      refine e.task_of_queued hs hwaits (fun hhand => ?_) ht
      have hback := Event.mem_requeued_of_hand hs ht hhand
      rw [Event.requeued_of_accepted ht₀] at hback
      cases hback
    · obtain ⟨mid', he', hsame⟩ := e.task_of_line hs hwaits
      rw [hsame]
      exact (he'.enters.intake ht₀).tasks t (List.mem_of_mem_drop hnew)
  · intro k c hk
    rw [hpolls] at hk
    rw [haccepted, receivedOn_of_polledIn hpolled hsplit hs hpast hk]
    by_cases hlt : k < (acceptedIn t₀.lane past).length
    · rw [h.handedTo_of_lt hpolled hsplit hs hk hlt, List.append_nil,
        List.getElem?_append_left hlt]
    · have hle := Nat.not_lt.mp hlt
      rw [List.getElem?_append_right hle, List.getElem?_eq_none hle]
      refine hlast.given _ c ?_
      rw [List.getElem?_drop, Nat.add_sub_cancel' hle, hk]

end

/-! ### Every run -/

variable {limits : Limits} {first steps : List (Moment × Operation)}

/-- What is left out at the end does not matter. -/
theorem Interleaving.of_append {more : List (Moment × Operation)}
    (h : Interleaving limits lane first (steps ++ more)) :
    Interleaving limits lane first steps where
  limit := h.limit
  distinct := by
    have hall := h.distinct
    rw [← List.append_assoc, List.filterMap_append] at hall
    exact (List.nodup_append'.mp hall).1
  queue := h.queue
  pool := h.pool
  each e he := h.each e (by rw [trace_append]; exact List.mem_append_left _ he)
  stays e he := h.stays e (by rw [trace_append]; exact List.mem_append_left _ he)

theorem Interleaving.surplus (h : Interleaving limits lane first steps) :
    Surplus lane (acceptedIn lane (((new limits).run first).trace steps))
        (polledIn lane (((new limits).run first).trace steps))
        (((new limits).run first).run steps) ∧
      Paired lane (((new limits).run first).trace steps) := by
  induction steps using List.reverseRecOn with
  | nil =>
    refine ⟨⟨h.queue, h.pool, fun t ht => ?_, fun c hc => ?_⟩, fun k c hk => ?_⟩
    · cases ht
    · cases hc
    · cases hk
  | append_singleton steps x ih =>
    obtain ⟨hsurplus, hpaired⟩ := ih h.of_append
    let e : Event := ⟨((new limits).run first).run steps, x.1, x.2⟩
    have htrace : ((new limits).run first).trace (steps ++ [x]) =
        ((new limits).run first).trace steps ++ [e] := trace_append ..
    have hsplit : (new limits).trace (first ++ (steps ++ [x])) =
        ((new limits).trace first ++ ((new limits).run first).trace steps) ++ e :: [] := by
      rw [trace_append, htrace, List.append_assoc]
    have hpolled : (((new limits).trace (first ++ (steps ++ [x]))).filterMap
        (·.op.polledOn?)).Nodup := by
      rw [polledOn_trace]
      exact h.distinct
    have hs : Sound e.before ∅ := sound_of_mem_trace (hsplit ▸ List.mem_append_cons_self)
    have he : e ∈ ((new limits).run first).trace (steps ++ [x]) := by simp [htrace]
    have hlast : ((new limits).run first).run (steps ++ [x]) = e.after := run_append ..
    rw [htrace, hlast]
    rcases h.each e he with haccept | ⟨c, hop, hopen⟩ | helse
    · exact hsurplus.accept hpolled hsplit hs hpaired haccept
    · have hlimits : e.before.limits = limits := by
        rw [← limits_run limits (first ++ steps), run_append]
      have hlimit : e.before.batchLimit lane.kind = 1 := by
        cases hkind : lane.kind with
        | regional =>
          rw [batchLimit, hlimits]
          exact Nat.max_eq_left (h.limit hkind)
        | priority => rfl
      exact hsurplus.poll hpolled hsplit hs hpaired hop hopen hlimit
    · exact hsurplus.elsewhere hpolled hsplit hs hpaired helse (h.stays e he)

/-- Whoever comes first, the k-th worker receives the k-th task and nothing else, so that the same
requests and the same polls meet in the same pairs in every order. -/
theorem paired_run (h : Interleaving limits lane first steps) :
    Paired lane (((new limits).run first).trace steps) ∧
      ∀ steps', Interleaving limits lane first steps' →
        polledIn lane (((new limits).run first).trace steps') =
          polledIn lane (((new limits).run first).trace steps) →
        (acceptedIn lane (((new limits).run first).trace steps')).map Task.request =
          (acceptedIn lane (((new limits).run first).trace steps)).map Task.request →
        ∀ c ∈ polledIn lane (((new limits).run first).trace steps),
          (receivedOn c (((new limits).run first).trace steps')).map Task.request =
            (receivedOn c (((new limits).run first).trace steps)).map Task.request := by
  have hpaired := h.surplus.2
  refine ⟨hpaired, fun steps' h' hpolls hrequests c hc => ?_⟩
  obtain ⟨k, hk⟩ := List.mem_iff_getElem?.mp hc
  have hrequest : ∀ tasks : List Task, (tasks[k]?.map Task.dispatch).toList.map Task.request =
      (tasks.map Task.request)[k]?.toList := fun tasks => by
    rw [List.getElem?_map]
    cases tasks[k]? <;> rfl
  rw [hpaired k c hk, h'.surplus.2 k c (hpolls ▸ hk), hrequest, hrequest, hrequests]

/-- A worker waits for a request and a request for a worker, and a request of another lane comes in
between. -/
def bothOrders : List (Moment × Operation) :=
  [.openPoll, .poll ⟨.regional, ⟨"graph", "1"⟩⟩ ⟨0⟩, .openRequest,
    .submit ⟨none, ⟨"graph", "1"⟩, default⟩ ⟨0⟩,
    .enqueueBatch (.replicate 2 ⟨some ⟨"job"⟩, ⟨"graph", "1"⟩, default⟩), .openPoll,
    .poll ⟨.regional, ⟨"graph", "1"⟩⟩ ⟨1⟩].map fun op => (default, op)

/-- The worker that came first receives the first of the two tasks, and the other one the second. -/
theorem paired_bothOrders :
    Interleaving .standard ⟨.regional, ⟨"graph", "1"⟩⟩ [] bothOrders ∧
      Paired ⟨.regional, ⟨"graph", "1"⟩⟩ ((new .standard).trace bothOrders) ∧
      (receivedOn ⟨0⟩ ((new .standard).trace bothOrders)).map Task.id = [⟨2⟩] ∧
      (receivedOn ⟨1⟩ ((new .standard).trace bothOrders)).map Task.id = [⟨3⟩] := by
  have h : Interleaving .standard ⟨.regional, ⟨"graph", "1"⟩⟩ [] bothOrders := by
    refine ⟨fun _ => Nat.le_refl _, by decide, rfl, rfl, fun e he => ?_, fun e he c _ hop => ?_⟩
    · simp only [bothOrders, List.map_cons, List.map_nil, trace, List.mem_cons, List.not_mem_nil,
        or_false] at he
      rcases he with rfl | rfl | rfl | rfl | rfl | rfl | rfl
      · exact Or.inr (Or.inr (.of_nothing rfl rfl (by simp [Event.Releases])))
      · exact Or.inr (Or.inl ⟨_, rfl, by decide +kernel⟩)
      · exact Or.inr (Or.inr (.of_nothing rfl rfl (by simp [Event.Releases])))
      · refine Or.inr (Or.inr ⟨by decide +kernel, fun _ h => ?_, fun _ h => ?_, ?_⟩)
        · cases h
        · cases h
        · simp [Event.Releases]
      · exact Or.inl (by decide +kernel)
      · exact Or.inr (Or.inr (.of_nothing rfl rfl (by simp [Event.Releases])))
      · exact Or.inr (Or.inl ⟨_, rfl, by decide +kernel⟩)
    · have hstep := mem_steps_of_mem_trace he
      simp [bothOrders, hop] at hstep
  exact ⟨h, (paired_run h).1, by decide +kernel⟩

end Scheduler

end TaskExchange
