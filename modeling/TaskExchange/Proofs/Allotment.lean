import TaskExchange.Proofs.Parking

/-!
Allotments: which of several tasks goes to which of the workers that wait.  In each lane the tasks,
in their order, go to the workers that have not left, in theirs, one to each; who stands before the
last worker that is served is gone, and so are all when there are not workers enough.  Main
statement: `allotted_dispatchEach`, by which this is what the dispatcher's loop does to any list of
tasks that stand nowhere, in all lanes at once.
-/

namespace TaskExchange

/-- The workers of a line that wait on after so many of those who have not left were served: all up
to the last one served are gone. -/
def waitOn (isOpen : ConnectionId → Bool) : Nat → List ConnectionId → List ConnectionId
  | 0, line => line
  | _ + 1, [] => []
  | n + 1, c :: line => if isOpen c then waitOn isOpen n line else waitOn isOpen (n + 1) line

section

variable {p q : ConnectionId → Bool} {n : Nat} {line dead rest : List ConnectionId}
  {c : ConnectionId}

@[simp] theorem waitOn_zero (p : ConnectionId → Bool) (line : List ConnectionId) :
    waitOn p 0 line = line := by
  rw [waitOn]

@[simp] theorem waitOn_nil (p : ConnectionId → Bool) (n : Nat) : waitOn p n [] = [] := by
  cases n <;> rw [waitOn]

/-- Workers that have left are not served. -/
theorem waitOn_append_of_closed (n : Nat) (h : ∀ d ∈ dead, p d = false) :
    waitOn p (n + 1) (dead ++ line) = waitOn p (n + 1) line := by
  induction dead with
  | nil => rfl
  | cons d dead ih =>
    have hd : p d = false := h d (List.mem_cons_self ..)
    rw [List.cons_append, waitOn, if_neg (by simp [hd]), ih fun x hx => h x (.tail _ hx)]

theorem waitOn_cons_of_open (n : Nat) (line : List ConnectionId) (h : p c = true) :
    waitOn p (n + 1) (c :: line) = waitOn p n line := by
  rw [waitOn, if_pos h]

theorem waitOn_congr (h : ∀ d ∈ line, p d = q d) : waitOn p n line = waitOn q n line := by
  induction line generalizing n with
  | nil => simp
  | cons d line ih =>
    cases n with
    | zero => simp
    | succ n =>
      have hrest : ∀ x ∈ line, p x = q x := fun x hx => h x (.tail _ hx)
      rw [waitOn, waitOn, h d (List.mem_cons_self ..), ih hrest, ih hrest]

end

/-- Some workers have left a line whose first ones they were, so many of them to be served. -/
structure Dismissed (isOpen : ConnectionId → Bool) (count : Nat)
    (line gone rest : List ConnectionId) : Prop where
  split : line = gone ++ rest
  /-- Of those who had not left on their own, so many have gone, if there were so many. -/
  served : gone.filter isOpen = (line.filter isOpen).take count
  /-- Where there are workers enough, the last one that has gone was served. -/
  last : count ≤ (line.filter isOpen).length → ∀ c, gone.getLast? = some c → isOpen c = true
  /-- Where there are not, all have gone. -/
  all : (line.filter isOpen).length < count → rest = []

/-- Who waits on stands behind those who have gone. -/
theorem exists_dismissed (isOpen : ConnectionId → Bool) : ∀ (count : Nat)
    (line : List ConnectionId), ∃ gone, Dismissed isOpen count line gone (waitOn isOpen count line)
  | 0, line => ⟨[], by simp, by simp, by simp, by simp⟩
  | n + 1, [] => ⟨[], by simp, by simp, by simp, by simp⟩
  | n + 1, c :: line => by
    by_cases hc : isOpen c = true
    · obtain ⟨gone, hsplit, hserved, hlast, hall⟩ := exists_dismissed isOpen n line
      rw [waitOn_cons_of_open n line hc]
      refine ⟨c :: gone, by rw [List.cons_append, ← hsplit], by simp [hc, hserved], ?_, ?_⟩
      · intro hcount d hd
        rw [List.filter_cons_of_pos hc, List.length_cons, Nat.add_le_add_iff_right] at hcount
        rw [List.getLast?_cons] at hd
        obtain rfl := Option.some.inj hd
        cases hgone : gone.getLast? with
        | none => simpa using hc
        | some d => simpa using hlast hcount d hgone
      · intro hcount
        rw [List.filter_cons_of_pos hc, List.length_cons, Nat.add_lt_add_iff_right] at hcount
        exact hall hcount
    · obtain ⟨gone, hsplit, hserved, hlast, hall⟩ := exists_dismissed isOpen (n + 1) line
      have hwait : waitOn isOpen (n + 1) (c :: line) = waitOn isOpen (n + 1) line := by
        rw [waitOn, if_neg hc]
      rw [hwait]
      refine ⟨c :: gone, by rw [List.cons_append, ← hsplit], by simp [hc, hserved], ?_, ?_⟩
      · intro hcount d hd
        rw [List.filter_cons_of_neg hc] at hcount
        rw [List.getLast?_cons] at hd
        obtain rfl := Option.some.inj hd
        cases hgone : gone.getLast? with
        | some d => simpa using hlast hcount d hgone
        | none =>
          -- Somebody is served, and that is not this worker.
          rw [List.getLast?_eq_none_iff] at hgone
          rw [hgone, List.filter_nil] at hserved
          have hlength := congrArg List.length hserved
          rw [List.length_nil, List.length_take] at hlength
          omega
      · intro hcount
        rw [List.filter_cons_of_neg hc] at hcount
        exact hall hcount

namespace Scheduler

/-- The tasks of a list that belong to a lane. -/
def inLane (s : Scheduler) (lane : Lane) (ids : List TaskId) : List TaskId :=
  ids.filter fun id => s.tasks[id]?.any (·.lane = lane)

/-- The workers of a lane that have not left. -/
def openIn (s : Scheduler) (lane : Lane) : List ConnectionId :=
  (s.pool.line lane).filter s.polls.isOpen

/-- The tasks of a list that workers of a lane are there for, each with its worker. -/
def allotment (s : Scheduler) (ids : List TaskId) (lane : Lane) : List (TaskId × ConnectionId) :=
  (s.inLane lane ids).zip (s.openIn lane)

/-- Each worker waits in one place. -/
structure Apart (s : Scheduler) : Prop where
  once : ∀ lane, (s.pool.line lane).Nodup
  oneLane : ∀ {c : ConnectionId} {lane other : Lane}, c ∈ s.pool.line lane →
    c ∈ s.pool.line other → other = lane

/-- Tasks that stand nowhere: they are queued, and in no worker's hands. -/
structure Free (s : Scheduler) (ids : List TaskId) : Prop where
  nodup : ids.Nodup
  task : ∀ id ∈ ids, ∃ t, s.tasks[id]? = some t ∧ t.id = id ∧ t.state = .queued ∧ id ∉ s.inFlight

/-- Of some tasks each has gone to its worker, as far as there are workers; these are left. -/
structure Allotted (now : Moment) (s : Scheduler) (ids left : List TaskId) (s' : Scheduler) :
    Prop where
  rest : s' = { s with
    tasks := s'.tasks
    inFlight := s'.inFlight
    pool := s'.pool
    polls := { s.polls with sides := s'.polls.sides } }
  sublist : left.Sublist ids
  left : ∀ lane, s.inLane lane left = (s.inLane lane ids).drop (s.openIn lane).length
  /-- A worker that is there for a task holds it, and the task is in flight under a new lease. -/
  given : ∀ lane id c, (id, c) ∈ s.allotment ids lane → ∃ t, s.tasks[id]? = some t ∧
    s'.tasks[id]? = some t.dispatch ∧ s'.inFlight[id]? = some (s.leaseEnd? now t) ∧
    s'.polls.sides[c]? = some (.holding [t.dispatch])
  task : ∀ id, (∀ lane c, (id, c) ∉ s.allotment ids lane) →
    s'.tasks[id]? = s.tasks[id]? ∧ s'.inFlight[id]? = s.inFlight[id]?
  side : ∀ c, (∀ lane id, (id, c) ∉ s.allotment ids lane) →
    s'.polls.sides[c]? = s.polls.sides[c]?
  pool : ∀ lane, s'.pool.line lane =
    waitOn s.polls.isOpen (s.inLane lane ids).length (s.pool.line lane)

variable {now : Moment} {s s' : Scheduler} {ids left : List TaskId} {lane : Lane} {t : Task}
  {id : TaskId} {c : ConnectionId} {dead rest : List ConnectionId} {k : Nat}

theorem inLane_cons (ht : s.tasks[id]? = some t) (lane : Lane) (ids : List TaskId) :
    s.inLane lane (id :: ids) = if t.lane = lane then id :: s.inLane lane ids
      else s.inLane lane ids := by
  simp [inLane, List.filter_cons, ht]

theorem mem_of_getElem?_inLane (h : (s.inLane lane ids)[k]? = some id) : id ∈ ids :=
  (List.mem_filter.mp (List.mem_of_getElem? h)).1

theorem mem_of_mem_allotment (h : (id, c) ∈ s.allotment ids lane) :
    id ∈ ids ∧ c ∈ s.pool.line lane :=
  ⟨(List.mem_filter.mp (List.of_mem_zip h).1).1, (List.mem_filter.mp (List.of_mem_zip h).2).1⟩

/-- Who stands nowhere else after some have gone stood nowhere else before. -/
theorem Apart.sublist (h : Apart s)
    (hsub : ∀ lane, (s'.pool.line lane).Sublist (s.pool.line lane)) : Apart s' where
  once lane := (h.once lane).sublist (hsub lane)
  oneLane hc hother := h.oneLane ((hsub _).subset hc) ((hsub _).subset hother)

/-! ### A task is given to a worker -/

theorem line_handTo (now : Moment) (t : Task) (c : ConnectionId) (rest : List ConnectionId)
    (lane : Lane) : (s.handTo now t c rest).pool.line lane =
      if t.lane = lane then rest else s.pool.line lane :=
  Lanes.line_setLine ..

theorem isOpen_handTo (now : Moment) (t : Task) (c : ConnectionId) (rest : List ConnectionId)
    (d : ConnectionId) : (s.handTo now t c rest).polls.isOpen d =
      if c = d then false else s.polls.isOpen d := by
  by_cases h : c = d <;> simp [handTo, Switchboard.isOpen, Std.ExtTreeMap.getElem?_insert, h]

theorem inLane_handTo (now : Moment) (ht : s.tasks[t.id]? = some t) (c : ConnectionId)
    (rest : List ConnectionId) (lane : Lane) (ids : List TaskId) :
    (s.handTo now t c rest).inLane lane ids = s.inLane lane ids := by
  refine List.filter_congr fun id _ => ?_
  simp only [handTo, setWorkers, deliver, Std.ExtTreeMap.getElem?_insert,
    Std.LawfulEqOrd.compare_eq_iff_eq]
  split
  · next h =>
    rw [← h, ht]
    rfl
  · rfl

/-- Nothing happens to the other tasks. -/
theorem getElem?_handTo_of_ne (now : Moment) (c : ConnectionId) (rest : List ConnectionId)
    (hne : t.id ≠ id) : (s.handTo now t c rest).tasks[id]? = s.tasks[id]? ∧
      (s.handTo now t c rest).inFlight[id]? = s.inFlight[id]? := by
  simp [handTo, setWorkers, deliver, Std.ExtTreeMap.getElem?_insert, hne]

section

variable (hapart : Apart s) (hline : s.pool.line t.lane = dead ++ c :: rest)

include hapart hline

/-- The worker that is served waits nowhere any more. -/
theorem Apart.ne_of_mem_handTo {d : ConnectionId}
    (hd : d ∈ (s.handTo now t c rest).pool.line lane) : c ≠ d := by
  rintro rfl
  have hc : c ∈ s.pool.line t.lane := by simp [hline]
  rw [line_handTo] at hd
  split at hd
  · have hnodup := hapart.once t.lane
    rw [hline] at hnodup
    exact (List.nodup_cons.mp (List.nodup_append.mp hnodup).2.1).1 hd
  · next hlane => exact hlane (hapart.oneLane hd hc)

theorem Apart.handTo (now : Moment) : Apart (s.handTo now t c rest) := by
  refine hapart.sublist fun lane => ?_
  rw [line_handTo]
  split
  · next hlane =>
    rw [← hlane, hline]
    exact (List.sublist_cons_self ..).trans (List.sublist_append_right ..)
  · exact List.Sublist.refl _

theorem Apart.openIn_handTo (now : Moment) (hdead : ∀ d ∈ dead, s.polls.isOpen d = false)
    (hopen : s.polls.isOpen c = true) (lane : Lane) :
    s.openIn lane = if t.lane = lane then c :: (s.handTo now t c rest).openIn lane
      else (s.handTo now t c rest).openIn lane := by
  have hrest : (s.handTo now t c rest).openIn lane =
      ((s.handTo now t c rest).pool.line lane).filter s.polls.isOpen := by
    refine List.filter_congr fun d hd => ?_
    rw [isOpen_handTo, if_neg (hapart.ne_of_mem_handTo hline hd)]
  rw [hrest, line_handTo]
  split
  · next hlane =>
    have hnone : dead.filter s.polls.isOpen = [] :=
      List.filter_eq_nil_iff.mpr fun d hd => by simp [hdead d hd]
    rw [openIn, ← hlane, hline, List.filter_append, hnone, List.nil_append,
      List.filter_cons_of_pos hopen]
  · rfl

/-- The task and the worker come together, and all others as they do afterwards. -/
theorem Apart.allotment_handTo (now : Moment) (hdead : ∀ d ∈ dead, s.polls.isOpen d = false)
    (hopen : s.polls.isOpen c = true) (ht : s.tasks[t.id]? = some t) (ids : List TaskId)
    (lane : Lane) : s.allotment (t.id :: ids) lane =
      if t.lane = lane then (t.id, c) :: (s.handTo now t c rest).allotment ids lane
      else (s.handTo now t c rest).allotment ids lane := by
  rw [allotment, allotment, hapart.openIn_handTo hline now hdead hopen, inLane_handTo now ht,
    inLane_cons ht]
  split <;> rfl

/-- Afterwards nothing more happens to this task and to this worker. -/
theorem Apart.ne_of_mem_allotment_handTo (hid : t.id ∉ ids) {d : ConnectionId}
    (hmem : (id, d) ∈ (s.handTo now t c rest).allotment ids lane) : t.id ≠ id ∧ c ≠ d := by
  obtain ⟨hids, hd⟩ := mem_of_mem_allotment hmem
  exact ⟨fun heq => hid (heq ▸ hids), hapart.ne_of_mem_handTo hline hd⟩

end

namespace Allotted

theorem nil (now : Moment) (s : Scheduler) : Allotted now s [] [] s where
  rest := rfl
  sublist := List.Sublist.refl _
  left lane := by simp [inLane]
  given lane id c h := by simp [allotment, inLane] at h
  task id _ := ⟨rfl, rfl⟩
  side c _ := rfl
  pool lane := by simp [inLane]

/-- A task that no worker is there for is left, and the workers of its lane, who have all left, are
dropped. -/
theorem pass (ht : s.tasks[id]? = some t) (hclosed : ∀ c ∈ s.pool.line t.lane,
    s.polls.isOpen c = false) (h : Allotted now (s.setWorkers t.lane []) ids left s') :
    Allotted now s (id :: ids) (id :: left) s' := by
  have hopen : ∀ lane, (s.setWorkers t.lane []).openIn lane = s.openIn lane := by
    intro lane
    simp only [openIn, setWorkers, Lanes.line_setLine]
    split
    · next hlane =>
      rw [List.filter_nil, List.filter_eq_nil_iff.mpr]
      intro c hc
      simp [hclosed c (hlane ▸ hc)]
    · rfl
  have hnone : s.openIn t.lane = [] := by
    rw [← hopen]
    simp [openIn, setWorkers]
  have hallot : ∀ lane,
      s.allotment (id :: ids) lane = (s.setWorkers t.lane []).allotment ids lane := by
    intro lane
    rw [allotment, allotment, hopen, inLane_cons ht]
    split
    · next hlane => simp [← hlane, hnone]
    · rfl
  refine ⟨h.rest, h.sublist.cons_cons _, ?left, ?given, ?task, ?side, ?pool⟩
  case left =>
    intro lane
    have hleft : s.inLane lane left = (s.inLane lane ids).drop (s.openIn lane).length :=
      hopen lane ▸ h.left lane
    rw [inLane_cons ht, inLane_cons ht]
    split
    · next hlane =>
      rw [← hlane, hnone] at hleft ⊢
      simp [hleft]
    · exact hleft
  case given =>
    intro lane id c hmem
    exact h.given lane id c (hallot lane ▸ hmem)
  case task =>
    intro id hnot
    exact h.task id fun lane c => hallot lane ▸ hnot lane c
  case side =>
    intro c hnot
    exact h.side c fun lane id => hallot lane ▸ hnot lane id
  case pool =>
    intro lane
    have hpool := h.pool lane
    simp only [setWorkers, Lanes.line_setLine] at hpool
    rw [hpool, inLane_cons ht]
    split
    · next hlane =>
      have hall : ∀ c ∈ s.pool.line lane, s.polls.isOpen c = false := hlane ▸ hclosed
      rw [waitOn_nil, List.length_cons, ← List.append_nil (s.pool.line lane),
        waitOn_append_of_closed _ hall, waitOn_nil]
    · rfl

section

variable (hapart : Apart s) (hline : s.pool.line t.lane = dead ++ c :: rest) (hid : t.id ∉ ids)
  (h : Allotted now (s.handTo now t c rest) ids left s')

include hapart hline hid h

/-- The task that was given first stays with its worker. -/
theorem given_first : s'.tasks[t.id]? = some t.dispatch ∧
    s'.inFlight[t.id]? = some (s.leaseEnd? now t) ∧
    s'.polls.sides[c]? = some (.holding [t.dispatch]) := by
  obtain ⟨htask, hflight⟩ := h.task t.id fun lane d hin =>
    (hapart.ne_of_mem_allotment_handTo hline hid hin).1 rfl
  have hside := h.side c fun lane id hin =>
    (hapart.ne_of_mem_allotment_handTo hline hid hin).2 rfl
  rw [htask, hflight, hside]
  simp [handTo, setWorkers, deliver]

/-- The others are given as they were when they stood nowhere. -/
theorem given_others {d : ConnectionId}
    (hmem : (id, d) ∈ (s.handTo now t c rest).allotment ids lane) :
    ∃ u, s.tasks[id]? = some u ∧ s'.tasks[id]? = some u.dispatch ∧
      s'.inFlight[id]? = some (s.leaseEnd? now u) ∧
      s'.polls.sides[d]? = some (.holding [u.dispatch]) := by
  obtain ⟨u, hu, hgiven⟩ := h.given lane id d hmem
  have hne := (hapart.ne_of_mem_allotment_handTo hline hid hmem).1
  exact ⟨u, (getElem?_handTo_of_ne now c rest hne).1 ▸ hu, hgiven⟩

end

/-- The workers that wait on are those that do so after one who is served first. -/
theorem pool_cons (ht : s.tasks[t.id]? = some t) (hapart : Apart s)
    (hline : s.pool.line t.lane = dead ++ c :: rest) (hdead : ∀ d ∈ dead, s.polls.isOpen d = false)
    (hopen : s.polls.isOpen c = true) (h : Allotted now (s.handTo now t c rest) ids left s')
    (lane : Lane) : s'.pool.line lane =
      waitOn s.polls.isOpen (s.inLane lane (t.id :: ids)).length (s.pool.line lane) := by
  have hsame : waitOn (s.handTo now t c rest).polls.isOpen (s.inLane lane ids).length
      ((s.handTo now t c rest).pool.line lane) =
      waitOn s.polls.isOpen (s.inLane lane ids).length ((s.handTo now t c rest).pool.line lane) :=
    waitOn_congr fun d hd => by rw [isOpen_handTo, if_neg (hapart.ne_of_mem_handTo hline hd)]
  rw [h.pool lane, inLane_handTo now ht, hsame, line_handTo, inLane_cons ht]
  split
  · next hlane =>
    rw [← hlane, hline, List.length_cons, waitOn_append_of_closed _ hdead,
      waitOn_cons_of_open _ _ hopen]
  · rfl

/-- The first worker that has not left is there for a task. -/
theorem give (ht : s.tasks[t.id]? = some t) (hid : t.id ∉ ids) (hapart : Apart s)
    (hline : s.pool.line t.lane = dead ++ c :: rest) (hdead : ∀ d ∈ dead, s.polls.isOpen d = false)
    (hopen : s.polls.isOpen c = true) (h : Allotted now (s.handTo now t c rest) ids left s') :
    Allotted now s (t.id :: ids) left s' := by
  have hallot := hapart.allotment_handTo hline now hdead hopen ht ids
  have hmine : (t.id, c) ∈ s.allotment (t.id :: ids) t.lane := by
    rw [hallot, if_pos rfl]
    exact List.mem_cons_self ..
  have hsub : ∀ {lane id d}, (id, d) ∈ (s.handTo now t c rest).allotment ids lane →
      (id, d) ∈ s.allotment (t.id :: ids) lane := by
    intro lane id d hmem
    rw [hallot]
    split
    · exact List.mem_cons_of_mem _ hmem
    · exact hmem
  refine ⟨h.rest, h.sublist.cons _, ?left, ?given, ?task, ?side,
    h.pool_cons ht hapart hline hdead hopen⟩
  case left =>
    intro lane
    have hleft := h.left lane
    rw [inLane_handTo now ht, inLane_handTo now ht] at hleft
    rw [hleft, inLane_cons ht, hapart.openIn_handTo hline now hdead hopen]
    split <;> simp
  case given =>
    intro lane id d hmem
    rw [hallot] at hmem
    split at hmem
    · rcases List.mem_cons.mp hmem with heq | hmem
      · cases heq
        exact ⟨t, ht, given_first hapart hline hid h⟩
      · exact given_others hapart hline hid h hmem
    · exact given_others hapart hline hid h hmem
  case task =>
    intro id hnot
    have hne : t.id ≠ id := fun heq => hnot t.lane c (heq ▸ hmine)
    obtain ⟨htask, hflight⟩ := h.task id fun lane d hin => hnot lane d (hsub hin)
    obtain ⟨htask', hflight'⟩ := getElem?_handTo_of_ne (s := s) now c rest hne
    exact ⟨htask.trans htask', hflight.trans hflight'⟩
  case side =>
    intro d hnot
    have hne : c ≠ d := fun heq => hnot t.lane t.id (heq ▸ hmine)
    rw [h.side d fun lane id hin => hnot lane id (hsub hin)]
    simp [handTo, Std.ExtTreeMap.getElem?_insert, hne]

end Allotted

/-- A worker is there for a task when both have the same place among those of their lane. -/
theorem mem_allotment_iff : (id, c) ∈ s.allotment ids lane ↔
    ∃ k : Nat, (s.inLane lane ids)[k]? = some id ∧ (s.openIn lane)[k]? = some c := by
  rw [allotment, List.mem_iff_getElem?]
  exact exists_congr fun k => List.getElem?_zip_eq_some

theorem lane_of_mem_inLane (h : id ∈ s.inLane lane ids) (ht : s.tasks[id]? = some t) :
    t.lane = lane := by
  have hlane := (List.mem_filter.mp h).2
  simpa [ht] using hlane

/-- No worker is there for a task that has too many others of its lane before it. -/
theorem notMem_allotment (hnodup : ids.Nodup) (ht : s.tasks[id]? = some t)
    (hk : (s.inLane lane ids)[k]? = some id) (hlength : (s.openIn lane).length ≤ k) (other : Lane)
    (c : ConnectionId) : (id, c) ∉ s.allotment ids other := by
  intro hmem
  obtain ⟨i, hi, hc⟩ := mem_allotment_iff.mp hmem
  have hlane := lane_of_mem_inLane (List.mem_of_getElem? hk) ht
  have hother := lane_of_mem_inLane (List.mem_of_getElem? hi) ht
  obtain rfl : lane = other := hlane.symm.trans hother
  have hik : i = k := (List.getElem?_inj (List.getElem?_eq_some_iff.mp hi).1
    (hnodup.filter _)).mp (hi.trans hk.symm)
  have hlt := (List.getElem?_eq_some_iff.mp hc).1
  omega

namespace Allotted

theorem limits (h : Allotted now s ids left s') : s'.limits = s.limits := by rw [h.rest]

theorem nextId (h : Allotted now s ids left s') : s'.nextId = s.nextId := by rw [h.rest]

theorem jobs (h : Allotted now s ids left s') : s'.jobs = s.jobs := by rw [h.rest]

theorem queues (h : Allotted now s ids left s') : s'.queues = s.queues := by rw [h.rest]

/-- The task and the worker of one place come together. -/
theorem given_of_place (h : Allotted now s ids left s') (hid : (s.inLane lane ids)[k]? = some id)
    (hc : (s.openIn lane)[k]? = some c) : ∃ t, s.tasks[id]? = some t ∧
      s'.tasks[id]? = some t.dispatch ∧ s'.inFlight[id]? = some (s.leaseEnd? now t) ∧
      s'.polls.sides[c]? = some (.holding [t.dispatch]) :=
  h.given lane id c (mem_allotment_iff.mpr ⟨k, hid, hc⟩)

/-- Nothing happens to a task in whose place there is no worker. -/
theorem task_of_place (h : Allotted now s ids left s') (hnodup : ids.Nodup)
    (ht : s.tasks[id]? = some t) (hid : (s.inLane lane ids)[k]? = some id)
    (hlength : (s.openIn lane).length ≤ k) :
    s'.tasks[id]? = some t ∧ s'.inFlight[id]? = s.inFlight[id]? :=
  ht ▸ h.task id (notMem_allotment hnodup ht hid hlength)

theorem task_of_notMem (h : Allotted now s ids left s') (hid : id ∉ ids) :
    s'.tasks[id]? = s.tasks[id]? ∧ s'.inFlight[id]? = s.inFlight[id]? :=
  h.task id fun _ _ hmem => hid (mem_of_mem_allotment hmem).1

/-- Nothing comes to a worker in whose place there is no task. -/
theorem side_of_place (h : Allotted now s ids left s') (hc : ∀ lane (k : Nat),
    (s.openIn lane)[k]? = some c → (s.inLane lane ids).length ≤ k) :
    s'.polls.sides[c]? = s.polls.sides[c]? := by
  refine h.side c fun lane id hmem => ?_
  obtain ⟨k, hid, hk⟩ := mem_allotment_iff.mp hmem
  exact Nat.not_lt.mpr (hc lane k hk) (List.getElem?_eq_some_iff.mp hid).1

theorem dismissed (h : Allotted now s ids left s') (lane : Lane) : ∃ gone,
    Dismissed s.polls.isOpen (s.inLane lane ids).length (s.pool.line lane) gone
      (s'.pool.line lane) :=
  h.pool lane ▸ exists_dismissed ..

/-- Tasks belong to the lanes that they belonged to. -/
theorem inLane_eq (h : Allotted now s ids left s') (lane : Lane) (xs : List TaskId) :
    s'.inLane lane xs = s.inLane lane xs := by
  refine List.filter_congr fun id _ => ?_
  by_cases hid : ∃ lane c, (id, c) ∈ s.allotment ids lane
  · obtain ⟨other, c, hmem⟩ := hid
    obtain ⟨t, ht, ht', -⟩ := h.given other id c hmem
    rw [ht, ht']
    rfl
  · rw [(h.task id fun other c hmem => hid ⟨other, c, hmem⟩).1]

end Allotted

/-! ### The dispatcher's loop -/

theorem Free.tail (h : Free s (id :: ids)) : Free s ids where
  nodup := (List.nodup_cons.mp h.nodup).2
  task x hx := h.task x (List.mem_cons_of_mem _ hx)

theorem Free.setWorkers (h : Free s ids) (lane : Lane) (workers : List ConnectionId) :
    Free (s.setWorkers lane workers) ids := ⟨h.nodup, h.task⟩

theorem Free.handTo (h : Free s ids) (hid : t.id ∉ ids) (now : Moment) (c : ConnectionId)
    (rest : List ConnectionId) : Free (s.handTo now t c rest) ids where
  nodup := h.nodup
  task x hx := by
    have hne : t.id ≠ x := fun heq => hid (heq ▸ hx)
    simpa [Scheduler.handTo, Scheduler.setWorkers, deliver, Std.ExtTreeMap.getElem?_insert,
      Std.ExtTreeMap.mem_insert, hne] using h.task x hx

/-- Tasks that stand nowhere go to the workers of their lanes, as far as there are workers. -/
theorem allotted_dispatchEach (now : Moment) : ∀ {ids : List TaskId} {s : Scheduler}
    (taken : List TaskId), Free s ids → Apart s →
    ∃ left s', dispatchEach now ids taken s = (taken.reverse ++ left, s') ∧
      Allotted now s ids left s'
  | [], s, taken, _, _ => ⟨[], s, by simp [dispatchEach], .nil now s⟩
  | id :: ids, s, taken, hfree, hapart => by
    obtain ⟨t, ht, rfl, hq, hf⟩ := hfree.task id (List.mem_cons_self ..)
    have hid : t.id ∉ ids := (List.nodup_cons.mp hfree.nodup).1
    rcases dispatchToWaiting_cases now ht hq hf with
      ⟨hclosed, -, hresult⟩ | ⟨dead, c, rest, hline, hdead, hopen, -, hresult⟩
    · have hapart' : Apart (s.setWorkers t.lane []) := hapart.sublist fun lane => by
        simp only [setWorkers, Lanes.line_setLine]
        split
        · exact List.nil_sublist _
        · exact List.Sublist.refl _
      obtain ⟨left, s', heach, hallot⟩ :=
        allotted_dispatchEach now (t.id :: taken) (hfree.tail.setWorkers t.lane []) hapart'
      exact ⟨t.id :: left, s', by simp [dispatchEach, hresult, heach], hallot.pass ht hclosed⟩
    · obtain ⟨left, s', heach, hallot⟩ := allotted_dispatchEach now taken
        (hfree.tail.handTo hid now c rest) (hapart.handTo hline now)
      exact ⟨left, s', by simp [dispatchEach, hresult, heach],
        hallot.give ht hid hapart hline hdead hopen⟩

/-! ### Every run -/

/-- When no two polls are on the same connection, each worker waits in one place. -/
theorem apart_run (limits : Limits) (steps : List (Moment × Operation))
    (hpolled : (steps.filterMap (·.2.polledOn?)).Nodup) : Apart ((new limits).run steps) := by
  rw [← polledOn_trace steps (new limits)] at hpolled
  constructor
  · intro lane
    refine (nodup_filterMap hpolled fun {e c} hparks => ?_).sublist
      (pool_sublist_run limits steps lane)
    exact polledOn?_of_poll (Event.parksIn?_eq_some_iff.mp hparks).1
  · intro c lane other hc hother
    obtain ⟨x, hx, hop, -⟩ := parked_run limits steps hc
    obtain ⟨y, hy, hop', -⟩ := parked_run limits steps hother
    rw [← eq_of_polls hpolled hx hy hop hop', hop] at hop'
    cases hop'
    rfl

end Scheduler

end TaskExchange
