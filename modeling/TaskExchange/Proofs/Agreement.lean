import TaskExchange.Proofs.Result
import TaskExchange.Proofs.Session

/-!
Agreement: two schedulers that agree on the tasks, the lines and the waiting sides of one kind of
work do the same when they are asked the same of this kind, and agree on them afterwards.  There is
one lemma for each function of the scheduler, and its proof follows the function.  Main statements:
those of the last section, one for each operation.
-/

namespace TaskExchange

/-- Two tables have the same under those keys that count. -/
def SameOn {κ β : Type} [Ord κ] [Std.TransOrd κ] (own : κ → Prop) (m m' : Std.ExtTreeMap κ β) :
    Prop :=
  ∀ x, own x → m'[x]? = m[x]?

/-- The lines of a kind are the same, and only those that count stand there. -/
structure SameLines {α : Type} (k : Kind) (own : α → Prop) (m m' : Lanes α) : Prop where
  line : ∀ {lane : Lane}, lane.kind = k → m'.line lane = m.line lane
  own : ∀ {lane : Lane}, lane.kind = k → ∀ x ∈ m.line lane, own x

namespace Scheduler

/-- The kind of work that an operation is about, if it is about one. -/
def Operation.kind? : Operation → Option Kind
  | .enqueueBatch _ | .acknowledge _ | .reportLost _ | .requeueExpired _ | .deleteJob _ =>
    some .regional
  | .submit .. | .withdraw _ | .complete .. | .releaseRequest .. => some .priority
  | .poll lane _ | .releasePoll lane _ | .abandonPoll lane _ => some lane.kind
  | _ => none

/-- Two schedulers agree on a kind of work: on the tasks that are its own, and on the waiting sides
that are used by it. -/
structure Agree (k : Kind) (own : TaskId → Prop) (mine : Side → Prop) (s s' : Scheduler) :
    Prop where
  limits : s'.limits = s.limits
  nextId : s'.nextId = s.nextId
  fresh : ∀ {id : TaskId}, s.nextId ≤ id → own id
  tasks : SameOn own s.tasks s'.tasks
  kind : ∀ {id : TaskId} {t : Task}, own id → s.tasks[id]? = some t → t.kind = k
  inFlight : SameOn own s.inFlight s'.inFlight
  queues : SameLines k own s.queues s'.queues
  pool : SameLines k (fun c => mine (.poll c)) s.pool s'.pool
  polls : SameOn (fun c => mine (.poll c)) s.polls.sides s'.polls.sides
  requesters : SameOn (fun c => mine (.request c)) s.requesters.sides s'.requesters.sides
  jobs : k = .regional → s'.jobs = s.jobs
  producers : k = .priority → s'.producers = s.producers
  awaited : k = .priority → ∀ {id : TaskId} {c : ConnectionId}, s.producers[id]? = some c →
    mine (.request c)

/-- All tasks of a kind are among those that count. -/
def Owned (k : Kind) (own : TaskId → Prop) (s : Scheduler) : Prop :=
  ∀ {id : TaskId} {t : Task}, s.tasks[id]? = some t → t.kind = k → own id

/-- Two results are the same, and the schedulers agree that come with them. -/
structure SameResult {α : Type} (k : Kind) (own : TaskId → Prop) (mine : Side → Prop)
    (x x' : α × Scheduler) : Prop where
  result : x'.1 = x.1
  agree : Agree k own mine x.2 x'.2

end Scheduler

theorem rel_cases {α β : Type} {r : α → β → Prop} {x : Option α} {y : Option β}
    (h : Option.Rel r x y) : (x = none ∧ y = none) ∨ ∃ a b, x = some a ∧ y = some b ∧ r a b := by
  cases h with
  | none => exact Or.inl ⟨rfl, rfl⟩
  | some h => exact Or.inr ⟨_, _, rfl, rfl, h⟩

/-! ### Tables, lines and sides -/

namespace SameOn

variable {κ β : Type} [Ord κ] [Std.TransOrd κ] {own : κ → Prop} {m m' : Std.ExtTreeMap κ β}

theorem insert (h : SameOn own m m') (x : κ) (v : β) : SameOn own (m.insert x v) (m'.insert x v) :=
  fun y hy => by simp only [Std.ExtTreeMap.getElem?_insert, h y hy]

theorem erase (h : SameOn own m m') (x : κ) : SameOn own (m.erase x) (m'.erase x) :=
  fun y hy => by simp only [Std.ExtTreeMap.getElem?_erase, h y hy]

theorem modify [Std.LawfulEqOrd κ] (h : SameOn own m m') (x : κ) (f : β → β) :
    SameOn own (m.modify x f) (m'.modify x f) := by
  intro y hy
  rw [Std.ExtTreeMap.getElem?_modify, Std.ExtTreeMap.getElem?_modify, h y hy]
  split
  · next heq =>
    obtain rfl := Std.LawfulEqOrd.compare_eq_iff_eq.mp heq
    rw [h x hy]
  · rfl

theorem foldl_erase (xs : List κ) : ∀ {m m' : Std.ExtTreeMap κ β}, SameOn own m m' →
    SameOn own (xs.foldl (fun m x => m.erase x) m) (xs.foldl (fun m x => m.erase x) m') := by
  induction xs with
  | nil => exact id
  | cons x xs ih => exact fun h => ih (h.erase x)

theorem mem_iff (h : SameOn own m m') {x : κ} (hx : own x) : x ∈ m' ↔ x ∈ m := by
  rw [Std.ExtTreeMap.mem_iff_isSome_getElem?, Std.ExtTreeMap.mem_iff_isSome_getElem?, h x hx]

end SameOn

namespace SameLines

variable {α : Type} {k : Kind} {own : α → Prop} {m m' : Lanes α} {lane : Lane}

theorem setLine (h : SameLines k own m m') (lane : Lane) {xs : List α} (hxs : ∀ x ∈ xs, own x) :
    SameLines k own (m.setLine lane xs) (m'.setLine lane xs) where
  line {other} hother := by rw [Lanes.line_setLine, Lanes.line_setLine, h.line hother]
  own {other} hother := by
    rw [Lanes.line_setLine]
    split
    · exact hxs
    · exact h.own hother

theorem append (h : SameLines k own m m') (hlane : lane.kind = k) {xs : List α}
    (hxs : ∀ x ∈ xs, own x) : SameLines k own (m.append lane xs) (m'.append lane xs) := by
  rw [Lanes.append, Lanes.append, h.line hlane]
  exact h.setLine lane fun x hx => (List.mem_append.mp hx).elim (h.own hlane x) (hxs x)

theorem pushFront (h : SameLines k own m m') (hlane : lane.kind = k) {x : α} (hx : own x) :
    SameLines k own (m.pushFront lane x) (m'.pushFront lane x) := by
  rw [Lanes.pushFront, Lanes.pushFront, h.line hlane]
  refine h.setLine lane fun y hy => ?_
  rcases List.mem_cons.mp hy with rfl | hy
  · exact hx
  · exact h.own hlane y hy

theorem keep (h : SameLines k own m m') (hlane : lane.kind = k) {p p' : α → Bool}
    (hp : ∀ x, own x → p' x = p x) : SameLines k own (m.keep lane p) (m'.keep lane p') := by
  have hfilter : (m.line lane).filter p' = (m.line lane).filter p :=
    List.filter_congr fun x hx => hp x (h.own hlane x hx)
  rw [Lanes.keep, Lanes.keep, h.line hlane, hfilter]
  exact h.setLine lane fun x hx => h.own hlane x (List.mem_of_mem_filter hx)

end SameLines

namespace Switchboard

variable {α : Type} {own : ConnectionId → Prop} {b b' : Switchboard α} {c : ConnectionId}

theorem rel_send? (h : SameOn own b.sides b'.sides) (hc : own c) (value : α) :
    Option.Rel (fun d d' => SameOn own d.sides d'.sides) (b.send? c value) (b'.send? c value) := by
  rw [send?, send?, isOpen_congr (h c hc)]
  split
  · exact .some (h.insert c _)
  · exact .none

theorem same_take (h : SameOn own b.sides b'.sides) (hc : own c) :
    (b'.take c).1 = (b.take c).1 ∧ SameOn own (b.take c).2.sides (b'.take c).2.sides := by
  refine ⟨by rw [take_fst, take_fst, held?_congr (h c hc)], fun d hd => ?_⟩
  rw [getElem?_take, getElem?_take, held?_congr (h c hc), h d hd]

end Switchboard

namespace Scheduler

variable {k : Kind} {own : TaskId → Prop} {mine : Side → Prop} {s s' : Scheduler} {id : TaskId}
  {lane : Lane} {c : ConnectionId} {now : Moment}

theorem SameResult.exists_eq {α : Type} {x x' : α × Scheduler} (h : SameResult k own mine x x') :
    ∃ a r r', x = (a, r) ∧ x' = (a, r') ∧ Agree k own mine r r' :=
  ⟨x.1, x.2, x'.2, rfl, Prod.ext h.result rfl, h.agree⟩

theorem SameResult.map {α β : Type} {x x' : α × Scheduler} (h : SameResult k own mine x x')
    (f : α → β) : SameResult k own mine (f x.1, x.2) (f x'.1, x'.2) :=
  ⟨congrArg f h.result, h.agree⟩

/-- What may come of an operation comes of it for both, or for neither. -/
theorem SameResult.of_rel {x x' : Option Scheduler} (h : Option.Rel (Agree k own mine) x x')
    (hs : Agree k own mine s s') :
    SameResult k own mine (Outcome.found x.isSome, x.getD s) (.found x'.isSome, x'.getD s') := by
  cases h with
  | none => exact ⟨rfl, hs⟩
  | some h => exact ⟨rfl, h⟩

theorem acknowledge?_of_regional {t : Task} (ht : s.tasks[id]? = some t)
    (hkind : t.kind = .regional) :
    s.acknowledge? id = some ((s.forget t).countCompleted t) := by
  simp [acknowledge?, ht, Task.isRegional, hkind]

theorem acknowledge?_of_ne (h : ∀ t, s.tasks[id]? = some t → t.kind ≠ .regional) :
    s.acknowledge? id = none := by
  cases ht : s.tasks[id]? with
  | none => simp [acknowledge?, ht]
  | some t => simp [acknowledge?, ht, Task.isRegional, h t ht]

theorem awaitsAcknowledgment_of_ne (h : ∀ t, s.tasks[id]? = some t → t.kind ≠ .regional) :
    s.awaitsAcknowledgment id = false := by
  cases ht : s.tasks[id]? with
  | none => simp [awaitsAcknowledgment, ht]
  | some t => simp [awaitsAcknowledgment, ht, Task.isRegional, h t ht]

theorem expired_eq (s : Scheduler) (t : Instant) :
    s.expired t = (s.inFlight.filter fun _ lease => lease.any (· ≤ t)).toList.map (·.1) := by
  rw [Std.ExtTreeMap.toList_filter]
  rfl

/-- Nothing but a regional task has a lease that can end. -/
theorem Sound.filter_inFlight (hs : Sound s ∅) {t : Instant}
    (h : ∀ task, s.tasks[id]? = some task → task.kind ≠ .regional) :
    s.inFlight[id]?.filter (fun lease => lease.any (· ≤ t)) = none := by
  refine Option.filter_eq_none_iff.mpr fun lease hlease hends => ?_
  obtain ⟨l, hl, hle⟩ := (Option.any_eq_true ..).mp hends
  obtain ⟨task, ht, hkind⟩ :=
    hs.regional_of_expired (mem_expired.mpr ⟨l, hl ▸ hlease, of_decide_eq_true hle⟩)
  exact h task ht hkind

namespace Agree

/-! ### Deliveries -/

theorem leaseEnd? (h : Agree k own mine s s') (now : Moment) (t : Task) :
    s'.leaseEnd? now t = s.leaseEnd? now t := by
  rw [Scheduler.leaseEnd?, Scheduler.leaseEnd?, h.limits]

theorem startDelivery? (h : Agree k own mine s s') (now : Moment) (hid : own id) :
    Option.Rel (SameResult k own mine) (s.startDelivery? now id) (s'.startDelivery? now id) := by
  rw [Scheduler.startDelivery?, Scheduler.startDelivery?, h.tasks id hid]
  cases ht : s.tasks[id]? with
  | none => exact .none
  | some t =>
    have hkind : t.kind = k := h.kind hid ht
    refine .some ⟨rfl, ?_⟩
    simp only [h.leaseEnd?]
    refine { h with
      tasks := h.tasks.insert id _
      inFlight := h.inFlight.insert id _
      kind := fun {x u} hx hu => ?_ }
    rw [Std.ExtTreeMap.getElem?_insert] at hu
    split at hu
    · cases hu
      exact hkind
    · exact h.kind hx hu

theorem modify (h : Agree k own mine s s') (id : TaskId) {f : Task → Task}
    (hf : ∀ t, (f t).kind = t.kind) :
    Agree k own mine
      { s with tasks := s.tasks.modify id f, inFlight := s.inFlight.erase id }
      { s' with tasks := s'.tasks.modify id f, inFlight := s'.inFlight.erase id } := by
  refine { h with
    tasks := h.tasks.modify id f
    inFlight := h.inFlight.erase id
    kind := fun {x u} hx hu => ?_ }
  rw [Std.ExtTreeMap.getElem?_modify] at hu
  split at hu
  · next heq =>
    obtain rfl := Std.LawfulEqOrd.compare_eq_iff_eq.mp heq
    obtain ⟨t, ht, rfl⟩ := Option.map_eq_some_iff.mp hu
    exact (hf t).trans (h.kind hx ht)
  · exact h.kind hx hu

theorem undoDelivery (h : Agree k own mine s s') (id : TaskId) :
    Agree k own mine (s.undoDelivery id) (s'.undoDelivery id) := h.modify id fun _ => rfl

theorem tryWaiting (now : Moment) (hid : own id) : ∀ {line : List ConnectionId} {s s' : Scheduler},
    (∀ c ∈ line, mine (.poll c)) → Agree k own mine s s' →
    SameResult k own mine (tryWaiting now id lane line s) (tryWaiting now id lane line s')
  | [], _, _, _, h => ⟨rfl, h⟩
  | c :: rest, s, s', hline, h => by
    obtain ⟨hc, hrest⟩ := List.forall_mem_cons.mp hline
    have hset : Agree k own mine { s with pool := s.pool.setLine lane rest }
        { s' with pool := s'.pool.setLine lane rest } :=
      { h with pool := h.pool.setLine lane hrest }
    rw [Scheduler.tryWaiting, Scheduler.tryWaiting]
    rcases rel_cases (hset.startDelivery? now hid) with
      ⟨hnone, hnone'⟩ | ⟨⟨t, r⟩, ⟨t', r'⟩, hsome, hsome', heq, hr⟩
    · simp only [hnone, hnone']
      exact ⟨rfl, hset⟩
    · obtain rfl : t' = t := heq
      simp only [hsome, hsome']
      rcases rel_cases (Switchboard.rel_send? hr.polls hc [t']) with
        ⟨hclosed, hclosed'⟩ | ⟨polls, polls', hopen, hopen', hpolls⟩
      · simp only [hclosed, hclosed']
        exact tryWaiting now hid hrest (hr.undoDelivery id)
      · simp only [hopen, hopen']
        exact ⟨rfl, { hr with polls := hpolls }⟩

theorem dispatchToWaiting (h : Agree k own mine s s') (now : Moment) (hid : own id) :
    SameResult k own mine (s.dispatchToWaiting now id) (s'.dispatchToWaiting now id) := by
  rw [Scheduler.dispatchToWaiting, Scheduler.dispatchToWaiting, h.tasks id hid]
  cases ht : s.tasks[id]? with
  | none => exact ⟨rfl, h⟩
  | some t =>
    have hlane : t.lane.kind = k := h.kind hid ht
    simp only [h.pool.line hlane]
    exact tryWaiting now hid (h.pool.own hlane) h

theorem dispatchEach (now : Moment) : ∀ {ids left : List TaskId} {s s' : Scheduler},
    (∀ id ∈ ids, own id) → (∀ id ∈ left, own id) → Agree k own mine s s' →
    SameResult k own mine (dispatchEach now ids left s) (dispatchEach now ids left s') ∧
      ∀ id ∈ (Scheduler.dispatchEach now ids left s).1, own id
  | [], left, _, _, _, hleft, h => ⟨⟨rfl, h⟩, fun id hid => hleft id (List.mem_reverse.mp hid)⟩
  | id :: rest, left, s, s', hids, hleft, h => by
    obtain ⟨hid, hrest⟩ := List.forall_mem_cons.mp hids
    obtain ⟨given, r, r', heq, heq', hafter⟩ := (h.dispatchToWaiting now hid).exists_eq
    rw [Scheduler.dispatchEach, Scheduler.dispatchEach, heq, heq']
    cases given with
    | true => exact dispatchEach now hrest hleft hafter
    | false => exact dispatchEach now hrest (List.forall_mem_cons.mpr ⟨hid, hleft⟩) hafter

/-! ### Lines -/

theorem queueBack (h : Agree k own mine s s') (hid : own id) :
    Agree k own mine (s.queueBack id) (s'.queueBack id) := by
  rw [Scheduler.queueBack, Scheduler.queueBack, h.tasks id hid]
  cases ht : s.tasks[id]? with
  | none => exact h
  | some t =>
    have hlane : t.lane.kind = k := h.kind hid ht
    exact { h with queues := h.queues.append hlane (by simpa) }

theorem queueFront (h : Agree k own mine s s') (hid : own id) :
    Agree k own mine (s.queueFront id) (s'.queueFront id) := by
  rw [Scheduler.queueFront, Scheduler.queueFront, h.tasks id hid]
  cases ht : s.tasks[id]? with
  | none => exact h
  | some t =>
    have hlane : t.lane.kind = k := h.kind hid ht
    exact { h with queues := h.queues.pushFront hlane hid }

theorem queueFrontEach (h : Agree k own mine s s') : ∀ {ids : List TaskId}, (∀ id ∈ ids, own id) →
    Agree k own mine (queueFrontEach ids s) (queueFrontEach ids s')
  | [], _ => h
  | _ :: _, hids =>
    (h.queueFrontEach (List.forall_mem_cons.mp hids).2).queueFront (List.forall_mem_cons.mp hids).1

theorem offer (h : Agree k own mine s s') (now : Moment) (hid : own id) :
    Agree k own mine (s.offer now id) (s'.offer now id) := by
  obtain ⟨given, r, r', heq, heq', hafter⟩ := (h.dispatchToWaiting now hid).exists_eq
  rw [Scheduler.offer, Scheduler.offer, heq, heq']
  cases given with
  | true => exact hafter
  | false => exact hafter.queueBack hid

theorem takeFrom (now : Moment) : ∀ {limit : Nat} {line : List TaskId} {taken : List Task}
    {s s' : Scheduler}, (∀ id ∈ line, own id) → Agree k own mine s s' →
    SameResult k own mine (takeFrom now lane limit line taken s)
      (takeFrom now lane limit line taken s')
  | 0, _, _, _, _, _, h => by
    simp only [Scheduler.takeFrom]
    exact ⟨rfl, h⟩
  | _ + 1, [], _, _, _, _, h => ⟨rfl, h⟩
  | limit + 1, id :: rest, taken, s, s', hline, h => by
    obtain ⟨hid, hrest⟩ := List.forall_mem_cons.mp hline
    have hset : Agree k own mine { s with queues := s.queues.setLine lane rest }
        { s' with queues := s'.queues.setLine lane rest } :=
      { h with queues := h.queues.setLine lane hrest }
    rw [Scheduler.takeFrom, Scheduler.takeFrom]
    rcases rel_cases (hset.startDelivery? now hid) with
      ⟨hnone, hnone'⟩ | ⟨⟨t, r⟩, ⟨t', r'⟩, hsome, hsome', heq, hr⟩
    · simp only [hnone, hnone']
      exact takeFrom now hrest hset
    · obtain rfl : t' = t := heq
      simp only [hsome, hsome']
      exact takeFrom now hrest hr

theorem takeQueued (h : Agree k own mine s s') (now : Moment) (hlane : lane.kind = k)
    (limit : Nat) :
    SameResult k own mine (s.takeQueued now lane limit) (s'.takeQueued now lane limit) := by
  rw [Scheduler.takeQueued, Scheduler.takeQueued, h.queues.line hlane]
  exact takeFrom now (h.queues.own hlane) h

/-! ### Tasks that come back -/

theorem takeBack? (h : Agree k own mine s s') (hid : own id) :
    Option.Rel (Agree k own mine) (s.takeBack? id) (s'.takeBack? id) := by
  have hflight := h.inFlight.mem_iff hid
  rw [Scheduler.takeBack?, Scheduler.takeBack?]
  by_cases hin : id ∈ s.inFlight
  · rw [if_pos hin, if_pos (hflight.mpr hin)]
    have hkind : ∀ t : Task, t.requeue.kind = t.kind := fun _ => rfl
    exact .some (h.modify id hkind)
  · rw [if_neg hin, if_neg fun h => hin (hflight.mp h)]
    exact .none

theorem takeBackEach : ∀ {ids taken : List TaskId} {s s' : Scheduler},
    (∀ id ∈ ids, own id) → (∀ id ∈ taken, own id) → Agree k own mine s s' →
    SameResult k own mine (takeBackEach ids taken s) (takeBackEach ids taken s') ∧
      ∀ id ∈ (Scheduler.takeBackEach ids taken s).1, own id
  | [], _, _, _, _, htaken, h => ⟨⟨rfl, h⟩, fun id hid => htaken id (List.mem_reverse.mp hid)⟩
  | id :: rest, taken, s, s', hids, htaken, h => by
    obtain ⟨hid, hrest⟩ := List.forall_mem_cons.mp hids
    rw [Scheduler.takeBackEach, Scheduler.takeBackEach]
    rcases rel_cases (h.takeBack? hid) with ⟨hnone, hnone'⟩ | ⟨r, r', hsome, hsome', hr⟩
    · simp only [hnone, hnone']
      exact takeBackEach hrest htaken h
    · simp only [hsome, hsome']
      exact takeBackEach hrest (List.forall_mem_cons.mpr ⟨hid, htaken⟩) hr

theorem requeueFront (h : Agree k own mine s s') (now : Moment) {ids : List TaskId}
    (hids : ∀ id ∈ ids, own id) :
    SameResult k own mine (s.requeueFront now ids) (s'.requeueFront now ids) := by
  have hsorted : ∀ id ∈ ids.mergeSort (· ≤ ·), own id := fun id hid =>
    hids id (List.mem_mergeSort.mp hid)
  obtain ⟨hback, hown⟩ := takeBackEach hsorted (List.forall_mem_nil own) h
  obtain ⟨taken, r, r', heq, heq', hr⟩ := hback.exists_eq
  rw [heq] at hown
  obtain ⟨hleft, hown'⟩ := dispatchEach now hown (List.forall_mem_nil own) hr
  obtain ⟨left, u, u', hu, hu', hafter⟩ := hleft.exists_eq
  rw [hu] at hown'
  simp only [Scheduler.requeueFront, heq, heq', hu, hu']
  exact ⟨rfl, hafter.queueFrontEach hown'⟩

/-! ### Polls -/

theorem batchLimit (h : Agree k own mine s s') (kind : Kind) :
    s'.batchLimit kind = s.batchLimit kind := by
  cases kind with
  | regional => rw [Scheduler.batchLimit, Scheduler.batchLimit, h.limits]
  | priority => rfl

theorem poll (h : Agree k own mine s s') (now : Moment) (hlane : lane.kind = k)
    (hc : mine (.poll c)) : SameResult k own mine (s.poll now lane c) (s'.poll now lane c) := by
  obtain ⟨tasks, r, r', heq, heq', hafter⟩ :=
    (h.takeQueued now hlane (s.batchLimit lane.kind)).exists_eq
  rw [Scheduler.poll, Scheduler.poll, h.batchLimit, heq, heq']
  cases tasks with
  | nil => exact ⟨rfl, { hafter with pool := hafter.pool.append hlane (by simpa) }⟩
  | cons => exact ⟨rfl, hafter⟩

theorem releasePoll (h : Agree k own mine s s') (hlane : lane.kind = k) (hc : mine (.poll c)) :
    SameResult k own mine (s.releasePoll lane c) (s'.releasePoll lane c) := by
  obtain ⟨hread, hpolls⟩ := Switchboard.same_take h.polls hc
  exact ⟨hread, { h with pool := h.pool.keep hlane fun _ _ => rfl, polls := hpolls }⟩

theorem abandonPoll (h : Agree k own mine s s') (now : Moment) (hlane : lane.kind = k)
    (hc : mine (.poll c)) (hheld : ∀ tasks, s.polls.held? c = some tasks → ∀ t ∈ tasks, own t.id) :
    SameResult k own mine (s.abandonPoll now lane c) (s'.abandonPoll now lane c) := by
  obtain ⟨tasks, r, r', heq, heq', hafter⟩ := (h.releasePoll hlane hc).exists_eq
  have hread : s.polls.held? c = tasks := (s.polls.take_fst c).symm.trans (congrArg Prod.fst heq)
  rw [Scheduler.abandonPoll, Scheduler.abandonPoll, heq, heq']
  cases tasks with
  | none => exact ⟨rfl, hafter⟩
  | some tasks =>
    refine hafter.requeueFront now fun id hid => ?_
    obtain ⟨t, ht, rfl⟩ := List.mem_map.mp hid
    exact hheld tasks hread t ht

/-! ### Tasks that come and go -/

theorem accept (h : Agree k own mine s s') (now : Moment) (r : Request) :
    SameResult k own mine (s.accept now k r) (s'.accept now k r) ∧ own (s.accept now k r).1 := by
  have hown : own s.nextId := h.fresh (Nat.le_refl _)
  refine ⟨⟨h.nextId, ?_⟩, hown⟩
  simp only [Scheduler.accept, h.nextId]
  refine { h with
    nextId := rfl
    fresh := fun {id} hid => h.fresh (Nat.le_of_succ_le hid)
    tasks := h.tasks.insert _ _
    kind := fun {x u} hx hu => ?_ }
  rw [Std.ExtTreeMap.getElem?_insert] at hu
  split at hu
  · cases hu
    rfl
  · exact h.kind hx hu

theorem forget (h : Agree k own mine s s') {t : Task} (ht : t.kind = k) :
    Agree k own mine (s.forget t) (s'.forget t) where
  limits := h.limits
  nextId := h.nextId
  fresh := h.fresh
  tasks := h.tasks.erase t.id
  kind {x u} hx hu := by
    rw [Scheduler.forget, Std.ExtTreeMap.getElem?_erase] at hu
    split at hu
    · cases hu
    · exact h.kind hx hu
  inFlight := h.inFlight.erase t.id
  queues := by
    have hlane : t.lane.kind = k := ht
    simp only [Scheduler.forget]
    split
    · exact h.queues.keep hlane fun _ _ => rfl
    · exact h.queues
  pool := h.pool
  polls := h.polls
  requesters := h.requesters
  jobs := h.jobs
  producers := h.producers
  awaited := h.awaited

/-! ### Priority work -/

section

variable (h : Agree .priority own mine s s')

include h

theorem submit (now : Moment) (r : Request) (hc : mine (.request c)) :
    SameResult .priority own mine (s.submit now r c) (s'.submit now r c) := by
  obtain ⟨hsame, hown⟩ := h.accept now r
  obtain ⟨id, u, u', heq, heq', hafter⟩ := hsame.exists_eq
  rw [heq] at hown
  have hawaited : Agree .priority own mine { u with producers := u.producers.insert id c }
      { u' with producers := u'.producers.insert id c } := by
    refine { hafter with
      producers := fun hk => congrArg (·.insert id c) (hafter.producers hk)
      awaited := fun hk {x d} hx => ?_ }
    rw [Std.ExtTreeMap.getElem?_insert] at hx
    split at hx
    · cases hx
      exact hc
    · exact hafter.awaited hk hx
  simp only [Scheduler.submit, heq, heq']
  exact ⟨rfl, hawaited.offer now hown⟩

variable (hs : Sound s ∅) (hs' : Sound s' ∅) (hown : Owned .priority own s)

include hs hs' hown

theorem withdraw (id : TaskId) :
    SameResult .priority own mine (s.withdraw id) (s'.withdraw id) := by
  have hproducers := h.producers rfl
  by_cases hid : id ∈ s.producers
  · obtain ⟨t, ht, hkind⟩ := hs.isAwaited_iff.mpr hid
    have ht' := (h.tasks id (hown ht hkind)).trans ht
    refine ⟨?_, ?_⟩
    · rw [(hs.withdraw_producers id).1, (hs'.withdraw_producers id).1, hproducers]
    · obtain rfl := hs.placed.key ht
      have hforget := h.forget hkind
      rw [withdraw_state ht hkind, withdraw_state ht' hkind]
      refine { hforget with
        producers := fun hk => congrArg (·.erase t.id) (hforget.producers hk)
        awaited := fun hk {x d} hx => ?_ }
      rw [Std.ExtTreeMap.getElem?_erase] at hx
      split at hx
      · cases hx
      · exact hforget.awaited hk hx
  · rw [hs.withdraw_of_notMem hid, hs'.withdraw_of_notMem (hproducers ▸ hid)]
    exact ⟨rfl, h⟩

theorem complete (id : TaskId) (result : ByteArray) :
    SameResult .priority own mine (s.complete id result) (s'.complete id result) := by
  obtain ⟨c, r, r', heq, heq', hafter⟩ := (h.withdraw hs hs' hown id).exists_eq
  have hc : s.producers[id]? = c := by rw [← (hs.withdraw_producers id).1, heq]
  rw [Scheduler.complete, Scheduler.complete, heq, heq']
  cases c with
  | none => exact ⟨rfl, hafter⟩
  | some c =>
    rcases rel_cases (Switchboard.rel_send? hafter.requesters (h.awaited rfl hc) result) with
      ⟨hclosed, hclosed'⟩ | ⟨requesters, requesters', hopen, hopen', hsides⟩
    · simp only [hclosed, hclosed']
      exact ⟨rfl, hafter⟩
    · simp only [hopen, hopen']
      exact ⟨rfl, { hafter with requesters := hsides }⟩

theorem releaseRequest (id : TaskId) (hc : mine (.request c)) :
    SameResult .priority own mine (s.releaseRequest id c) (s'.releaseRequest id c) := by
  have hafter := (h.withdraw hs hs' hown id).agree
  obtain ⟨hread, hsides⟩ := Switchboard.same_take hafter.requesters hc
  exact ⟨hread, { hafter with requesters := hsides }⟩

end

/-! ### Regional work -/

theorem acceptEach (now : Moment) : ∀ (requests : List Request) {ids : List TaskId}
    {s s' : Scheduler}, (∀ id ∈ ids, own id) → Agree .regional own mine s s' →
    SameResult .regional own mine (acceptEach now requests ids s)
      (acceptEach now requests ids s') ∧
      ∀ id ∈ (Scheduler.acceptEach now requests ids s).1, own id
  | [], _, _, _, hids, h => ⟨⟨rfl, h⟩, fun id hid => hids id (List.mem_reverse.mp hid)⟩
  | r :: rest, ids, s, s', hids, h => by
    obtain ⟨hsame, hown⟩ := h.accept now r
    obtain ⟨id, u, u', heq, heq', hafter⟩ := hsame.exists_eq
    rw [heq] at hown
    simp only [Scheduler.acceptEach, heq, heq']
    exact acceptEach now rest (List.forall_mem_cons.mpr ⟨hown, hids⟩) hafter

section

variable (h : Agree .regional own mine s s')

include h

theorem addToJob (now : Moment) (job : JobId) (category : Category) (ids : List TaskId) :
    Agree .regional own mine (s.addToJob now job category ids)
      (s'.addToJob now job category ids) := by
  simp only [Scheduler.addToJob, h.jobs rfl]
  exact { h with jobs := fun _ => rfl }

theorem targetOf (requests : List Request) : s'.targetOf requests = s.targetOf requests := by
  have hline : ∀ category, s'.queues.line ⟨.regional, category⟩ =
      s.queues.line ⟨.regional, category⟩ := fun _ => h.queues.line rfl
  simp only [Scheduler.targetOf, h.jobs rfl, h.limits, hline]

theorem enqueueBatch (now : Moment) (requests : List Request) :
    (∃ r, s.enqueueBatch now requests = .error r ∧ s'.enqueueBatch now requests = .error r) ∨
      ∃ ids r r', s.enqueueBatch now requests = .ok (ids, r) ∧
        s'.enqueueBatch now requests = .ok (ids, r') ∧ Agree .regional own mine r r' := by
  rw [Scheduler.enqueueBatch, Scheduler.enqueueBatch, h.targetOf]
  cases s.targetOf requests with
  | error r => exact Or.inl ⟨r, rfl, rfl⟩
  | ok target =>
    obtain ⟨job, category⟩ := target
    obtain ⟨haccepted, hown⟩ := acceptEach now requests (List.forall_mem_nil own) h
    obtain ⟨ids, r, r', heq, heq', hr⟩ := haccepted.exists_eq
    rw [heq] at hown
    obtain ⟨hleft, hown'⟩ :=
      dispatchEach now hown (List.forall_mem_nil own) (hr.addToJob now job category ids)
    obtain ⟨left, u, u', hu, hu', hafter⟩ := hleft.exists_eq
    rw [hu] at hown'
    have hlane : (⟨.regional, category⟩ : Lane).kind = .regional := rfl
    have hlines := hafter.queues.append hlane hown'
    have hjoined : Agree .regional own mine
        { u with queues := u.queues.append ⟨.regional, category⟩ left }
        { u' with queues := u'.queues.append ⟨.regional, category⟩ left } :=
      { hafter with queues := hlines }
    refine Or.inr ⟨ids, _, _, ?_, ?_, hjoined⟩
    · simp only [bind, Except.bind, heq, hu]
      rfl
    · simp only [bind, Except.bind, heq', hu']
      rfl

theorem countCompleted (t : Task) :
    Agree .regional own mine (s.countCompleted t) (s'.countCompleted t) := by
  rw [Scheduler.countCompleted, Scheduler.countCompleted, h.jobs rfl]
  split
  · exact h
  · split
    · exact { h with jobs := fun _ => rfl }
    · exact h

theorem deleteJob? (job : JobId) :
    Option.Rel (Agree .regional own mine) (s.deleteJob? job) (s'.deleteJob? job) := by
  rw [Scheduler.deleteJob?, Scheduler.deleteJob?, h.jobs rfl]
  cases s.jobs[job]? with
  | none => exact .none
  | some entry =>
    have htasks := h.tasks.foldl_erase entry.outstanding.toList
    have hflight := h.inFlight.foldl_erase entry.outstanding.toList
    have hlane : (⟨.regional, entry.category⟩ : Lane).kind = .regional := rfl
    have hqueues := h.queues.keep hlane fun id hid => Bool.eq_iff_iff.mpr (htasks.mem_iff hid)
    refine .some { h with
      tasks := htasks
      inFlight := hflight
      queues := hqueues
      jobs := fun _ => rfl
      kind := fun {x u} hx hu => ?_ }
    have hu' := (getElem?_foldl_erase x entry.outstanding.toList s.tasks).symm.trans hu
    split at hu'
    · cases hu'
    · exact h.kind hx hu'

section

variable (hown : Owned .regional own s) (hown' : Owned .regional own s')

include hown hown'

/-- Under a number there is the same regional task for both, or none for both. -/
theorem regional_cases (id : TaskId) :
    (∃ t, s.tasks[id]? = some t ∧ s'.tasks[id]? = some t ∧ t.kind = .regional ∧ own id) ∨
      (∀ t, s.tasks[id]? = some t → t.kind ≠ .regional) ∧
        ∀ t, s'.tasks[id]? = some t → t.kind ≠ .regional := by
  by_cases hid : own id
  · have hsame := h.tasks id hid
    cases ht : s.tasks[id]? with
    | none => exact Or.inr ⟨by simp, by simp [hsame, ht]⟩
    | some t => exact Or.inl ⟨t, rfl, hsame.trans ht, h.kind hid ht, hid⟩
  · exact Or.inr ⟨fun t ht hkind => hid (hown ht hkind), fun t ht hkind => hid (hown' ht hkind)⟩

theorem acknowledge? (id : TaskId) :
    Option.Rel (Agree .regional own mine) (s.acknowledge? id) (s'.acknowledge? id) := by
  rcases h.regional_cases hown hown' id with ⟨t, ht, ht', hkind, -⟩ | ⟨hnone, hnone'⟩
  · rw [acknowledge?_of_regional ht hkind, acknowledge?_of_regional ht' hkind]
    exact .some ((h.forget hkind).countCompleted t)
  · rw [acknowledge?_of_ne hnone, acknowledge?_of_ne hnone']
    exact .none

theorem reportLost (now : Moment) (id : TaskId) :
    SameResult .regional own mine (s.reportLost now id) (s'.reportLost now id) := by
  rw [Scheduler.reportLost, Scheduler.reportLost]
  rcases h.regional_cases hown hown' id with ⟨t, ht, ht', hkind, hid⟩ | ⟨hnone, hnone'⟩
  · have hawaits : s'.awaitsAcknowledgment id = s.awaitsAcknowledgment id := by
      rw [awaitsAcknowledgment, awaitsAcknowledgment, ht, ht',
        Bool.eq_iff_iff.mpr (h.inFlight.mem_iff hid)]
    rw [hawaits]
    split
    · obtain ⟨count, r, r', heq, heq', hafter⟩ :=
        (h.requeueFront now (List.forall_mem_singleton.mpr hid)).exists_eq
      simp only [heq, heq']
      exact ⟨rfl, hafter⟩
    · exact ⟨rfl, h⟩
  · rw [awaitsAcknowledgment_of_ne hnone, awaitsAcknowledgment_of_ne hnone']
    exact ⟨rfl, h⟩

theorem expired (hs : Sound s ∅) (hs' : Sound s' ∅) (t : Instant) : s'.expired t = s.expired t := by
  have hsame : (s'.inFlight.filter fun _ lease => lease.any (· ≤ t)) =
      s.inFlight.filter fun _ lease => lease.any (· ≤ t) := by
    refine Std.ExtTreeMap.ext_getElem? fun {id} => ?_
    rw [Std.ExtTreeMap.getElem?_filter', Std.ExtTreeMap.getElem?_filter']
    by_cases hid : own id
    · rw [h.inFlight id hid]
    · rw [hs.filter_inFlight fun task ht hkind => hid (hown ht hkind),
        hs'.filter_inFlight fun task ht hkind => hid (hown' ht hkind)]
  rw [expired_eq, expired_eq, hsame]

theorem requeueExpired (hs : Sound s ∅) (hs' : Sound s' ∅) (now : Moment) (t : Instant) :
    SameResult .regional own mine (s.requeueExpired now t) (s'.requeueExpired now t) := by
  rw [Scheduler.requeueExpired, Scheduler.requeueExpired, h.expired hown hown' hs hs']
  refine h.requeueFront now fun id hid => ?_
  obtain ⟨task, ht, hkind⟩ := hs.regional_of_expired hid
  exact hown ht hkind

end

end

/-! ### Operations -/

/-- Two sound schedulers that agree on a kind of work do the same when they are asked the same of
this kind. -/
theorem step (h : Agree k own mine s s') (hs : Sound s ∅) (hs' : Sound s' ∅)
    (hown : Owned k own s) (hown' : Owned k own s') {op : Operation}
    (hkind : op.kind? = some k) (hside : ∀ side ∈ op.side?, mine side)
    (hheld : ∀ lane c tasks, op = .abandonPoll lane c → s.polls.held? c = some tasks →
      ∀ t ∈ tasks, own t.id) (now : Moment) :
    SameResult k own mine (s.step now op) (s'.step now op) := by
  cases op with
  | enqueueBatch requests =>
    obtain rfl : .regional = k := Option.some.inj hkind
    rcases h.enqueueBatch now requests with ⟨r, heq, heq'⟩ | ⟨ids, r, r', heq, heq', hafter⟩
    · simp only [Scheduler.step, heq, heq']
      exact ⟨rfl, h⟩
    · simp only [Scheduler.step, heq, heq']
      exact ⟨rfl, hafter⟩
  | acknowledge id =>
    obtain rfl : .regional = k := Option.some.inj hkind
    exact .of_rel (h.acknowledge? hown hown' id) h
  | reportLost id =>
    obtain rfl : .regional = k := Option.some.inj hkind
    exact (h.reportLost hown hown' now id).map _
  | requeueExpired t =>
    obtain rfl : .regional = k := Option.some.inj hkind
    exact (h.requeueExpired hown hown' hs hs' now t).map _
  | deleteJob job =>
    obtain rfl : .regional = k := Option.some.inj hkind
    exact .of_rel (h.deleteJob? job) h
  | submit r c =>
    obtain rfl : .priority = k := Option.some.inj hkind
    exact (h.submit now r (hside _ rfl)).map fun id => Outcome.accepted [id]
  | withdraw id =>
    obtain rfl : .priority = k := Option.some.inj hkind
    exact (h.withdraw hs hs' hown id).map _
  | complete id result =>
    obtain rfl : .priority = k := Option.some.inj hkind
    exact (h.complete hs hs' hown id result).map _
  | releaseRequest id c =>
    obtain rfl : .priority = k := Option.some.inj hkind
    exact (h.releaseRequest hs hs' hown id (hside _ rfl)).map _
  | poll lane c => exact (h.poll now (Option.some.inj hkind) (hside _ rfl)).map _
  | releasePoll lane c => exact (h.releasePoll (Option.some.inj hkind) (hside _ rfl)).map _
  | abandonPoll lane c =>
    exact (h.abandonPoll now (Option.some.inj hkind) (hside _ rfl)
      fun tasks => hheld lane c tasks rfl).map _
  | _ => cases hkind

end Agree

end Scheduler

end TaskExchange
