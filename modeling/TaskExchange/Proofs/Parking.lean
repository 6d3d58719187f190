import Mathlib.Data.List.Pairwise
import TaskExchange.Proofs.Attendance
import TaskExchange.Proofs.Isolation

/-!
Parking: what becomes of the workers that wait for tasks, if no two of them wait on one connection.
Main statement: `stations_run`.  In every run a worker that began to wait still stands in its line,
or was given one task and stands nowhere, or was asked to stop waiting, or had left and was dropped
when there was a task for its lane; and no worker is given a task before one that began to wait
earlier in the same lane and has not left.
-/

namespace TaskExchange.Scheduler

/-- The connection on which a worker polls. -/
def Operation.polledOn? : Operation → Option ConnectionId
  | .poll _ c => some c
  | _ => none

namespace Event

/-- The worker that begins to wait in a lane. -/
def parksIn? (lane : Lane) (e : Event) : Option ConnectionId :=
  match e.op, e.outcome with
  | .poll other c, .polled .parked => if other = lane then some c else none
  | _, _ => none

/-- Tasks come to a waiting side, which did not hold them before. -/
def Brings (e : Event) (c : ConnectionId) (tasks : List Task) : Prop :=
  e.after.polls.held? c = some tasks ∧ e.before.polls.held? c ≠ some tasks

/-- There is a task to give out in a lane, and this worker has left. -/
structure Drops (e : Event) (lane : Lane) (c : ConnectionId) : Prop where
  closed : e.before.polls.isOpen c = false
  attempt : ∃ t : Task, e.Ready t ∧ t.id ∈ e.hand ∧ t.lane = lane

end Event

/-- Nothing comes to a waiting side. -/
def Silent (c : ConnectionId) (events : List Event) : Prop :=
  ∀ e ∈ events, ∀ tasks, ¬ e.Brings c tasks

/-- The workers that began to wait in a lane, in their order. -/
def parkedIn (lane : Lane) (events : List Event) : List ConnectionId :=
  events.filterMap (·.parksIn? lane)

/-- What can have become of a worker that began to wait. -/
inductive Station where
  | waiting
  | resumed
  | released
  | dropped

/-- What has become of a worker that began to wait in a lane, after the events up to its poll, those
since then, and in the state that they led to. -/
inductive AtStation (past since : List Event) (last : Scheduler) (lane : Lane) (c : ConnectionId) :
    Station → Prop where
  /-- It stands in its line, once, and nothing has come to it. -/
  | waiting :
      (last.pool.line lane).count c = 1 → (∀ other, other ≠ lane → c ∉ last.pool.line other) →
      last.polls.held? c = none → Silent c (past ++ since) →
      AtStation past since last lane c .waiting
  /-- One task of its lane came to it, once, and it stands in no line. -/
  | resumed {first rest : List Event} {e : Event} {t : Task} :
      since = first ++ e :: rest → c ∈ e.before.pool.line lane → e.Brings c [t] → t.lane = lane →
      Silent c (past ++ first) → Silent c rest → (∀ other, c ∉ last.pool.line other) →
      AtStation past since last lane c .resumed
  /-- It left its line for good as it was told to. -/
  | released {e : Event} :
      Latest (c ∈ ·.before.pool.line lane) since e → e.Releases lane c →
      Silent c (past ++ since) → (∀ other, c ∉ last.pool.line other) →
      AtStation past since last lane c .released
  /-- It left its line for good as a task was to be given out and it was gone. -/
  | dropped {e : Event} :
      Latest (c ∈ ·.before.pool.line lane) since e → ¬ e.Releases lane c → e.Drops lane c →
      Silent c (past ++ since) → (∀ other, c ∉ last.pool.line other) →
      AtStation past since last lane c .dropped

/-- Workers that wait are neither lost nor overtaken, in a run with these events and this last
state. -/
structure Stations (trace : List Event) (last : Scheduler) : Prop where
  station : ∀ past d since, trace = past ++ d :: since → ∀ lane c, d.parksIn? lane = some c →
    ∃! st, AtStation (past ++ [d]) since last lane c st
  /-- A worker that has not left leaves its line in two ways only. -/
  leaves : ∀ e ∈ trace, ∀ lane c, c ∈ e.before.pool.line lane →
    e.before.polls.isOpen c = true → c ∉ e.after.pool.line lane →
    e.Releases lane c ∨ ∃ t, t.lane = lane ∧ e.Brings c [t]
  /-- When a worker is given a task, none of those that began to wait in its lane before it waits
  on; one that still did and had not left was given a task before it. -/
  turn : ∀ past e future, trace = past ++ e :: future → ∀ c t, e.Brings c [t] →
    ∀ d, [d, c].Sublist (parkedIn t.lane past) → d ∉ e.after.pool.line t.lane ∧
      (d ∈ e.before.pool.line t.lane → e.before.polls.isOpen d = true →
        ∃ u, u.lane = t.lane ∧ e.Brings d [u] ∧ [⟨u, some d⟩, ⟨t, some c⟩].Sublist e.handovers)

variable {now : Moment} {s s' : Scheduler} {hand hand' : Finset TaskId} {log : List Handover}
  {past since : List Event} {e : Event} {c d : ConnectionId} {lane : Lane} {t : Task}

/-! ### Workers leave their lines -/

/-- A worker leaves its line when it is given a task, or when a task of its lane is in hand and it
has left. -/
theorem Shift.leaves (h : Shift now s hand log s' hand') (hin : c ∈ s.pool.line lane)
    (hnot : c ∉ s'.pool.line lane) :
    (∃ t, t.lane = lane ∧ ⟨t, some c⟩ ∈ log) ∨
      (s.polls.isOpen c = false ∧ ∃ t : Task, s.tasks[t.id]? = some t ∧ t.id ∈ hand ∧
        t.lane = lane) := by
  cases h with
  | @give t dead d rest ht hh _ hline hdead =>
    simp only [handTo, setWorkers, deliver, Lanes.line_setLine] at hnot
    split at hnot
    · next hlane =>
      subst hlane
      rw [hline] at hin
      rcases List.mem_append.mp hin with hin | hin
      · exact Or.inr ⟨hdead c hin, t, ht, hh, rfl⟩
      · obtain rfl := (List.mem_cons.mp hin).resolve_right hnot
        exact Or.inl ⟨t.dispatch, rfl, List.mem_singleton_self _⟩
    · exact absurd hin hnot
  | @drop t ht hh hall =>
    simp only [setWorkers, Lanes.line_setLine] at hnot
    split at hnot
    · next hlane => exact Or.inr ⟨hall c (hlane ▸ hin), t, ht, hh, hlane⟩
    · exact absurd hin hnot
  | join => exact absurd hin hnot
  | take => exact absurd hin hnot

theorem Shifts.leaves (h : Shifts now s hand log s' hand')
    (helse : ∀ other, c ∈ s.pool.line other → other = lane) (hin : c ∈ s.pool.line lane)
    (hnot : c ∉ s'.pool.line lane) :
    (∃ t, t.lane = lane ∧ ⟨t, some c⟩ ∈ log) ∨
      (s.polls.isOpen c = false ∧ ∃ t : Task, s.tasks[t.id]? = some t ∧ t.id ∈ hand ∧
        t.lane = lane) := by
  induction h with
  | refl => exact absurd hin hnot
  | @tail log more s' s'' _ _ hshifts hshift ih =>
    by_cases hin' : c ∈ s'.pool.line lane
    · rcases hshift.leaves hin' hnot with ⟨t, hlane, ht⟩ | ⟨hclosed, t, ht, hh, hlane⟩
      · exact Or.inl ⟨t, hlane, List.mem_append_right _ ht⟩
      · rcases hshifts.handed c with ⟨-, hside⟩ | ⟨u, dead, rest, hlog, -, -, hline, -⟩
        · obtain ⟨u, hu, hsame⟩ := hshifts.books.symm.task ht
          have hid : u.id = t.id := by simpa [Task.asAccepted] using congrArg Task.id hsame
          refine Or.inr ⟨Switchboard.isOpen_congr hside ▸ hclosed, u, hid ▸ hu,
            hid ▸ hshifts.subset_hand hh, (Task.lane_eq_of_asAccepted hsame).trans hlane⟩
        · have hu : u ∈ handedTo c log := hlog ▸ List.mem_singleton_self u
          exact Or.inl ⟨u, helse u.lane (hline.subset List.mem_append_cons_self),
            List.mem_append_left _ (mem_handedTo.mp hu)⟩
    · rcases ih hin' with ⟨t, hlane, ht⟩ | hdropped
      · exact Or.inl ⟨t, hlane, List.mem_append_left _ ht⟩
      · exact Or.inr hdropped

/-- A worker that is given a task stood behind such as have left only, and those behind it wait
on. -/
theorem Shift.ahead (h : Shift now s hand [⟨t, some c⟩] s' hand') :
    ∃ dead rest, s.pool.line t.lane = dead ++ c :: rest ∧
      (∀ d ∈ dead, s.polls.isOpen d = false) ∧ s'.pool.line t.lane = rest := by
  cases h with
  | give _ _ _ hline hdead => exact ⟨_, _, hline, hdead, Lanes.line_setLine_self ..⟩

namespace Event

theorem brings_iff (e : Event) (hs : Sound e.before ∅) :
    e.Brings c [t] ↔ ⟨t, some c⟩ ∈ e.handovers := by
  rw [Brings, e.received hs]
  constructor
  · rintro ⟨u, hu, hmem⟩
    obtain rfl := List.singleton_inj.mp hu
    exact hmem
  · exact fun h => ⟨t, rfl, h⟩

/-- Nothing comes to a worker that is given nothing. -/
theorem silent_of_handedTo (hs : Sound e.before ∅) (h : handedTo c e.handovers = []) :
    Silent c [e] := by
  intro x hx tasks hbrings
  obtain rfl := List.mem_singleton.mp hx
  obtain ⟨t, -, ht⟩ := (x.received hs).mp hbrings
  rw [← mem_handedTo, h] at ht
  cases ht

/-- A worker that is told to stop and to which nothing has come leaves nothing to be passed on. -/
theorem hand_of_releases (h : e.Releases lane c) (hheld : e.before.polls.held? c = none) :
    e.hand = ∅ := by
  obtain ⟨s, now, op⟩ := e
  rcases h with h | h <;> cases h
  · rfl
  · exact (hand_of_nothing rfl).trans (by simp [requeued, listed, hheld])

theorem handovers_of_releases (h : e.Releases lane c) (hheld : e.before.polls.held? c = none) :
    e.handovers = [] := by
  obtain ⟨s, now, op⟩ := e
  rcases h with h | h <;> cases h
  · exact givenAgain_nil ..
  · simp [handovers, listed, hheld]

/-- When there are tasks to be passed on, the workers that have not left are those of before. -/
theorem isOpen_polls (hhand : e.hand ≠ ∅) (c : ConnectionId) :
    e.polls.isOpen c = e.before.polls.isOpen c := by
  obtain ⟨s, now, op⟩ := e
  cases op with
  | abandonPoll lane d => exact s.polls.isOpen_take d c
  | openPoll => exact absurd rfl hhand
  | leavePoll => exact absurd rfl hhand
  | readPoll => exact absurd rfl hhand
  | releasePoll => exact absurd rfl hhand
  | _ => rfl

/-- A worker that stands in one line leaves it when it is told to, when it is given a task, or when
there is a task for it and it has left. -/
theorem leaves (hs : Sound e.before ∅) (hop : ∀ lane, e.op ≠ .poll lane c)
    (helse : ∀ other, c ∈ e.before.pool.line other → other = lane)
    (hin : c ∈ e.before.pool.line lane) (hnot : c ∉ e.after.pool.line lane) :
    e.Releases lane c ∨ (∃ t, t.lane = lane ∧ e.Brings c [t]) ∨
      (¬ e.Releases lane c ∧ handedTo c e.handovers = [] ∧ e.Drops lane c) := by
  obtain ⟨mid, he⟩ := e.enters hs
  by_cases hrel : e.Releases lane c
  · exact Or.inl hrel
  · have hmid : c ∈ mid.pool.line lane := he.pool ▸ (mem_pool_or_releases hin).resolve_right hrel
    have helse' : ∀ other, c ∈ mid.pool.line other → other = lane := fun other hother => by
      rw [he.pool] at hother
      exact helse other ((e.mem_pool hother).resolve_right fun h => hop other h.1)
    refine Or.inr ?_
    by_cases hnone : handedTo c e.handovers = []
    · rcases he.shifts.leaves helse' hmid hnot with ⟨t, -, ht⟩ | ⟨hclosed, t, ht, hh, hlane⟩
      · rw [← mem_handedTo, hnone] at ht
        cases ht
      · rw [he.polls, isOpen_polls (Finset.ne_empty_of_mem hh)] at hclosed
        exact Or.inr ⟨hrel, hnone, hclosed, t, he.ready hs ht, hh, hlane⟩
    · obtain ⟨t, ht⟩ := List.exists_mem_of_ne_nil _ hnone
      have hbrings := (e.brings_iff hs).mpr (mem_handedTo.mp ht)
      exact Or.inl ⟨t, helse _ (e.waited hs (mem_handedTo.mp ht)).1, hbrings⟩

/-- A worker that stood in its line once and is given a task stands there no longer. -/
theorem notMem_of_brings (hs : Sound e.before ∅) (honce : (e.pool.line t.lane).count c ≤ 1)
    (h : e.Brings c [t]) : c ∉ e.after.pool.line t.lane := by
  obtain ⟨mid, he⟩ := e.enters hs
  have ht := mem_handedTo.mpr ((e.brings_iff hs).mp h)
  rcases he.shifts.handed c with ⟨hnone, -⟩ | ⟨u, dead, rest, hlog, -, -, hline, hrest⟩
  · rw [hnone] at ht
    cases ht
  · rw [hlog] at ht
    obtain rfl := List.mem_singleton.mp ht
    have hle := (hline.sublist.count_le c).trans (he.pool ▸ honce)
    rw [List.count_append, List.count_cons_self] at hle
    have hzero : rest.count c = 0 := by omega
    exact fun hin => List.count_eq_zero.mp hzero (hrest.subset hin)

end Event

/-! ### Stations -/

theorem Silent.append (h : Silent c past) (h' : Silent c since) : Silent c (past ++ since) := by
  intro e he
  rcases List.mem_append.mp he with he | he
  · exact h e he
  · exact h' e he

namespace AtStation

variable {last : Scheduler} {st st' : Station}

/-- A worker that stands in its line is at the first station. -/
theorem mem_line_iff (h : AtStation past since last lane c st) :
    c ∈ last.pool.line lane ↔ st = .waiting := by
  cases h with
  | waiting hcount => simp [← List.count_pos_iff, hcount]
  | resumed _ _ _ _ _ _ hgone => simp [hgone lane]
  | released _ _ _ hgone => simp [hgone lane]
  | dropped _ _ _ _ hgone => simp [hgone lane]

/-- A worker to which something has come is at the second station. -/
theorem silent_iff (h : AtStation past since last lane c st) :
    Silent c (past ++ since) ↔ st ≠ .resumed := by
  cases h with
  | waiting _ _ _ hsilent => simp [hsilent]
  | @resumed first rest e t hsince _ hbrings =>
    simp only [ne_eq, not_true_eq_false, iff_false]
    exact fun hsilent => hsilent e (by simp [hsince]) [t] hbrings
  | released _ _ hsilent => simp [hsilent]
  | dropped _ _ _ hsilent => simp [hsilent]

theorem unique (h : AtStation past since last lane c st)
    (h' : AtStation past since last lane c st') : st = st' := by
  have hline := h.mem_line_iff.symm.trans h'.mem_line_iff
  have hsilent := h.silent_iff.symm.trans h'.silent_iff
  cases h with
  | waiting => exact (hline.mp rfl).symm
  | resumed =>
    by_contra hne
    exact hsilent.mpr (Ne.symm hne) rfl
  | @released e hlatest hrel =>
    cases h' with
    | waiting => simp at hline
    | resumed => simp at hsilent
    | released => rfl
    | dropped hlatest' hnot => exact absurd (hlatest.unique hlatest' ▸ hrel) hnot
  | dropped hlatest hnot =>
    cases h' with
    | waiting => simp at hline
    | resumed => simp at hsilent
    | released hlatest' hrel => exact absurd (hlatest'.unique hlatest ▸ hrel) hnot
    | dropped => rfl

/-- A worker that stands in no line is given nothing, and stays where it is. -/
theorem absent (h : AtStation past since e.before lane c st) (hs : Sound e.before ∅)
    (hop : ∀ lane, e.op ≠ .poll lane c) (hst : st ≠ .waiting) :
    AtStation past (since ++ [e]) e.after lane c st := by
  have hstay : (∀ other, c ∉ e.before.pool.line other) →
      Silent c [e] ∧ ∀ other, c ∉ e.after.pool.line other := fun hgone => by
    obtain ⟨hnone, hafter⟩ := Event.absent hs hop hgone
    exact ⟨Event.silent_of_handedTo hs hnone, hafter⟩
  cases h with
  | waiting => exact absurd rfl hst
  | @resumed first rest d t hsince hin hbrings hlane hfirst hrest hgone =>
    obtain ⟨hsilent, hafter⟩ := hstay hgone
    exact .resumed (by rw [hsince]; simp) hin hbrings hlane hfirst (hrest.append hsilent) hafter
  | released hlatest hrel hpast hgone =>
    obtain ⟨hsilent, hafter⟩ := hstay hgone
    refine .released (hlatest.concat (hgone lane)) hrel ?_ hafter
    rw [← List.append_assoc]
    exact hpast.append hsilent
  | dropped hlatest hnot hdrops hpast hgone =>
    obtain ⟨hsilent, hafter⟩ := hstay hgone
    refine .dropped (hlatest.concat (hgone lane)) hnot hdrops ?_ hafter
    rw [← List.append_assoc]
    exact hpast.append hsilent

/-- A worker that waits goes on waiting, or leaves its line in one of three ways. -/
theorem wait (h : AtStation past since e.before lane c .waiting) (hs : Sound e.before ∅)
    (hop : ∀ lane, e.op ≠ .poll lane c) :
    ∃ st, AtStation past (since ++ [e]) e.after lane c st := by
  cases h with
  | waiting hcount helse hheld hsilent =>
    have hin : c ∈ e.before.pool.line lane := List.count_pos_iff.mp (hcount ▸ Nat.one_pos)
    have honly : ∀ other, c ∈ e.before.pool.line other → other = lane := fun other hother => by
      by_contra hne
      exact helse other hne hother
    have hpool : ∀ other, (e.pool.line other).count c ≤ (e.before.pool.line other).count c :=
      Event.count_pool_le hop
    have hafter : ∀ other, (e.after.pool.line other).count c ≤
        (e.before.pool.line other).count c := fun other => by
      obtain ⟨mid, he⟩ := e.enters hs
      have hle := (he.shifts.suffix_pool other).sublist.count_le c
      exact (he.pool ▸ hle).trans (hpool other)
    have helse' : ∀ other, other ≠ lane → c ∉ e.after.pool.line other := fun other hne => by
      have hzero := List.count_eq_zero.mpr (helse other hne)
      exact List.count_eq_zero.mp (Nat.le_zero.mp (hzero ▸ hafter other))
    by_cases hstay : c ∈ e.after.pool.line lane
    · have hnone : handedTo c e.handovers = [] := by
        refine handedTo_eq_nil fun t hmem => ?_
        have hlane := honly t.lane (e.waited hs hmem).1
        refine Event.notMem_of_brings hs ?_ ((e.brings_iff hs).mpr hmem) (hlane ▸ hstay)
        exact (hpool t.lane).trans (Nat.le_of_eq (hlane ▸ hcount))
      have hquiet := Event.silent_of_handedTo hs hnone
      refine ⟨.waiting, .waiting ?_ helse' ?_ ?_⟩
      · exact Nat.le_antisymm (hcount ▸ hafter lane) (List.count_pos_iff.mpr hstay)
      · refine Option.eq_none_iff_forall_ne_some.mpr fun tasks htasks => ?_
        exact hquiet e (List.mem_singleton_self e) tasks ⟨htasks, by simp [hheld]⟩
      · rw [← List.append_assoc]
        exact hsilent.append hquiet
    · have hgone : ∀ other, c ∉ e.after.pool.line other := fun other => by
        by_cases hne : other = lane
        · exact hne ▸ hstay
        · exact helse' other hne
      rcases Event.leaves hs hop honly hin hstay with
        hrel | ⟨t, hlane, hbrings⟩ | ⟨hnot, hnone, hdrops⟩
      · have hquiet : Silent c [e] :=
          Event.silent_of_handedTo hs (by simp [Event.handovers_of_releases hrel hheld])
        refine ⟨.released, .released (.last hin) hrel ?_ hgone⟩
        rw [← List.append_assoc]
        exact hsilent.append hquiet
      · exact ⟨.resumed, .resumed rfl hin hbrings hlane hsilent (by simp [Silent]) hgone⟩
      · refine ⟨.dropped, .dropped (.last hin) hnot hdrops ?_ hgone⟩
        rw [← List.append_assoc]
        exact hsilent.append (Event.silent_of_handedTo hs hnone)

end AtStation

/-! ### The order of workers -/

theorem parkedIn_concat (lane : Lane) (past : List Event) (e : Event) :
    parkedIn lane (past ++ [e]) = parkedIn lane past ++ (e.parksIn? lane).toList := by
  cases h : e.parksIn? lane <;> simp [parkedIn, h]

theorem Event.parksIn?_eq_some_iff :
    e.parksIn? lane = some c ↔ e.op = .poll lane c ∧ e.outcome = .polled .parked := by
  rw [parksIn?]
  split
  · next hop houtcome => simp [hop, houtcome]
  · next hnot =>
    simp only [reduceCtorEq, false_iff, not_and]
    exact fun hop houtcome => hnot _ _ hop houtcome

/-- A worker joins its line at the end, when it begins to wait there. -/
theorem Event.pool_sublist (e : Event) (lane : Lane) :
    (e.pool.line lane).Sublist (e.before.pool.line lane ++ (e.parksIn? lane).toList) := by
  obtain ⟨s, now, op⟩ := e
  have hkeep : ∀ other d, ((s.pool.keep other (· ≠ d)).line lane).Sublist (s.pool.line lane) :=
    fun other d => s.pool.line_keep_sublist other lane _
  have hsame : ∀ xs, (s.pool.line lane).Sublist (s.pool.line lane ++ xs) := fun xs =>
    List.sublist_append_left ..
  cases op with
  | poll other d =>
    rw [pool]
    split
    · next heq houtcome =>
      cases heq
      rw [parksIn?, Lanes.pushBack, Lanes.line_append]
      simp only [houtcome]
      split
      · next hlane => simp [hlane]
      · exact hsame _
    · next heq => cases heq
    · next heq => cases heq
    · exact hsame _
  | releasePoll other d => exact (hkeep other d).trans (hsame _)
  | abandonPoll other d => exact (hkeep other d).trans (hsame _)
  | _ => exact hsame _

theorem Event.pool_after_sublist (e : Event) (hs : Sound e.before ∅) (lane : Lane) :
    (e.after.pool.line lane).Sublist
      (e.before.pool.line lane ++ (e.parksIn? lane).toList) := by
  obtain ⟨mid, he⟩ := e.enters hs
  exact (he.shifts.suffix_pool lane).sublist.trans (he.pool ▸ e.pool_sublist lane)

/-- Workers stand in their lines in the order in which they began to wait. -/
theorem pool_sublist_run (limits : Limits) (steps : List (Moment × Operation)) (lane : Lane) :
    (((new limits).run steps).pool.line lane).Sublist
      (parkedIn lane ((new limits).trace steps)) := by
  refine (Sound.new limits).trace_induction
    (P := fun past s => (s.pool.line lane).Sublist (parkedIn lane past)) ?_ ?_
  · exact List.Sublist.refl _
  · intro past e _ hs hpast
    rw [parkedIn_concat]
    exact (e.pool_after_sublist hs lane).trans (hpast.append_right _)

/-- Two members of a list without duplicates stand in one order only. -/
theorem not_sublist_swap {α : Type} {a b : α} : ∀ {l : List α}, l.Nodup → [a, b].Sublist l →
    ¬ [b, a].Sublist l
  | [], _, h, _ => by cases h
  | x :: l, hl, h, h' => by
    obtain ⟨hx, hl⟩ := List.nodup_cons.mp hl
    cases h with
    | cons _ h =>
      cases h' with
      | cons _ h' => exact not_sublist_swap hl h h'
      | cons_cons _ h' => exact hx (h.subset (by simp))
    | cons_cons _ h =>
      cases h' with
      | cons _ h' => exact hx (h'.subset (by simp))
      | cons_cons _ h' => exact hx (h.subset (by simp))

/-- A worker that is given a task has nobody before it who still waits in its lane. -/
theorem Event.turn (hs : Sound e.before ∅) {order : List ConnectionId} (hnodup : order.Nodup)
    (horder : (e.before.pool.line t.lane).Sublist order)
    (honly : d ∈ e.before.pool.line t.lane → ∀ other, d ∈ e.before.pool.line other →
      other = t.lane) (hbrings : e.Brings c [t]) (hbefore : [d, c].Sublist order) :
    d ∉ e.after.pool.line t.lane ∧ (d ∈ e.before.pool.line t.lane → e.before.polls.isOpen d = true →
        ∃ u, u.lane = t.lane ∧ e.Brings d [u] ∧
          [⟨u, some d⟩, ⟨t, some c⟩].Sublist e.handovers) := by
  obtain ⟨mid, he⟩ := e.enters hs
  have hg := (e.brings_iff hs).mp hbrings
  obtain ⟨pre, post, hlog⟩ := List.append_of_mem hg
  obtain ⟨s₁, hand₁, s₂, hand₂, hpre, hshift, hpost⟩ := he.shifts.split hlog
  obtain ⟨dead, rest, hline, hdead, hrest⟩ := hshift.ahead
  have hparks : e.parksIn? t.lane = none := by
    refine Option.eq_none_iff_forall_ne_some.mpr fun x hx => ?_
    obtain ⟨hop, houtcome⟩ := parksIn?_eq_some_iff.mp hx
    simp [handovers, hop, houtcome] at hg
  have hmid : (mid.pool.line t.lane).Sublist order := by
    have hsub := e.pool_sublist t.lane
    rw [hparks, Option.toList_none, List.append_nil] at hsub
    exact he.pool ▸ hsub.trans horder
  have hbehind : d ∉ rest := by
    intro hd
    have hpair : [c, d].Sublist (dead ++ c :: rest) :=
      ((List.singleton_sublist.mpr hd).cons_cons c).trans (List.sublist_append_right ..)
    have hsub := (hline ▸ (hpre.suffix_pool t.lane).sublist).trans hmid
    exact not_sublist_swap hnodup hbefore (hpair.trans hsub)
  refine ⟨fun hd => hbehind (hrest ▸ (hpost.suffix_pool t.lane).subset hd), fun hin hopen => ?_⟩
  have hhand : e.hand ≠ ∅ := Finset.ne_empty_of_mem (he.shifts.mem_hand_of_mem hg rfl)
  have hin' : d ∈ mid.pool.line t.lane := by
    rw [he.pool]
    refine (mem_pool_or_releases hin).resolve_right fun hrel => hhand ?_
    exact hand_of_releases hrel (Switchboard.held?_of_isOpen hopen)
  have hopen' : mid.polls.isOpen d = true := by
    rw [he.polls, isOpen_polls hhand]
    exact hopen
  rcases hpre.handed d with ⟨-, hside⟩ | ⟨u, -, -, hu, -⟩
  · -- It would stand before the other one, among those that have left.
    have hstill : s₁.polls.isOpen d = true := Switchboard.isOpen_congr hside ▸ hopen'
    have hd := hpre.stands hin' hstill
    rw [hline] at hd
    rcases List.mem_append.mp hd with hd | hd
    · exact absurd hstill (by simp [hdead d hd])
    · obtain rfl := (List.mem_cons.mp hd).resolve_right hbehind
      exact absurd hbefore (not_sublist_swap hnodup hbefore)
  · have hmem : ⟨u, some d⟩ ∈ pre := mem_handedTo.mp (hu ▸ List.mem_singleton_self u)
    have hmem' : ⟨u, some d⟩ ∈ e.handovers := hlog ▸ List.mem_append_left _ hmem
    refine ⟨u, honly hin u.lane (e.waited hs hmem').1, (e.brings_iff hs).mpr hmem', ?_⟩
    rw [hlog]
    exact (List.singleton_sublist.mpr hmem).append
      (List.singleton_sublist.mpr (List.mem_cons_self ..))

/-- A worker that begins to wait joins its line, and nothing else happens. -/
theorem Event.after_of_parks (hs : Sound e.before ∅) (h : e.parksIn? lane = some c) :
    e.after = { e.before with pool := e.before.pool.pushBack lane c } := by
  obtain ⟨s, now, op⟩ := e
  obtain ⟨hop, houtcome⟩ := parksIn?_eq_some_iff.mp h
  obtain rfl : op = .poll lane c := hop
  rcases shifts_poll now hs.placed lane c with ⟨-, hpoll⟩ | ⟨tasks, s', -, hpoll, -⟩
  · simp only [after, step, hpoll]
  · simp [outcome, step, hpoll] at houtcome

/-- A waiting side to which nothing came holds nothing. -/
theorem held?_of_silent (limits : Limits) (steps : List (Moment × Operation))
    (h : Silent c ((new limits).trace steps)) : ((new limits).run steps).polls.held? c = none := by
  refine trace_induction (P := fun past s => Silent c past → s.polls.held? c = none) ?_ ?_ h
  · intro _
    rfl
  · intro past e hpast hsilent
    have hbefore := hpast fun x hx => hsilent x (List.mem_append_left _ hx)
    refine Option.eq_none_iff_forall_ne_some.mpr fun tasks htasks => ?_
    exact hsilent e (by simp) tasks ⟨htasks, by simp [hbefore]⟩

/-! ### Connections on which one poll is made -/

theorem polledOn?_of_poll {op : Operation} (h : op = .poll lane c) : op.polledOn? = some c := by
  rw [h, Operation.polledOn?]

theorem polledOn_trace : ∀ (steps : List (Moment × Operation)) (s : Scheduler),
    (s.trace steps).filterMap (·.op.polledOn?) = steps.filterMap (·.2.polledOn?)
  | [], _ => rfl
  | (now, op) :: steps, s => by
    simp only [trace, List.filterMap_cons, polledOn_trace steps]

section

variable {trace : List Event} (hpolled : (trace.filterMap (·.op.polledOn?)).Nodup)

include hpolled

/-- Two polls on one connection are the same. -/
theorem eq_of_polls {x y : Event} (hx : x ∈ trace) (hy : y ∈ trace) {other : Lane}
    (hcx : x.op = .poll lane c) (hcy : y.op = .poll other c) : x = y := by
  by_contra hne
  have hsymm : Std.Symm fun x y : Event => ∀ b, x.op.polledOn? = some b →
      ∀ b', y.op.polledOn? = some b' → b ≠ b' :=
    ⟨fun x y h b hb b' hb' => (h b' hb' b hb).symm⟩
  exact (List.pairwise_filterMap.mp hpolled).forall hx hy hne c (polledOn?_of_poll hcx) c
    (polledOn?_of_poll hcy) rfl

/-- Nobody polls again on a connection. -/
theorem ne_poll {future : List Event} (hsplit : trace = past ++ e :: future) {x : Event}
    (hx : x ∈ past) (hop : x.op = .poll lane c) (other : Lane) : e.op ≠ .poll other c := by
  intro hop'
  rw [hsplit, List.filterMap_append, List.nodup_append'] at hpolled
  refine hpolled.2.2 (List.mem_filterMap.mpr ⟨x, hx, polledOn?_of_poll hop⟩) ?_
  exact List.mem_filterMap.mpr ⟨e, List.mem_cons_self .., polledOn?_of_poll hop'⟩

/-- No connection is twice among those of some polls. -/
theorem nodup_filterMap {f : Event → Option ConnectionId}
    (hf : ∀ {e c}, f e = some c → e.op.polledOn? = some c) : (trace.filterMap f).Nodup :=
  List.pairwise_filterMap.mpr ((List.pairwise_filterMap.mp hpolled).imp
    fun h b hb b' hb' => h b (hf hb) b' (hf hb'))

end

/-- A worker that stands in line polled there before. -/
theorem polled_before {limits : Limits} {steps : List (Moment × Operation)} {future : List Event}
    (hsplit : (new limits).trace steps = past ++ e :: future) (hin : c ∈ e.before.pool.line lane) :
    ∃ x ∈ past, x.op = .poll lane c := by
  obtain ⟨xs, -, rfl, hbefore, -⟩ := trace_split hsplit
  obtain ⟨x, hx, hop, -⟩ := parked_run limits xs (hbefore ▸ hin)
  exact ⟨x, hx, hop⟩

/-! ### Every run -/

section

variable {limits : Limits} {steps : List (Moment × Operation)}
  (hpolled : (((new limits).trace steps).filterMap (·.op.polledOn?)).Nodup)

include hpolled

/-- A worker stands in one line only. -/
theorem eq_of_mem_line (he : e ∈ (new limits).trace steps) (hin : c ∈ e.before.pool.line lane)
    {other : Lane} (hother : c ∈ e.before.pool.line other) : other = lane := by
  obtain ⟨past, future, hsplit⟩ := List.append_of_mem he
  obtain ⟨x, hx, hop⟩ := polled_before hsplit hin
  obtain ⟨y, hy, hop'⟩ := polled_before hsplit hother
  have htrace : ∀ {z}, z ∈ past → z ∈ (new limits).trace steps := fun hz => by
    rw [hsplit]
    exact List.mem_append_left _ hz
  rw [← eq_of_polls hpolled (htrace hx) (htrace hy) hop hop', hop] at hop'
  cases hop'
  rfl

/-- Nothing comes to a connection before its poll. -/
theorem silent_before {d : Event} {future : List Event}
    (hsplit : (new limits).trace steps = past ++ d :: future) (hop : d.op = .poll lane c) :
    Silent c past := by
  intro x hx tasks hbrings
  obtain ⟨first, rest, rfl⟩ := List.append_of_mem hx
  have hsplit' : (new limits).trace steps = first ++ x :: (rest ++ d :: future) := by
    rw [hsplit]
    simp
  have hs : Sound x.before ∅ := sound_of_mem_trace (hsplit' ▸ List.mem_append_cons_self)
  obtain ⟨t, -, ht⟩ := (x.received hs).mp hbrings
  obtain ⟨y, hy, hpolls⟩ := polled_before hsplit' (x.waited hs ht).1
  exact ne_poll hpolled hsplit (List.mem_append_left _ hy) hpolls lane hop

/-- A worker that begins to wait stands in its line, once, and nothing has come to it. -/
theorem waiting_of_parks {d : Event} (hsplit : (new limits).trace steps = past ++ d :: since)
    (hparks : d.parksIn? lane = some c) : AtStation (past ++ [d]) [] d.after lane c .waiting := by
  obtain ⟨hop, houtcome⟩ := Event.parksIn?_eq_some_iff.mp hparks
  have hs : Sound d.before ∅ := sound_of_mem_trace (hsplit ▸ List.mem_append_cons_self)
  have habsent : ∀ other, c ∉ d.before.pool.line other := fun other hin => by
    obtain ⟨x, hx, hpolls⟩ := polled_before hsplit hin
    exact ne_poll hpolled hsplit hx hpolls lane hop
  have hafter := d.after_of_parks hs hparks
  have hpast := silent_before hpolled hsplit hop
  have hheld : d.before.polls.held? c = none := by
    obtain ⟨xs, -, rfl, hbefore, -⟩ := trace_split hsplit
    exact hbefore ▸ held?_of_silent limits xs hpast
  have hquiet : Silent c [d] := by
    intro x hx tasks hbrings
    obtain rfl := List.mem_singleton.mp hx
    rw [Event.Brings, hafter, hheld] at hbrings
    cases hbrings.1
  refine .waiting ?_ (fun other hne => ?_) ?_ ((List.append_nil _).symm ▸ hpast.append hquiet)
  · rw [hafter, Lanes.pushBack, Lanes.line_append, if_pos rfl, List.count_append,
      List.count_eq_zero.mpr (habsent lane), List.count_singleton_self]
  · rw [hafter, Lanes.pushBack, Lanes.line_append, if_neg (Ne.symm hne)]
    exact habsent other
  · rw [hafter]
    exact hheld

theorem station_run {d : Event} (hsplit : (new limits).trace steps = past ++ d :: since)
    (hparks : d.parksIn? lane = some c) :
    ∃ st, AtStation (past ++ [d]) since ((new limits).run steps) lane c st := by
  have hs : Sound d.before ∅ := sound_of_mem_trace (hsplit ▸ List.mem_append_cons_self)
  have hop := (Event.parksIn?_eq_some_iff.mp hparks).1
  have hfirst := waiting_of_parks hpolled hsplit hparks
  obtain ⟨-, ys, -, -, rfl, hlast⟩ := trace_split hsplit
  rw [← hlast]
  refine (d.sound_after hs).trace_induction
    (P := fun since s => ∃ st, AtStation (past ++ [d]) since s lane c st) ⟨_, hfirst⟩ ?_
  rintro since e he hs ⟨st, h⟩
  obtain ⟨first, rest, hrest⟩ := List.append_of_mem he
  have hsplit' : (new limits).trace steps = (past ++ d :: first) ++ e :: rest := by
    rw [hsplit, hrest]
    simp
  have hnot : ∀ other, e.op ≠ .poll other c := ne_poll hpolled hsplit' (by simp) hop
  by_cases hst : st = .waiting
  · subst hst
    exact h.wait hs hnot
  · exact ⟨st, h.absent hs hnot hst⟩

end

/-- In every run in which no connection is polled on twice, workers that wait are neither lost nor
overtaken. -/
theorem stations_run (limits : Limits) (steps : List (Moment × Operation))
    (hdistinct : (steps.filterMap (·.2.polledOn?)).Nodup) :
    Stations ((new limits).trace steps) ((new limits).run steps) := by
  have hpolled : (((new limits).trace steps).filterMap (·.op.polledOn?)).Nodup := by
    rwa [polledOn_trace]
  refine ⟨fun past d since hsplit lane c hparks => ?_, fun e he lane c hin hopen hnot => ?_,
    fun past e future hsplit c t hbrings d hbefore => ?_⟩
  · obtain ⟨st, h⟩ := station_run hpolled hsplit hparks
    exact ⟨st, h, fun st' h' => h'.unique h⟩
  · obtain ⟨past, future, hsplit⟩ := List.append_of_mem he
    obtain ⟨x, hx, hop⟩ := polled_before hsplit hin
    rcases Event.leaves (sound_of_mem_trace he) (ne_poll hpolled hsplit hx hop)
      (fun other => eq_of_mem_line hpolled he hin) hin hnot with
      hrel | hbrings | ⟨-, -, hdrops⟩
    · exact Or.inl hrel
    · exact Or.inr hbrings
    · exact absurd hopen (by simp [hdrops.closed])
  · have he : e ∈ (new limits).trace steps := hsplit ▸ List.mem_append_cons_self
    have hs : Sound e.before ∅ := sound_of_mem_trace he
    obtain ⟨xs, -, rfl, hbefore', -⟩ := trace_split hsplit
    have hnodup : (parkedIn t.lane ((new limits).trace xs)).Nodup := by
      have hall := nodup_filterMap hpolled (f := (·.parksIn? t.lane)) fun h =>
        polledOn?_of_poll (Event.parksIn?_eq_some_iff.mp h).1
      rw [hsplit, List.filterMap_append] at hall
      exact (List.nodup_append'.mp hall).1
    exact Event.turn hs hnodup (hbefore' ▸ pool_sublist_run limits xs t.lane)
      (fun hin other => eq_of_mem_line hpolled he hin) hbrings hbefore

/-- Five workers wait; the first leaves, the second is told to stop waiting, and then there is a
task. -/
def fiveWorkers : List (Moment × Operation) :=
  [.openPoll, .poll ⟨.priority, ⟨"graph", "1"⟩⟩ ⟨0⟩, .openPoll,
    .poll ⟨.priority, ⟨"graph", "1"⟩⟩ ⟨1⟩, .openPoll, .poll ⟨.priority, ⟨"graph", "1"⟩⟩ ⟨2⟩,
    .openPoll, .poll ⟨.priority, ⟨"graph", "1"⟩⟩ ⟨3⟩, .openPoll,
    .poll ⟨.priority, ⟨"graph", "1"⟩⟩ ⟨4⟩, .leavePoll ⟨0⟩,
    .releasePoll ⟨.priority, ⟨"graph", "1"⟩⟩ ⟨1⟩, .openRequest,
    .submit ⟨none, ⟨"graph", "1"⟩, default⟩ ⟨0⟩].map fun op => (default, op)

/-- The task comes to the third, and the last two wait on in their order. -/
theorem stations_fiveWorkers : (fiveWorkers.filterMap (·.2.polledOn?)).Nodup ∧
    Stations ((new .standard).trace fiveWorkers) ((new .standard).run fiveWorkers) ∧
    (((new .standard).run fiveWorkers).polls.held? ⟨2⟩).map (·.map Task.id) = some [⟨1⟩] ∧
    ((new .standard).run fiveWorkers).pool.line ⟨.priority, ⟨"graph", "1"⟩⟩ = [⟨3⟩, ⟨4⟩] := by
  have hdistinct : (fiveWorkers.filterMap (·.2.polledOn?)).Nodup := by decide
  exact ⟨hdistinct, stations_run _ _ hdistinct, by decide +kernel⟩

end TaskExchange.Scheduler
