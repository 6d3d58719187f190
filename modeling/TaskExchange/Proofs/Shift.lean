import TaskExchange.Proofs.Placement

/-!
Shifts: the moves by which tasks get from the hand of an operation to workers and lines, and from
lines to workers.  Passing tasks on is a run of shifts.  Main statements: shifts keep the table, the
lines and the deliveries in agreement (`Shifts.placed`), and leave all else as it is
(`Shifts.books`, `Shifts.suffix_pool`, `Shifts.handed`); what workers are given was with none of
them before and is with them from then on (`Shifts.not_inFlight_of_mem`, `Shifts.inFlight_iff`).
-/

namespace TaskExchange.Scheduler

/-- A task of a lane that no worker was ever given. -/
def FreshIn (s : Scheduler) (lane : Lane) (id : TaskId) : Prop :=
  ∃ t, s.tasks[id]? = some t ∧ t.lane = lane ∧ t.deliveries = 0

/-- Of the fresh tasks of its lane in a hand, none was accepted before this task. -/
def Foremost (s : Scheduler) (hand : Finset TaskId) (t : Task) : Prop :=
  ∀ id ∈ hand, s.FreshIn t.lane id → t.id.value ≤ id.value

/-- One move of a task, or of workers that have left; the list tells what workers were given by
it. -/
inductive Shift (now : Moment) (s : Scheduler) (hand : Finset TaskId) :
    List Handover → Scheduler → Finset TaskId → Prop where
  /-- The first worker of the lane that has not left holds the task. -/
  | give {t : Task} {dead : List ConnectionId} {c : ConnectionId} {rest : List ConnectionId} :
      s.tasks[t.id]? = some t → t.id ∈ hand → Foremost s hand t →
      s.pool.line t.lane = dead ++ c :: rest → (∀ d ∈ dead, s.polls.isOpen d = false) →
      s.polls.isOpen c = true →
      Shift now s hand [⟨t.dispatch, some c⟩] (s.handTo now t c rest) (hand.erase t.id)
  /-- The workers of the lane have all left, and the task stays in the hand. -/
  | drop {t : Task} :
      s.tasks[t.id]? = some t → t.id ∈ hand →
      (∀ c ∈ s.pool.line t.lane, s.polls.isOpen c = false) →
      Shift now s hand [] (s.setWorkers t.lane []) hand
  /-- A task joins its line, as no worker waits for it: one that no worker was ever given at the
  end, one that comes back at the head. -/
  | join {t : Task} {xs : List TaskId} :
      s.tasks[t.id]? = some t → t.id ∈ hand → s.pool.line t.lane = [] →
      (t.deliveries = 0 ∧ Foremost s hand t ∧ xs = s.queues.line t.lane ++ [t.id]) ∨
        (0 < t.deliveries ∧ xs = t.id :: s.queues.line t.lane) →
      Shift now s hand [] { s with queues := s.queues.setLine t.lane xs } (hand.erase t.id)
  /-- A worker that polls is given the head of a line. -/
  | take {t : Task} {rest : List TaskId} :
      s.tasks[t.id]? = some t → s.queues.line t.lane = t.id :: rest →
      Shift now s hand [⟨t.dispatch, none⟩]
        (deliver { s with queues := s.queues.setLine t.lane rest } now t) hand

/-- Shifts, one after the other. -/
inductive Shifts (now : Moment) (s : Scheduler) (hand : Finset TaskId) :
    List Handover → Scheduler → Finset TaskId → Prop where
  | refl : Shifts now s hand [] s hand
  | tail {log more : List Handover} {s' s'' : Scheduler} {hand' hand'' : Finset TaskId} :
      Shifts now s hand log s' hand' → Shift now s' hand' more s'' hand'' →
      Shifts now s hand (log ++ more) s'' hand''

/-- The books are what no shift changes: who was accepted under which number, for which job and for
whom. -/
structure SameBooks (s s' : Scheduler) : Prop where
  limits : s'.limits = s.limits
  nextId : s'.nextId = s.nextId
  jobs : s'.jobs = s.jobs
  producers : s'.producers = s.producers
  requesters : s'.requesters = s.requesters
  tasks : ∀ id : TaskId, s'.tasks[id]?.map Task.asAccepted = s.tasks[id]?.map Task.asAccepted

variable {now : Moment} {s s' s'' : Scheduler} {hand hand' hand'' : Finset TaskId}
  {log more : List Handover}

namespace SameBooks

theorem refl (s : Scheduler) : SameBooks s s := by
  constructor <;> simp

theorem trans (h : SameBooks s s') (h' : SameBooks s' s'') : SameBooks s s'' where
  limits := h'.limits.trans h.limits
  nextId := h'.nextId.trans h.nextId
  jobs := h'.jobs.trans h.jobs
  producers := h'.producers.trans h.producers
  requesters := h'.requesters.trans h.requesters
  tasks id := (h'.tasks id).trans (h.tasks id)

theorem symm (h : SameBooks s s') : SameBooks s' s where
  limits := h.limits.symm
  nextId := h.nextId.symm
  jobs := h.jobs.symm
  producers := h.producers.symm
  requesters := h.requesters.symm
  tasks id := (h.tasks id).symm

/-- A task of the one table is in the other, in whatever state. -/
theorem task (h : SameBooks s s') {id : TaskId} {t : Task} (ht : s.tasks[id]? = some t) :
    ∃ t', s'.tasks[id]? = some t' ∧ t'.asAccepted = t.asAccepted := by
  have hmap := h.tasks id
  rw [ht] at hmap
  simpa using hmap

theorem mem (h : SameBooks s s') {id : TaskId} : id ∈ s'.tasks ↔ id ∈ s.tasks := by
  have hmap := congrArg Option.isSome (h.tasks id)
  rw [Option.isSome_map, Option.isSome_map] at hmap
  rw [Std.ExtTreeMap.mem_iff_isSome_getElem?, Std.ExtTreeMap.mem_iff_isSome_getElem?, hmap]

theorem deliver (now : Moment) {t : Task} (ht : s.tasks[t.id]? = some t) :
    SameBooks s (s.deliver now t) := by
  refine ⟨rfl, rfl, rfl, rfl, rfl, fun id => ?_⟩
  simp only [Scheduler.deliver, Std.ExtTreeMap.getElem?_insert]
  by_cases h : t.id = id
  · subst h; simp [ht]
  · simp [h]

end SameBooks

/-! ### One shift -/

namespace Shift

theorem placed (h : Shift now s hand log s' hand') (hp : Placed s hand) : Placed s' hand' := by
  cases h with
  | give _ hh => exact (hp.deliver now hh).congr rfl rfl rfl
  | drop => exact hp.congr rfl rfl rfl
  | @join t xs ht hh _ hxs =>
    refine hp.join ht hh ?_
    rcases hxs with ⟨-, -, rfl⟩ | ⟨-, rfl⟩
    · exact List.perm_append_singleton ..
    · exact List.Perm.refl _
  | @take t rest ht hline =>
    have hnew : t.id ∉ hand := (hp.inLine (hline ▸ List.mem_cons_self ..)).1
    have hp' := (hp.leave (List.Perm.of_eq hline)).deliver now (Finset.mem_insert_self ..)
    rwa [Finset.erase_insert hnew] at hp'

theorem books (h : Shift now s hand log s' hand') : SameBooks s s' := by
  cases h with
  | @give t _ c rest ht =>
    obtain ⟨h₁, h₂, h₃, h₄, h₅, h₆⟩ := SameBooks.deliver now ht
    exact ⟨h₁, h₂, h₃, h₄, h₅, h₆⟩
  | drop => exact ⟨rfl, rfl, rfl, rfl, rfl, fun _ => rfl⟩
  | join => exact ⟨rfl, rfl, rfl, rfl, rfl, fun _ => rfl⟩
  | @take t rest ht =>
    obtain ⟨h₁, h₂, h₃, h₄, h₅, h₆⟩ := SameBooks.deliver now ht
    exact ⟨h₁, h₂, h₃, h₄, h₅, h₆⟩

/-- Workers only ever leave their lines, from the front. -/
theorem suffix_pool (h : Shift now s hand log s' hand') (lane : Lane) :
    s'.pool.line lane <:+ s.pool.line lane := by
  cases h with
  | @give t dead c rest _ _ _ hline =>
    simp only [handTo, setWorkers, Lanes.line_setLine, deliver]
    split
    · next h => exact h ▸ hline ▸ ⟨dead ++ [c], by simp⟩
    · exact List.suffix_rfl
  | drop =>
    simp only [setWorkers, Lanes.line_setLine]
    split
    · exact List.nil_suffix
    · exact List.suffix_rfl
  | join => exact List.suffix_rfl
  | take => exact List.suffix_rfl

/-- A worker's waiting side changes only when the worker is given a task, and then the worker stood
in its line, and those before it have left it too. -/
theorem handed (h : Shift now s hand log s' hand') (c : ConnectionId) :
    (handedTo c log = [] ∧ s'.polls.sides[c]? = s.polls.sides[c]?) ∨
      ∃ t dead rest, handedTo c log = [t] ∧ s.polls.isOpen c = true ∧
        s'.polls.sides[c]? = some (.holding [t]) ∧ s.pool.line t.lane = dead ++ c :: rest ∧
        s'.pool.line t.lane = rest := by
  cases h with
  | @give t dead d rest _ _ _ hline _ hopen =>
    by_cases h : d = c
    · subst h
      refine Or.inr ⟨t.dispatch, dead, rest, by simp [handedTo], hopen, ?_, hline, ?_⟩
      · simp [handTo, setWorkers]
      · exact Lanes.line_setLine_self ..
    · refine Or.inl ⟨by simp [handedTo, h], ?_⟩
      simp [handTo, setWorkers, deliver, Std.ExtTreeMap.getElem?_insert, h]
  | drop => exact Or.inl ⟨rfl, rfl⟩
  | join => exact Or.inl ⟨rfl, rfl⟩
  | take => exact Or.inl ⟨handedTo_map_none c [_], rfl⟩

/-- A waiting side that is open afterwards was open before. -/
theorem isOpen_before (h : Shift now s hand log s' hand') {c : ConnectionId}
    (hopen : s'.polls.isOpen c = true) : s.polls.isOpen c = true := by
  rcases h.handed c with ⟨-, hsame⟩ | ⟨_, _, _, -, hbefore, -⟩
  · simpa only [Switchboard.isOpen, hsame] using hopen
  · exact hbefore

/-- Only workers that have left or are given a task leave their lines. -/
theorem stands (h : Shift now s hand log s' hand') {lane : Lane} {c : ConnectionId}
    (hin : c ∈ s.pool.line lane) (hopen : s'.polls.isOpen c = true) : c ∈ s'.pool.line lane := by
  have hbefore := h.isOpen_before hopen
  cases h with
  | @give t dead d rest _ _ _ hline hdead _ =>
    simp only [handTo, setWorkers, Lanes.line_setLine, deliver]
    split
    · next hlane =>
      rw [← hlane, hline] at hin
      rcases List.mem_append.mp hin with hin | hin
      · rw [hdead c hin] at hbefore
        cases hbefore
      · rcases List.mem_cons.mp hin with rfl | hin
        · simp [handTo, setWorkers, Switchboard.isOpen] at hopen
        · exact hin
    · exact hin
  | drop _ _ hall =>
    simp only [setWorkers, Lanes.line_setLine]
    split
    · next hlane =>
      rw [hall c (hlane ▸ hin)] at hbefore
      cases hbefore
    · exact hin
  | join => exact hin
  | take => exact hin

theorem polls_next (h : Shift now s hand log s' hand') : s'.polls.next = s.polls.next := by
  cases h <;> rfl

/-- A delivery that is under way was so before, or its task has just been given out. -/
theorem inFlight (h : Shift now s hand log s' hand') {id : TaskId} {lease : Option Instant}
    (hid : s'.inFlight[id]? = some lease) :
    s.inFlight[id]? = some lease ∨
      ∃ t, s.tasks[id]? = some t ∧ lease = s.leaseEnd? now t := by
  cases h with
  | @give t _ c rest ht =>
    simp only [handTo, setWorkers, Scheduler.deliver, Std.ExtTreeMap.getElem?_insert] at hid
    split at hid
    · next heq =>
      rw [Std.LawfulEqOrd.compare_eq_iff_eq] at heq
      exact Or.inr ⟨t, heq ▸ ht, (Option.some.inj hid).symm⟩
    · exact Or.inl hid
  | drop => exact Or.inl hid
  | join => exact Or.inl hid
  | @take t rest ht =>
    simp only [Scheduler.deliver, Std.ExtTreeMap.getElem?_insert] at hid
    split at hid
    · next heq =>
      rw [Std.LawfulEqOrd.compare_eq_iff_eq] at heq
      exact Or.inr ⟨t, heq ▸ ht, (Option.some.inj hid).symm⟩
    · exact Or.inl hid

/-- A task is fresh until a worker is given it. -/
theorem freshIn_iff (h : Shift now s hand log s' hand') {lane : Lane} {id : TaskId} :
    s'.FreshIn lane id ↔ s.FreshIn lane id ∧ ∀ g ∈ log, g.task.id ≠ id := by
  have hgiven : ∀ t : Task, (∃ u, (s.tasks.insert t.id t.dispatch)[id]? = some u ∧
      u.lane = lane ∧ u.deliveries = 0) ↔ s.FreshIn lane id ∧ t.id ≠ id := by
    intro t
    rw [Std.ExtTreeMap.getElem?_insert, FreshIn]
    by_cases h : t.id = id
    · simp [h, Task.dispatch]
    · simp [h]
  cases h with
  | give => simpa [FreshIn, handTo, setWorkers, deliver, Task.dispatch] using hgiven _
  | drop => simp [FreshIn, setWorkers]
  | join => simp [FreshIn]
  | take => simpa [FreshIn, deliver, Task.dispatch] using hgiven _

/-- What workers are given is in the table, as it was given. -/
theorem task_of_mem (h : Shift now s hand log s' hand') {g : Handover} (hg : g ∈ log) :
    s'.tasks[g.task.id]? = some g.task := by
  cases h with
  | @give t dead d rest ht =>
    obtain rfl := List.mem_singleton.mp hg
    simp [handTo, setWorkers, deliver, Task.dispatch]
  | @take t rest ht =>
    obtain rfl := List.mem_singleton.mp hg
    simp [deliver, Task.dispatch]
  | drop => cases hg
  | join => cases hg

/-- Tasks leave their lines only for workers. -/
theorem mem_line (h : Shift now s hand log s' hand') {lane : Lane} {id : TaskId}
    (hid : id ∈ s.queues.line lane) :
    id ∈ s'.queues.line lane ∨ ∃ g ∈ log, g.task.id = id := by
  cases h with
  | give => exact Or.inl hid
  | drop => exact Or.inl hid
  | @join t xs _ _ _ hxs =>
    refine Or.inl ?_
    rw [Lanes.line_setLine]
    split
    · next h =>
      subst h
      rcases hxs with ⟨-, -, rfl⟩ | ⟨-, rfl⟩
      · exact List.mem_append_left _ hid
      · exact List.mem_cons_of_mem _ hid
    · exact hid
  | @take t rest _ hline =>
    simp only [deliver, Lanes.line_setLine]
    split
    · next h =>
      subst h
      rw [hline] at hid
      rcases List.mem_cons.mp hid with rfl | hid
      · exact Or.inr ⟨_, List.mem_singleton_self _, rfl⟩
      · exact Or.inl hid
    · exact Or.inl hid

/-- Other tasks stay as they are. -/
theorem unchanged (h : Shift now s hand log s' hand') {id : TaskId} (hid : id ∉ handedOver log) :
    s'.tasks[id]? = s.tasks[id]? ∧ s'.inFlight[id]? = s.inFlight[id]? := by
  cases h with
  | @give t =>
    have hne : t.id ≠ id := by simpa [handedOver, Task.dispatch, eq_comm] using hid
    simp [handTo, setWorkers, deliver, Std.ExtTreeMap.getElem?_insert, hne]
  | drop => exact ⟨rfl, rfl⟩
  | join => exact ⟨rfl, rfl⟩
  | @take t =>
    have hne : t.id ≠ id := by simpa [handedOver, Task.dispatch, eq_comm] using hid
    simp [deliver, Std.ExtTreeMap.getElem?_insert, hne]

/-- What a worker is given that waited comes out of the hand. -/
theorem mem_hand_of_mem (h : Shift now s hand log s' hand') {g : Handover} (hg : g ∈ log)
    {c : ConnectionId} (hc : g.receiver = some c) : g.task.id ∈ hand := by
  cases h with
  | give _ hh =>
    obtain rfl := List.mem_singleton.mp hg
    exact hh
  | take =>
    obtain rfl := List.mem_singleton.mp hg
    cases hc
  | drop => cases hg
  | join => cases hg

theorem subset_hand (h : Shift now s hand log s' hand') : hand' ⊆ hand := by
  cases h with
  | give => exact Finset.erase_subset ..
  | join => exact Finset.erase_subset ..
  | drop => exact Finset.Subset.refl _
  | take => exact Finset.Subset.refl _

theorem log_cases (h : Shift now s hand log s' hand') : log = [] ∨ ∃ g, log = [g] := by
  cases h <;> simp

/-- What workers are given waited until then. -/
theorem queued_of_mem (h : Shift now s hand log s' hand') (hp : Placed s hand) {g : Handover}
    (hg : g ∈ log) :
    ∃ t, s.tasks[g.task.id]? = some t ∧ t.state = .queued ∧ g.task = t.dispatch := by
  cases h with
  | @give t _ c _ ht hh =>
    obtain rfl := List.mem_singleton.mp hg
    obtain ⟨u, hu, hq⟩ := hp.inHand hh
    rw [ht] at hu
    cases hu
    exact ⟨t, ht, hq, rfl⟩
  | @take t rest ht hline =>
    obtain rfl := List.mem_singleton.mp hg
    obtain ⟨-, u, hu, hq, -⟩ := hp.inLine (hline ▸ List.mem_cons_self ..)
    rw [ht] at hu
    cases hu
    exact ⟨t, ht, hq, rfl⟩
  | drop => cases hg
  | join => cases hg

/-- What workers are given was with none of them. -/
theorem not_inFlight_of_mem (h : Shift now s hand log s' hand') (hp : Placed s hand) {g : Handover}
    (hg : g ∈ log) : g.task.id ∉ s.inFlight := by
  obtain ⟨t, ht, hq, hcopy⟩ := h.queued_of_mem hp hg
  have hid : g.task.id = t.id := by rw [hcopy]; rfl
  rw [hid] at ht ⊢
  exact hp.not_inFlight ht hq

/-- What workers have stays with them, and they have what they are given. -/
theorem inFlight_iff (h : Shift now s hand log s' hand') {id : TaskId} :
    id ∈ s'.inFlight ↔ id ∈ s.inFlight ∨ ∃ g ∈ log, g.task.id = id := by
  cases h with
  | give => simp [handTo, setWorkers, deliver, Task.dispatch, Std.ExtTreeMap.mem_insert, or_comm]
  | drop => simp [setWorkers]
  | join => simp
  | take => simp [deliver, Task.dispatch, Std.ExtTreeMap.mem_insert, or_comm]

end Shift

/-! ### Runs of shifts -/

namespace Shifts

theorem single (h : Shift now s hand log s' hand') : Shifts now s hand log s' hand' :=
  tail refl h

theorem trans (h : Shifts now s hand log s' hand') (h' : Shifts now s' hand' more s'' hand'') :
    Shifts now s hand (log ++ more) s'' hand'' := by
  induction h' with
  | refl => simpa using h
  | tail _ hshift ih => simpa using tail ih hshift

theorem placed (h : Shifts now s hand log s' hand') (hp : Placed s hand) : Placed s' hand' := by
  induction h with
  | refl => exact hp
  | tail _ hshift ih => exact hshift.placed ih

theorem books (h : Shifts now s hand log s' hand') : SameBooks s s' := by
  induction h with
  | refl => exact .refl s
  | tail _ hshift ih => exact ih.trans hshift.books

theorem suffix_pool (h : Shifts now s hand log s' hand') (lane : Lane) :
    s'.pool.line lane <:+ s.pool.line lane := by
  induction h with
  | refl => exact List.suffix_rfl
  | tail _ hshift ih => exact (hshift.suffix_pool lane).trans ih

/-- What workers were given is in the table. -/
theorem task_of_mem (h : Shifts now s hand log s' hand') {g : Handover} (hg : g ∈ log) :
    ∃ t, s'.tasks[g.task.id]? = some t ∧ t.asAccepted = g.task.asAccepted := by
  induction h with
  | refl => cases hg
  | tail _ hshift ih =>
    rcases List.mem_append.mp hg with hg | hg
    · obtain ⟨t, ht, hsame⟩ := ih hg
      obtain ⟨u, hu, hsame'⟩ := hshift.books.task ht
      exact ⟨u, hu, hsame'.trans hsame⟩
    · exact ⟨g.task, hshift.task_of_mem hg, rfl⟩

theorem mem_line (h : Shifts now s hand log s' hand') {lane : Lane} {id : TaskId}
    (hid : id ∈ s.queues.line lane) :
    id ∈ s'.queues.line lane ∨ ∃ g ∈ log, g.task.id = id := by
  induction h with
  | refl => exact Or.inl hid
  | tail _ hshift ih =>
    rcases ih with hin | ⟨g, hg, hid⟩
    · refine (hshift.mem_line hin).imp_right ?_
      rintro ⟨g, hg, hid⟩
      exact ⟨g, List.mem_append_right _ hg, hid⟩
    · exact Or.inr ⟨g, List.mem_append_left _ hg, hid⟩

theorem unchanged (h : Shifts now s hand log s' hand') {id : TaskId} (hid : id ∉ handedOver log) :
    s'.tasks[id]? = s.tasks[id]? ∧ s'.inFlight[id]? = s.inFlight[id]? := by
  induction h with
  | refl => exact ⟨rfl, rfl⟩
  | tail _ hshift ih =>
    rw [handedOver_append, List.mem_append, not_or] at hid
    obtain ⟨htasks, hflight⟩ := hshift.unchanged hid.2
    obtain ⟨htasks', hflight'⟩ := ih hid.1
    exact ⟨htasks.trans htasks', hflight.trans hflight'⟩

theorem subset_hand (h : Shifts now s hand log s' hand') : hand' ⊆ hand := by
  induction h with
  | refl => exact Finset.Subset.refl _
  | tail _ hshift ih => exact hshift.subset_hand.trans ih

theorem mem_hand_of_mem (h : Shifts now s hand log s' hand') {g : Handover} (hg : g ∈ log)
    {c : ConnectionId} (hc : g.receiver = some c) : g.task.id ∈ hand := by
  induction h with
  | refl => cases hg
  | tail hshifts hshift ih =>
    rcases List.mem_append.mp hg with hg | hg
    · exact ih hg
    · exact hshifts.subset_hand (hshift.mem_hand_of_mem hg hc)

/-- A handover is one shift of a run, and the others are those before and after it. -/
theorem split (h : Shifts now s hand log s' hand') : ∀ {pre post : List Handover} {g : Handover},
    log = pre ++ g :: post → ∃ s₁ hand₁ s₂ hand₂, Shifts now s hand pre s₁ hand₁ ∧
      Shift now s₁ hand₁ [g] s₂ hand₂ ∧ Shifts now s₂ hand₂ post s' hand' := by
  induction h with
  | refl => simp
  | tail hshifts hshift ih =>
    intro pre post g hlog
    rcases hshift.log_cases with rfl | ⟨x, rfl⟩
    · rw [List.append_nil] at hlog
      obtain ⟨s₁, hand₁, s₂, hand₂, hpre, hg, hpost⟩ := ih hlog
      exact ⟨s₁, hand₁, s₂, hand₂, hpre, hg, by simpa using hpost.tail hshift⟩
    · rcases List.eq_nil_or_concat post with rfl | ⟨post, y, rfl⟩
      · obtain ⟨rfl, hx⟩ := List.append_inj' hlog rfl
        obtain rfl : x = g := by simpa using hx
        exact ⟨_, _, _, _, hshifts, hshift, refl⟩
      · rw [List.concat_eq_append, ← List.cons_append, ← List.append_assoc] at hlog
        obtain ⟨hrest, hx⟩ := List.append_inj' hlog rfl
        obtain rfl : x = y := by simpa using hx
        obtain ⟨s₁, hand₁, s₂, hand₂, hpre, hg, hpost⟩ := ih hrest
        exact ⟨s₁, hand₁, s₂, hand₂, hpre, hg, by simpa using hpost.tail hshift⟩

/-- A worker is given one task at most: its waiting side is open until then and never after. -/
theorem handed (h : Shifts now s hand log s' hand') (c : ConnectionId) :
    (handedTo c log = [] ∧ s'.polls.sides[c]? = s.polls.sides[c]?) ∨
      ∃ t dead rest, handedTo c log = [t] ∧ s.polls.isOpen c = true ∧
        s'.polls.sides[c]? = some (.holding [t]) ∧ dead ++ c :: rest <:+ s.pool.line t.lane ∧
        s'.pool.line t.lane <:+ rest := by
  induction h with
  | refl => exact Or.inl ⟨rfl, rfl⟩
  | @tail log more s' s'' _ _ hshifts hshift ih =>
    rw [handedTo_append]
    rcases hshift.handed c with ⟨hnone, hside⟩ | ⟨t, dead, rest, hlog, hopen, hside, hline, hrest⟩
    · rw [hnone, List.append_nil, hside]
      refine ih.imp_right ?_
      rintro ⟨t, dead, rest, hlog, hopen, hholds, hline, hrest⟩
      exact ⟨t, dead, rest, hlog, hopen, hholds, hline, (hshift.suffix_pool _).trans hrest⟩
    · -- A side that holds something is not open, so this worker was given nothing before.
      rcases ih with ⟨hlog', hsame⟩ | ⟨_, _, _, _, _, hholds, _⟩
      · refine Or.inr ⟨t, dead, rest, by rw [hlog', hlog, List.nil_append], ?_, hside, ?_, ?_⟩
        · simpa only [Switchboard.isOpen, hsame] using hopen
        · exact hline ▸ hshifts.suffix_pool t.lane
        · exact hrest ▸ List.suffix_rfl
      · simp [Switchboard.isOpen, hholds] at hopen

theorem isOpen_before (h : Shifts now s hand log s' hand') {c : ConnectionId}
    (hopen : s'.polls.isOpen c = true) : s.polls.isOpen c = true := by
  induction h with
  | refl => exact hopen
  | tail _ hshift ih => exact ih (hshift.isOpen_before hopen)

theorem stands (h : Shifts now s hand log s' hand') {lane : Lane} {c : ConnectionId}
    (hin : c ∈ s.pool.line lane) (hopen : s'.polls.isOpen c = true) : c ∈ s'.pool.line lane := by
  induction h with
  | refl => exact hin
  | tail _ hshift ih => exact hshift.stands (ih (hshift.isOpen_before hopen)) hopen

theorem freshIn_iff (h : Shifts now s hand log s' hand') {lane : Lane} {id : TaskId} :
    s'.FreshIn lane id ↔ s.FreshIn lane id ∧ ∀ g ∈ log, g.task.id ≠ id := by
  induction h with
  | refl => simp
  | tail _ hshift ih =>
    rw [hshift.freshIn_iff, ih, and_assoc]
    simp only [List.mem_append, or_imp, forall_and]

theorem polls_next (h : Shifts now s hand log s' hand') : s'.polls.next = s.polls.next := by
  induction h with
  | refl => rfl
  | tail _ hshift ih => exact hshift.polls_next.trans ih

theorem inFlight_iff (h : Shifts now s hand log s' hand') {id : TaskId} :
    id ∈ s'.inFlight ↔ id ∈ s.inFlight ∨ ∃ g ∈ log, g.task.id = id := by
  induction h with
  | refl => simp
  | tail _ hshift ih =>
    rw [hshift.inFlight_iff, ih]
    simp only [List.mem_append, or_and_right, exists_or, or_assoc]

/-- Workers are given no task that one of them has. -/
theorem not_inFlight_of_mem (h : Shifts now s hand log s' hand') (hp : Placed s hand)
    {g : Handover} (hg : g ∈ log) : g.task.id ∉ s.inFlight := by
  induction h with
  | refl => cases hg
  | tail hshifts hshift ih =>
    rcases List.mem_append.mp hg with hg | hg
    · exact ih hg
    · have hnot := hshift.not_inFlight_of_mem (hshifts.placed hp) hg
      rw [hshifts.inFlight_iff, not_or] at hnot
      exact hnot.1

/-- What workers are given is in the table as it was given, and waited until then. -/
theorem copy_of_mem (h : Shifts now s hand log s' hand') (hp : Placed s hand) {g : Handover}
    (hg : g ∈ log) : s'.tasks[g.task.id]? = some g.task ∧
      ∃ t, s.tasks[g.task.id]? = some t ∧ t.state = .queued ∧ g.task = t.dispatch := by
  induction h with
  | refl => cases hg
  | @tail log more s' s'' _ _ hshifts hshift ih =>
    have hp' := hshifts.placed hp
    rcases List.mem_append.mp hg with hg | hg
    · obtain ⟨hentry, hqueued⟩ := ih hg
      -- It is in flight now, so the next shift is about another task.
      have hnot : g.task.id ∉ handedOver more := by
        intro hmem
        obtain ⟨g', hg', hid⟩ := mem_handedOver.mp hmem
        have hflight := hshifts.inFlight_iff.mpr (Or.inr ⟨g, hg, rfl⟩)
        exact hshift.not_inFlight_of_mem hp' hg' (hid ▸ hflight)
      exact ⟨(hshift.unchanged hnot).1.trans hentry, hqueued⟩
    · obtain ⟨t, ht, hq, hcopy⟩ := hshift.queued_of_mem hp' hg
      have hnot : g.task.id ∉ handedOver log := fun hmem => by
        have hflight := hshifts.inFlight_iff.mpr (Or.inr (mem_handedOver.mp hmem))
        exact hshift.not_inFlight_of_mem hp' hg hflight
      exact ⟨hshift.task_of_mem hg, t, (hshifts.unchanged hnot).1 ▸ ht, hq, hcopy⟩

/-- What is in hand still was given to nobody. -/
theorem freshIn_of_mem (h : Shifts now s hand log s' hand') (hp : Placed s hand) {lane : Lane}
    {id : TaskId} (hid : id ∈ hand') (hfresh : s.FreshIn lane id) : s'.FreshIn lane id := by
  refine h.freshIn_iff.mpr ⟨hfresh, ?_⟩
  rintro g hg rfl
  obtain ⟨t, ht, hq⟩ := (h.placed hp).inHand hid
  obtain ⟨u, hu, hf⟩ := (h.placed hp).inFlight.mp (h.inFlight_iff.mpr (Or.inr ⟨g, hg, rfl⟩))
  rw [ht] at hu
  cases hu
  rw [hq] at hf
  cases hf

/-- No task is given out twice. -/
theorem nodup_log (h : Shifts now s hand log s' hand') (hp : Placed s hand) :
    (log.map (·.task.id)).Nodup := by
  induction h with
  | refl => exact List.nodup_nil
  | @tail log more s' s'' _ _ hshifts hshift ih =>
    rw [List.map_append, List.nodup_append']
    refine ⟨ih, ?_, ?_⟩
    · cases hshift <;> simp
    · intro id hlog hmore
      obtain ⟨g, hg, rfl⟩ := List.mem_map.mp hmore
      have hnot := hshift.not_inFlight_of_mem (hshifts.placed hp) hg
      rw [hshifts.inFlight_iff, not_or] at hnot
      exact hnot.2 (List.mem_map.mp hlog)

end Shifts

end TaskExchange.Scheduler
