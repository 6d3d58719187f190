import TaskExchange.Proofs.Order

/-!
Precedence: what a run hands over to workers, and in which order.  Main statement:
`firstInFirstOut_run`.  In every run a task is given to a worker only after all tasks of its lane
that were accepted earlier, a task that came back from a worker is given out before any task that
no worker was ever given, and each line stands ready for that.
-/

namespace TaskExchange.Scheduler

/-- The handovers of some events. -/
def handoversOf (past : List Event) : List Handover := past.flatMap (·.handovers)

/-- First in, first out, in a run with these events and this last state. -/
structure FirstInFirstOut (trace : List Event) (last : Scheduler) : Prop where
  /-- A worker that polls and need not wait is told what is handed over, in this order. -/
  polled : ∀ e ∈ trace, ∀ tasks, e.outcome = .polled (.dispatched tasks) →
    e.handovers = tasks.map (⟨·, none⟩)
  atOnce : ∀ e ∈ trace, ∀ t, ⟨t, none⟩ ∈ e.handovers →
    ∃ tasks, e.outcome = .polled (.dispatched tasks)
  /-- A worker that waits finds what is handed over to it, and nothing else. -/
  received : ∀ e ∈ trace, ∀ c tasks,
    (e.after.polls.held? c = some tasks ∧ e.before.polls.held? c ≠ some tasks) ↔
      ∃ t, tasks = [t] ∧ ⟨t, some c⟩ ∈ e.handovers
  /-- Whenever a task is handed over, those of its lane that are there and were accepted earlier
  have been handed over, be it by the same event. -/
  first : ∀ past e future, trace = past ++ e :: future →
    ∀ pre g post, e.handovers = pre ++ g :: post →
      ∀ id t, e.after.roll? id = some t → t.lane = g.task.lane → id.value < g.task.id.value →
        id ∈ handedOver (handoversOf past ++ pre)
  /-- Whenever a task is handed over for the first time, those that stood in its line and had been
  handed over before have been handed over again, if they are still there. -/
  again : ∀ past e future, trace = past ++ e :: future →
    ∀ pre g post, e.handovers = pre ++ g :: post →
      g.task.id ∉ handedOver (handoversOf past ++ pre) →
        ∀ id ∈ e.before.queues.line g.task.lane, id ∈ handedOver (handoversOf past) →
          id ∈ e.after.tasks → id ∈ handedOver pre
  /-- The deliveries of a task tell whether it was handed over. -/
  given : ∀ id t, last.tasks[id]? = some t →
    (1 ≤ t.deliveries ↔ id ∈ handedOver (handoversOf trace))
  /-- Tasks that were handed over stand before the others, which stand in order of acceptance and
  are younger. -/
  line : ∀ lane, ∃ again fresh, last.queues.line lane = again ++ fresh ∧
    (∀ id ∈ again, ∃ t, last.tasks[id]? = some t ∧ 1 ≤ t.deliveries) ∧
    (∀ id ∈ fresh, ∃ t, last.tasks[id]? = some t ∧ t.deliveries = 0) ∧
    fresh.Pairwise (·.value < ·.value) ∧ ∀ a ∈ again, ∀ b ∈ fresh, a.value < b.value

variable {now : Moment} {s s' mid : Scheduler} {hand hand' : Finset TaskId}
  {log more : List Handover} {past : List Event} {e : Event} {id : TaskId} {t : Task}

/-! ### The handovers of some events -/

@[simp] theorem handoversOf_nil : handoversOf [] = [] := rfl

@[simp] theorem handoversOf_cons (e : Event) (events : List Event) :
    handoversOf (e :: events) = e.handovers ++ handoversOf events := List.flatMap_cons

@[simp] theorem handoversOf_append (events more : List Event) :
    handoversOf (events ++ more) = handoversOf events ++ handoversOf more := List.flatMap_append

theorem handoversOf_concat (past : List Event) (e : Event) :
    handoversOf (past ++ [e]) = handoversOf past ++ e.handovers := by
  simp

/-! ### Handovers are counted as deliveries -/

/-- The tasks that were given to workers are those with deliveries. -/
structure Logged (log : List Handover) (s : Scheduler) : Prop where
  given : ∀ {id : TaskId} {t : Task}, s.tasks[id]? = some t →
    (t.deliveries = 0 ↔ id ∉ handedOver log)
  below : ∀ {id : TaskId}, id ∈ handedOver log → id.value < s.nextId.value

theorem Logged.new (limits : Limits) : Logged [] (.new limits) := by
  constructor <;> simp [Scheduler.new, handedOver]

theorem Logged.freshIn_iff (hl : Logged log s) (ht : s.tasks[id]? = some t) :
    s.FreshIn t.lane id ↔ id ∉ handedOver log := by
  rw [← hl.given ht]
  exact ⟨fun h => (freshIn_lane h ht).2, fun hzero => ⟨t, ht, rfl, hzero⟩⟩

theorem Shifts.logged (h : Shifts now s hand more s' hand') (hs : Sound s hand)
    (hl : Logged log s) : Logged (log ++ more) s' := by
  have hmore : ∀ id, (∀ g ∈ more, g.task.id ≠ id) ↔ id ∉ handedOver more := by
    simp [mem_handedOver]
  constructor
  · intro id t' ht'
    obtain ⟨t, ht, hsame⟩ := h.books.symm.task ht'
    have hfresh : t'.deliveries = 0 ↔ s'.FreshIn t.lane id := by
      rw [t.lane_eq_of_asAccepted hsame]
      exact ⟨fun hzero => ⟨t', ht', rfl, hzero⟩, fun h => (freshIn_lane h ht').2⟩
    rw [hfresh, h.freshIn_iff, hl.freshIn_iff ht, hmore, handedOver_append, List.mem_append,
      not_or]
  · intro id hid
    rw [handedOver_append, List.mem_append] at hid
    rcases hid with hid | hid
    · exact h.books.nextId ▸ hl.below hid
    · obtain ⟨g, hg, rfl⟩ := mem_handedOver.mp hid
      obtain ⟨t, ht, -⟩ := h.task_of_mem hg
      exact ((h.sound hs).numbered.below (mem_tasks ht)).2

theorem Renewal.logged (h : Renewal s mid hand) (hnext : s.nextId.value ≤ mid.nextId.value)
    (hl : Logged log s) : Logged log mid := by
  constructor
  · intro id t ht
    rcases h.task ht with ⟨u, hu, -, hdeliveries⟩ | ⟨hnew, hzero⟩
    · rw [← hdeliveries, hl.given hu]
    · simp only [hzero, true_iff]
      intro hid
      have hbelow := hl.below hid
      omega
  · intro id hid
    exact Nat.lt_of_lt_of_le (hl.below hid) hnext

/-! ### Every state that is reached is in order -/

/-- All that holds of a state that is reached by some events. -/
structure Orderly (past : List Event) (s : Scheduler) : Prop where
  sound : Sound s ∅
  idle : NoIdleWorker s
  order : InOrder s ∅
  logged : Logged (handoversOf past) s

/-- After its entry an event finds everything in order, and nothing more was handed over. -/
theorem Orderly.entered (ho : Orderly past e.before) (he : e.Explained mid) :
    Sound mid e.hand ∧ NoIdleWorker mid ∧ InOrder mid e.hand ∧ Logged (handoversOf past) mid := by
  have hmid := he.enters.sound ho.sound
  have hrenewal := he.enters.renewal ho.sound
  have hnext := (he.enters.numbers ho.sound).2
  exact ⟨hmid, he.enters.noIdleWorker ho.sound ho.idle,
    hrenewal.inOrder ho.sound hmid.placed ho.order, hrenewal.logged (by omega) ho.logged⟩

theorem Orderly.after (ho : Orderly past e.before) : Orderly (past ++ [e]) e.after := by
  obtain ⟨mid, he⟩ := e.enters ho.sound
  obtain ⟨hmid, hidle, horder, hlogged⟩ := ho.entered he
  refine ⟨he.shifts.sound hmid, he.shifts.noIdleWorker hidle,
    he.shifts.inOrder hmid.placed hidle horder, ?_⟩
  rw [handoversOf_concat]
  exact he.shifts.logged hmid hlogged

theorem orderly_run (limits : Limits) (steps : List (Moment × Operation)) :
    Orderly ((new limits).trace steps) ((new limits).run steps) :=
  trace_induction (P := Orderly)
    ⟨.new limits, fun lane => Or.inl (Lanes.line_empty lane), .new limits, .new limits⟩
    fun _ _ ho => ho.after

/-- What holds of all states that are reached holds before every event. -/
theorem orderly_before {limits : Limits} {steps : List (Moment × Operation)} {future : List Event}
    (h : (new limits).trace steps = past ++ e :: future) : Orderly past e.before := by
  obtain ⟨xs, -, rfl, hbefore, -⟩ := trace_split h
  exact hbefore ▸ orderly_run limits xs

/-! ### Handovers in order -/

section

variable {pre post : List Handover} {g : Handover} (ho : Orderly past e.before)
  (hlog : e.handovers = pre ++ g :: post)

include ho hlog

theorem Orderly.first (ht : e.after.roll? id = some t) (hlane : t.lane = g.task.lane)
    (hid : id.value < g.task.id.value) : id ∈ handedOver (handoversOf past ++ pre) := by
  obtain ⟨mid, he⟩ := e.enters ho.sound
  obtain ⟨hmid, hidle, horder, hlogged⟩ := ho.entered he
  obtain ⟨s₁, hand₁, s₂, hand₂, hpre, hg, hpost⟩ := he.shifts.split hlog
  have hfront : Shifts e.now mid e.hand (pre ++ [g]) s₂ hand₂ := hpre.tail hg
  have horder₂ := hfront.inOrder hmid.placed hidle horder
  have hlogged₂ := hfront.logged hmid hlogged
  rw [hpost.books.roll? id] at ht
  obtain ⟨u, hu, rfl⟩ := Option.map_eq_some_iff.mp ht
  by_contra hnot
  -- If the older task were fresh still, the other one could not have been given out before it.
  have hfresh : s₂.FreshIn g.task.lane id := by
    rw [← hlane]
    refine (hlogged₂.freshIn_iff hu).mpr fun hin => hnot ?_
    rw [← List.append_assoc, handedOver_append, List.mem_append] at hin
    rcases hin with hin | hin
    · exact hin
    · obtain rfl : id = g.task.id := by simpa [handedOver] using hin
      exact absurd hid (Nat.lt_irrefl _)
  have hgiven : s₂.tasks[g.task.id]? = some g.task := hg.task_of_mem (List.mem_singleton_self g)
  have hpos : 0 < g.task.deliveries := by
    refine Nat.pos_of_ne_zero fun hzero => (hlogged₂.given hgiven).mp hzero ?_
    simp [handedOver]
  have hlt := horder₂.older hgiven hpos id hfresh
  omega

theorem Orderly.again (hnew : g.task.id ∉ handedOver (handoversOf past ++ pre))
    (hline : id ∈ e.before.queues.line g.task.lane) (hgiven : id ∈ handedOver (handoversOf past))
    (hid : id ∈ e.after.tasks) : id ∈ handedOver pre := by
  obtain ⟨mid, he⟩ := e.enters ho.sound
  obtain ⟨hmid, hidle, horder, hlogged⟩ := ho.entered he
  obtain ⟨s₁, hand₁, s₂, hand₂, hpre, hg, -⟩ := he.shifts.split hlog
  have hs₁ := hpre.sound hmid
  have horder₁ := hpre.inOrder hmid.placed hidle horder
  have hlogged₁ := hpre.logged hmid hlogged
  have hline' := (he.enters.renewal ho.sound).stays hline (he.shifts.books.mem.mp hid)
  rcases hpre.mem_line hline' with hin | hin
  · -- A task that stands in line when a fresh one of its lane is given out is fresh itself.
    have hfresh : s₁.FreshIn g.task.lane id := by
      cases hg with
      | @give t dead c rest ht _ _ hwaiting =>
        have hempty : s₁.queues.line t.lane = [] :=
          (hpre.noIdleWorker hidle t.lane).resolve_right (by simp [hwaiting])
        rw [show (t.dispatch).lane = t.lane from rfl, hempty] at hin
        cases hin
      | @take t rest ht hhead =>
        change s₁.FreshIn t.lane id
        change id ∈ s₁.queues.line t.lane at hin
        have hfirst : s₁.FreshIn t.lane t.id := (hlogged₁.freshIn_iff ht).mpr hnew
        have hpairs := horder₁.line t.lane
        rw [hhead] at hin hpairs
        rcases List.mem_cons.mp hin with rfl | hin
        · exact hfirst
        · exact ((List.pairwise_cons.mp hpairs).1 id hin hfirst).1
    obtain ⟨u, hu, hlane, -⟩ := hpre.freshIn_iff.mp hfresh |>.1
    have hnot := (hlogged.freshIn_iff hu).mp (hlane ▸ (hpre.freshIn_iff.mp hfresh).1)
    exact absurd hgiven hnot
  · exact mem_handedOver.mpr hin

end

/-! ### Lines -/

/-- A list in which a property passes on to all that follows falls into a part without it and a part
with it. -/
theorem exists_split_of_pairwise {α : Type} {p : α → Prop} {r : α → α → Prop} : ∀ {xs : List α},
    xs.Pairwise (fun a b => p a → p b ∧ r a b) →
    ∃ front back, xs = front ++ back ∧ (∀ a ∈ front, ¬ p a) ∧ (∀ b ∈ back, p b) ∧
      back.Pairwise r
  | [], _ => ⟨[], [], rfl, by simp, by simp, .nil⟩
  | x :: xs, h => by
    obtain ⟨hx, hxs⟩ := List.pairwise_cons.mp h
    obtain ⟨front, back, rfl, hfront, hback, hpairs⟩ := exists_split_of_pairwise hxs
    by_cases hp : p x
    · -- All that follow have the property, so there is nothing in front.
      have hall : ∀ a ∈ front ++ back, p a := fun a ha => (hx a ha hp).1
      cases front with
      | nil =>
        refine ⟨[], x :: back, rfl, by simp, ?_, List.pairwise_cons.mpr ⟨?_, hpairs⟩⟩
        · exact fun a ha => (List.mem_cons.mp ha).elim (fun h => h ▸ hp) (hback a)
        · exact fun a ha => (hx a ha hp).2
      | cons a front => exact absurd (hall a (by simp)) (hfront a (by simp))
    · refine ⟨x :: front, back, rfl, ?_, hback, hpairs⟩
      exact fun a ha => (List.mem_cons.mp ha).elim (fun h => h ▸ hp) (hfront a)

theorem Orderly.line (ho : Orderly past s) (lane : Lane) :
    ∃ again fresh, s.queues.line lane = again ++ fresh ∧
      (∀ id ∈ again, ∃ t, s.tasks[id]? = some t ∧ 1 ≤ t.deliveries) ∧
      (∀ id ∈ fresh, ∃ t, s.tasks[id]? = some t ∧ t.deliveries = 0) ∧
      fresh.Pairwise (·.value < ·.value) ∧ ∀ a ∈ again, ∀ b ∈ fresh, a.value < b.value := by
  obtain ⟨again, fresh, hline, hagain, hfresh, hpairs⟩ :=
    exists_split_of_pairwise (ho.order.line lane)
  have hgiven : ∀ id ∈ again, ∃ t, s.tasks[id]? = some t ∧ t.lane = lane ∧ 1 ≤ t.deliveries := by
    intro id hid
    have hin : id ∈ s.queues.line lane := hline ▸ List.mem_append_left _ hid
    obtain ⟨-, t, ht, -, hlane⟩ := ho.sound.placed.inLine hin
    exact ⟨t, ht, hlane, Nat.pos_of_ne_zero fun hzero => hagain id hid ⟨t, ht, hlane, hzero⟩⟩
  refine ⟨again, fresh, hline, ?_, ?_, hpairs, ?_⟩
  · intro id hid
    obtain ⟨t, ht, -, hpos⟩ := hgiven id hid
    exact ⟨t, ht, hpos⟩
  · intro id hid
    obtain ⟨t, ht, -, hzero⟩ := hfresh id hid
    exact ⟨t, ht, hzero⟩
  · intro a ha b hb
    obtain ⟨t, ht, hlane, hpos⟩ := hgiven a ha
    exact ho.order.older ht hpos b (hlane ▸ hfresh b hb)

/-- In every run tasks are handed over first in, first out, and those that come back go first. -/
theorem firstInFirstOut_run (limits : Limits) (steps : List (Moment × Operation)) :
    FirstInFirstOut ((new limits).trace steps) ((new limits).run steps) where
  polled e _ _ h := e.handovers_of_dispatched h
  atOnce e _ _ h := e.dispatched_of_mem h
  received e he c tasks := e.received (sound_of_mem_trace he)
  first _ _ _ hsplit _ _ _ hlog _ _ := (orderly_before hsplit).first hlog
  again _ _ _ hsplit _ _ _ hlog hnew _ := (orderly_before hsplit).again hlog hnew
  given id t ht := by
    rw [← not_iff_not, Nat.not_le, Nat.lt_one_iff]
    exact (orderly_run limits steps).logged.given ht
  line := (orderly_run limits steps).line

end TaskExchange.Scheduler
