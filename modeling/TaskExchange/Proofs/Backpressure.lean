import TaskExchange.Proofs.Census
import TaskExchange.Proofs.Counting
import TaskExchange.Proofs.Leasing

/-!
Backpressure: how long the lines of regional tasks get.  The bound is looked at only when a batch is
accepted, and tasks that come back from workers may push a line beyond it.  Main statement:
`backpressure_run`.  In every run the tasks of a category that wait and were never given to a worker
are within the bound at any time, the whole line is after each accepted batch, and a line grows only
by such a batch at its end and by tasks that come back at its head.
-/

namespace TaskExchange

/-- Holds of a regional task of a category that waits and was never given to a worker. -/
def Task.isNewIn (category : Category) (t : Task) : Bool :=
  t.kind = .regional && t.category = category && t.state = .queued && t.deliveries = 0

theorem Task.isNewIn_iff {category : Category} {t : Task} : t.isNewIn category = true ↔
    t.lane = ⟨.regional, category⟩ ∧ t.state = .queued ∧ t.deliveries = 0 := by
  simp [isNewIn, lane, and_assoc]

namespace Scheduler

/-- The line of a category is within its bound, but for tasks that come back from workers, in a run
with these events and this last state. -/
structure Backpressure (limits : Limits) (trace : List Event) (last : Scheduler) : Prop where
  fresh : ∀ category, (last.tasksWith (·.isNewIn category)).length ≤ limits.maxDepth
  /-- A batch is accepted only as far as there is room for it. -/
  accepted : ∀ e ∈ trace, ∀ requests ids, e.op = .enqueueBatch requests →
    e.outcome = .accepted ids → requests ≠ [] ∧ ∀ r ∈ requests,
      (e.after.queues.line ⟨.regional, r.category⟩).length ≤ limits.maxDepth
  /-- What is new in a line has come back from a worker and stands at the head, or it is of a batch
  of this category and stands at the end. -/
  grows : ∀ e ∈ trace, ∀ category, ∃ front kept back,
    e.after.queues.line ⟨.regional, category⟩ = front ++ kept ++ back ∧
      kept.Sublist (e.before.queues.line ⟨.regional, category⟩) ∧
      (∀ id ∈ front, id ∈ e.requeued) ∧
      ∀ id ∈ back, ∃ requests ids, e.op = .enqueueBatch requests ∧ e.outcome = .accepted ids ∧
        id ∈ ids ∧ ∀ r ∈ requests, r.category = category
  /-- Tasks come back that were in flight: their leases have ended, they are reported lost, or they
  were not read. -/
  returned : ∀ e ∈ trace, ∀ id ∈ e.requeued, id ∈ e.before.inFlight ∧
    ((∃ t, e.op = .requeueExpired t) ∨ e.op = .reportLost id ∨
      (∃ lane c, e.op = .abandonPoll lane c) ∨ ∃ tasks, e.op = .returnUndelivered tasks)

variable {now : Moment} {s s' mid : Scheduler} {hand hand' : Finset TaskId} {log : List Handover}
  {e : Event} {lane : Lane} {requests : List Request} {ids : List TaskId} {job : JobId}
  {category : Category} {id : TaskId} {t : Task}

/-! ### How a line changes -/

/-- A line loses some of its tasks, and out of the hand the fresh ones join it at the end and the
others at the head. -/
theorem Shifts.line_split (h : Shifts now s hand log s' hand') (hp : Placed s hand) (lane : Lane) :
    ∃ front kept back, s'.queues.line lane = front ++ kept ++ back ∧
      kept.Sublist (s.queues.line lane) ∧ (∀ id ∈ front, id ∈ hand ∧ ¬ s.FreshIn lane id) ∧
      ∀ id ∈ back, id ∈ hand ∧ s.FreshIn lane id := by
  induction h with
  | refl => exact ⟨[], s.queues.line lane, [], by simp, .refl _, by simp, by simp⟩
  | @tail log more s' s'' _ _ hshifts hshift ih =>
    obtain ⟨front, kept, back, hline, hkept, hfront, hback⟩ := ih
    cases hshift with
    | give => exact ⟨front, kept, back, hline, hkept, hfront, hback⟩
    | drop => exact ⟨front, kept, back, hline, hkept, hfront, hback⟩
    | @join t xs ht hh _ hxs =>
      have hin := hshifts.subset_hand hh
      rw [Lanes.line_setLine]
      split
      · next hlane =>
        subst hlane
        rcases hxs with ⟨hzero, -, rfl⟩ | ⟨hpos, rfl⟩
        · have hfresh := (hshifts.freshIn_iff.mp ⟨t, ht, rfl, hzero⟩).1
          refine ⟨front, kept, back ++ [t.id], by simp [hline], hkept, hfront, fun id hid => ?_⟩
          rcases List.mem_append.mp hid with hid | hid
          · exact hback id hid
          · exact List.mem_singleton.mp hid ▸ ⟨hin, hfresh⟩
        · have hgiven : ¬ s.FreshIn t.lane t.id := fun hfresh =>
            Nat.ne_of_gt hpos (freshIn_lane (hshifts.freshIn_of_mem hp hh hfresh) ht).2
          refine ⟨t.id :: front, kept, back, by simp [hline], hkept, fun id hid => ?_, hback⟩
          rcases List.mem_cons.mp hid with rfl | hid
          · exact ⟨hin, hgiven⟩
          · exact hfront id hid
      · exact ⟨front, kept, back, hline, hkept, hfront, hback⟩
    | @take t rest _ hhead =>
      simp only [deliver, Lanes.line_setLine]
      split
      · next hlane =>
        subst hlane
        -- The head of the line is the first task of the first part that is not empty.
        refine ⟨front.drop 1, kept.drop (1 - front.length),
          back.drop (1 - (front ++ kept).length), ?_, (List.drop_sublist ..).trans hkept,
          fun id hid => hfront id (List.mem_of_mem_drop hid),
          fun id hid => hback id (List.mem_of_mem_drop hid)⟩
        rw [← List.drop_append, ← List.drop_append, ← hline, hhead]
        rfl
      · exact ⟨front, kept, back, hline, hkept, hfront, hback⟩

/-- The line of a lane after an event: tasks that are taken back come to its head, and tasks of this
lane that are accepted come to its end. -/
theorem Event.line_split (e : Event) (hs : Sound e.before ∅) (lane : Lane) :
    ∃ front kept back, e.after.queues.line lane = front ++ kept ++ back ∧
      kept.Sublist (e.before.queues.line lane) ∧ (∀ id ∈ front, id ∈ e.requeued) ∧
      ∀ id ∈ back, ∃ t ∈ e.entry.tasks, t.id = id ∧ t.lane = lane := by
  obtain ⟨mid, he⟩ := e.enters hs
  have hrenewal := he.enters.renewal hs
  obtain ⟨front, kept, back, hline, hkept, hfront, hback⟩ :=
    he.shifts.line_split (he.enters.sound hs).placed lane
  -- What an entry accepts is fresh after it.
  have hnew : ∀ t ∈ e.entry.tasks, mid.FreshIn t.lane t.id := by
    intro t ht
    have hintake := he.enters.intake ht
    exact ⟨t, hintake.tasks t ht, rfl, hintake.fresh t ht⟩
  have hhand : ∀ {id}, id ∈ e.hand → id ∈ e.requeued ∨ ∃ t ∈ e.entry.tasks, t.id = id := by
    intro id hid
    rw [hand, Finset.mem_union, List.mem_toFinset, List.mem_map, or_comm] at hid
    exact hid
  refine ⟨front, kept, back, hline, hkept.trans (hrenewal.line lane), fun id hid => ?_,
    fun id hid => ?_⟩
  · obtain ⟨hin, hgiven⟩ := hfront id hid
    refine (hhand hin).resolve_right ?_
    rintro ⟨t, ht, rfl⟩
    have hmem : t.id ∈ e.after.queues.line lane := by simp [hline, hid]
    obtain ⟨-, u, hu, -, hlane⟩ := (e.sound_after hs).placed.inLine hmem
    have hroll : e.after.roll? t.id = some t := (e.roll_iff hs).mpr (Or.inr ⟨ht, rfl⟩)
    rw [roll?_of_task hu, Option.some.injEq] at hroll
    have hsame : t.lane = lane := hroll ▸ hlane
    exact hgiven (hsame ▸ hnew t ht)
  · obtain ⟨hin, hfresh⟩ := hback id hid
    rcases hhand hin with hin | ⟨t, ht, rfl⟩
    · obtain ⟨u, hu, hstate, hrecalled⟩ := he.recalled hs hin
      have hzero : u.deliveries = 0 := (freshIn_lane hfresh hrecalled).2
      exact absurd hzero (Nat.ne_of_gt (hs.placed.given hu hstate))
    · obtain ⟨u, hu, hlane, -⟩ := hnew t ht
      exact ⟨t, ht, rfl, hlane.symm.trans (freshIn_lane hfresh hu).1⟩

/-! ### Accepted batches -/

theorem length_le_of_targetOf (h : s.targetOf requests = .ok (job, category)) :
    (s.queues.line ⟨.regional, category⟩).length + requests.length ≤ s.limits.maxDepth := by
  cases hcommon : commonTarget requests with
  | error fault =>
    rw [targetOf_of_not_common hcommon] at h
    cases h
  | ok target =>
    obtain ⟨name, common⟩ := target
    rw [targetOf_of_common hcommon] at h
    split at h
    · cases h
    · split at h
      · cases h
      · cases h
        omega

/-- A batch is accepted if it has a job and a category. -/
theorem Event.target_of_accepted (hop : e.op = .enqueueBatch requests)
    (h : e.outcome = .accepted ids) : ∃ job category,
      e.before.targetOf requests = .ok (job, category) := by
  cases htarget : e.before.targetOf requests with
  | ok target => exact ⟨target.1, target.2, rfl⟩
  | error r => simp [Event.outcome, hop, step, enqueueBatch, htarget, bind, Except.bind] at h

/-- The category of a batch is that of each of its requests. -/
theorem Event.target_of_mem (hop : e.op = .enqueueBatch requests) (h : e.outcome = .accepted ids)
    {r : Request} (hr : r ∈ requests) :
    ∃ job, e.before.targetOf requests = .ok (job, r.category) := by
  obtain ⟨job, category, htarget⟩ := Event.target_of_accepted hop h
  obtain ⟨-, hall, -⟩ := targetOf_ok htarget
  exact ⟨job, (hall r hr).2 ▸ htarget⟩

/-- Regional tasks are accepted in batches. -/
theorem Event.batch_of_mem (ht : t ∈ e.entry.tasks) (hkind : t.kind = .regional) :
    ∃ requests ids, e.op = .enqueueBatch requests ∧ e.outcome = .accepted ids ∧
      t.id ∈ ids ∧ ∃ r ∈ requests, t.category = r.category := by
  unfold Event.entry Entry.of at ht
  split at ht
  case h_1 requests ids hop houtcome =>
    obtain ⟨id, hid, r, hr, rfl⟩ : ∃ id ∈ ids, ∃ r ∈ requests, t = Task.ofRequest id .regional
        e.now.civil r := by
      rw [Entry.tasks, batchTasks, ← List.map_uncurry_zip_eq_zipWith, List.mem_map] at ht
      obtain ⟨⟨id, r⟩, hmem, rfl⟩ := ht
      exact ⟨id, (List.of_mem_zip hmem).1, r, (List.of_mem_zip hmem).2, rfl⟩
    exact ⟨requests, ids, hop, houtcome, hid, r, hr, rfl⟩
  case h_2 hop houtcome =>
    obtain ⟨id, -, rfl⟩ := List.mem_map.mp ht
    cases hkind
  all_goals cases ht

/-- The line of a category after a batch for it is accepted is within the bound. -/
theorem Event.length_line_of_accepted (hs : Sound e.before ∅) (hop : e.op = .enqueueBatch requests)
    (h : e.outcome = .accepted ids)
    (htarget : e.before.targetOf requests = .ok (job, category)) :
    (e.after.queues.line ⟨.regional, category⟩).length ≤ e.before.limits.maxDepth := by
  obtain ⟨front, kept, back, hline, hkept, hfront, hback⟩ := e.line_split hs ⟨.regional, category⟩
  have hnodup := (e.sound_after hs).placed.once ⟨.regional, category⟩
  have hroom := length_le_of_targetOf htarget
  obtain ⟨hids, hlength⟩ := e.told hs h
  have hnone : front = [] := by
    refine List.eq_nil_iff_forall_not_mem.mpr fun id hid => ?_
    simpa [Event.requeued, Event.listed, hop] using hfront id hid
  have hle : back.length ≤ requests.length := by
    rw [← hlength requests hop]
    rw [hline] at hnodup
    refine (hnodup.of_append_right.subperm fun id hid => ?_).length_le
    obtain ⟨t, ht, rfl, -⟩ := hback id hid
    exact hids ▸ List.mem_map_of_mem ht
  have hkept' := hkept.length_le
  rw [hline, hnone]
  simp only [List.nil_append, List.length_append]
  omega

/-! ### Tasks that were never given to a worker -/

/-- What is new in a category waits in its line. -/
theorem Sound.mem_line_of_isNewIn (hs : Sound s ∅) (ht : s.tasks[id]? = some t)
    (hnew : t.isNewIn category = true) : id ∈ s.queues.line ⟨.regional, category⟩ := by
  obtain ⟨hlane, hstate, -⟩ := Task.isNewIn_iff.mp hnew
  exact hlane ▸ hs.placed.queued ht hstate (Finset.notMem_empty id)

/-- A task that is new in a category was so before, or it has just been accepted. -/
theorem Event.isNewIn_before (hs : Sound e.before ∅) (ht : e.after.tasks[id]? = some t)
    (hnew : t.isNewIn category = true) :
    (∃ u, e.before.tasks[id]? = some u ∧ u.isNewIn category = true) ∨
      ∃ u ∈ e.entry.tasks, u.id = id ∧ u.lane = ⟨.regional, category⟩ := by
  obtain ⟨hlane, hstate, hzero⟩ := Task.isNewIn_iff.mp hnew
  rcases (e.roll_iff hs).mp (roll?_of_task ht) with ⟨hroll, -⟩ | ⟨hmem, hid⟩
  · obtain ⟨u, hu, hsame⟩ := Option.map_eq_some_iff.mp hroll
    have hcount := e.deliveries hs hu ht
    have huzero : u.deliveries = 0 := by omega
    have hqueued : u.state = .queued := by
      cases hustate : u.state with
      | queued => rfl
      | inFlight => exact absurd huzero (Nat.ne_of_gt (hs.placed.given hu hustate))
    have hulane : u.lane = ⟨.regional, category⟩ :=
      (Task.lane_eq_of_asAccepted hsame).trans hlane
    exact Or.inl ⟨u, hu, Task.isNewIn_iff.mpr ⟨hulane, hqueued, huzero⟩⟩
  · exact Or.inr ⟨_, hmem, hid, hlane⟩

/-- A batch is accepted only if its tasks find room in the line; and other events add nothing to
what is new in a category. -/
theorem Event.length_isNewIn_le (e : Event) (hs : Sound e.before ∅) (category : Category)
    (h : (e.before.tasksWith (·.isNewIn category)).length ≤ e.before.limits.maxDepth) :
    (e.after.tasksWith (·.isNewIn category)).length ≤ e.before.limits.maxDepth := by
  have hafter := e.sound_after hs
  by_cases hbatch : ∃ u ∈ e.entry.tasks, u.lane = ⟨.regional, category⟩
  · obtain ⟨u, hu, hlane⟩ := hbatch
    obtain ⟨requests, ids, hop, houtcome, -, r, hr, hcategory⟩ :=
      Event.batch_of_mem hu (congrArg Lane.kind hlane)
    obtain rfl : r.category = category := hcategory.symm.trans (congrArg Lane.category hlane)
    obtain ⟨job, htarget⟩ := Event.target_of_mem hop houtcome hr
    calc (e.after.tasksWith (·.isNewIn r.category)).length
        ≤ (e.after.queues.line ⟨.regional, r.category⟩).length :=
          length_tasksWith_le hafter.placed fun _ _ ht hnew => hafter.mem_line_of_isNewIn ht hnew
      _ ≤ e.before.limits.maxDepth := Event.length_line_of_accepted hs hop houtcome htarget
  · calc (e.after.tasksWith (·.isNewIn category)).length
        ≤ ((e.before.tasksWith (·.isNewIn category)).map Task.id).length := by
          refine length_tasksWith_le hafter.placed fun id t ht hnew => ?_
          rcases Event.isNewIn_before hs ht hnew with ⟨u, hu, hunew⟩ | ⟨u, hu, -, hlane⟩
          · obtain rfl := hs.placed.key hu
            exact List.mem_map_of_mem ((mem_tasksWith hs.placed).mpr ⟨hu, hunew⟩)
          · exact absurd ⟨u, hu, hlane⟩ hbatch
      _ ≤ e.before.limits.maxDepth := by rwa [List.length_map]

/-! ### Every run -/

theorem Event.returned {e : Event} (hid : id ∈ e.requeued) : id ∈ e.before.inFlight ∧
    ((∃ t, e.op = .requeueExpired t) ∨ e.op = .reportLost id ∨
      (∃ lane c, e.op = .abandonPoll lane c) ∨ ∃ tasks, e.op = .returnUndelivered tasks) := by
  obtain ⟨hlisted, hflight⟩ := Finset.mem_filter.mp hid
  refine ⟨hflight, ?_⟩
  rw [List.mem_toFinset, Event.listed] at hlisted
  split at hlisted
  case h_1 x hop =>
    split at hlisted
    · obtain rfl := List.mem_singleton.mp hlisted
      exact Or.inr (Or.inl hop)
    · cases hlisted
  case h_2 t hop => exact Or.inl ⟨t, hop⟩
  case h_3 lane c hop => exact Or.inr (Or.inr (Or.inl ⟨lane, c, hop⟩))
  case h_4 tasks hop => exact Or.inr (Or.inr (Or.inr ⟨tasks, hop⟩))
  case h_5 => cases hlisted

/-- In every run the lines of regional tasks are within their bound, but for tasks that come back
from workers. -/
theorem backpressure_run (limits : Limits) (steps : List (Moment × Operation)) :
    Backpressure limits ((new limits).trace steps) ((new limits).run steps) where
  fresh category := by
    refine (Sound.new limits).trace_induction (P := fun _ s =>
      (s.tasksWith (·.isNewIn category)).length ≤ limits.maxDepth) ?_ fun past e he hs h => ?_
    · simp
    · rw [← limits_of_mem_trace he] at h ⊢
      exact e.length_isNewIn_le hs category h
  accepted e he requests ids hop houtcome := by
    obtain ⟨job, category, htarget⟩ := Event.target_of_accepted hop houtcome
    refine ⟨(targetOf_ok htarget).1, fun r hr => ?_⟩
    obtain ⟨job, htarget⟩ := Event.target_of_mem hop houtcome hr
    rw [← limits_of_mem_trace he]
    exact Event.length_line_of_accepted (sound_of_mem_trace he) hop houtcome htarget
  grows e he category := by
    obtain ⟨front, kept, back, hline, hkept, hfront, hback⟩ :=
      e.line_split (sound_of_mem_trace he) ⟨.regional, category⟩
    refine ⟨front, kept, back, hline, hkept, hfront, fun id hid => ?_⟩
    obtain ⟨t, ht, rfl, hlane⟩ := hback id hid
    obtain ⟨requests, ids, hop, houtcome, hmem, r, hr, hcategory⟩ :=
      Event.batch_of_mem ht (congrArg Lane.kind hlane)
    obtain ⟨job, htarget⟩ := Event.target_of_mem hop houtcome hr
    refine ⟨requests, ids, hop, houtcome, hmem, fun r' hr' => ?_⟩
    have hsame : t.category = category := congrArg Lane.category hlane
    exact ((targetOf_ok htarget).2.1 r' hr').2.trans (hcategory.symm.trans hsame)
  returned e _ id hid := Event.returned hid

/-- A line with room for one task holds two when a task comes back to it. -/
example :
    let s := (new ⟨1, 1, 0⟩).run ([.enqueueBatch [⟨some ⟨"job"⟩, ⟨"graph", "1"⟩, default⟩],
      .poll ⟨.regional, ⟨"graph", "1"⟩⟩ ⟨0⟩,
      .enqueueBatch [⟨some ⟨"job"⟩, ⟨"graph", "1"⟩, default⟩],
      .reportLost ⟨1⟩].map fun op => (default, op))
    s.queues.line ⟨.regional, ⟨"graph", "1"⟩⟩ = [⟨1⟩, ⟨2⟩] := by
  decide +kernel

end Scheduler

end TaskExchange
