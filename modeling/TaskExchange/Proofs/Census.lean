import Mathlib.Algebra.GroupWithZero.Nat
import TaskExchange.Proofs.Sound
import TaskExchange.Scheduler.Report

/-!
Census: the tasks of the table of which something holds, and how many they are.  Main statements:
the sizes of the scheduler's parts are numbers of such tasks (`Sound.size_inFlight`,
`Sound.size_producers`, `Sound.count_queues`), because each part lists the numbers of its tasks once
(`length_tasksWith`); and so is the progress of a job (`statusOf_eq`).
-/

namespace TaskExchange

section

variable {α β : Type} {cmp : α → α → Ordering} [Std.TransCmp cmp] [Std.LawfulEqCmp cmp]
  {m : Std.ExtTreeMap α β cmp} {key : β → α} (hkey : ∀ {a : α} {b : β}, m[a]? = some b → key b = a)

include hkey

/-- What is in a table that tells its own key. -/
theorem mem_values {b : β} : b ∈ m.toList.map (·.2) ↔ m[key b]? = some b := by
  simp only [List.mem_map, Prod.exists, exists_eq_right,
    Std.ExtTreeMap.mem_toList_iff_getElem?_eq_some]
  refine ⟨?_, fun hb => ⟨key b, hb⟩⟩
  rintro ⟨a, hb⟩
  exact (hkey hb).symm ▸ hb

theorem nodup_values : ((m.toList.map (·.2)).map key).Nodup := by
  have hkeys : (m.toList.map (·.2)).map key = m.keys := by
    rw [← Std.ExtTreeMap.map_fst_toList_eq_keys, List.map_map]
    refine List.map_congr_left ?_
    rintro ⟨a, b⟩ hb
    exact hkey (Std.ExtTreeMap.mem_toList_iff_getElem?_eq_some.mp hb)
  rw [hkeys]
  exact Std.ExtTreeMap.nodup_keys

end

namespace Lanes

variable {α : Type} {m : Lanes α}

theorem mem_toList_lines {lane : Lane} {xs : List α} :
    (lane, xs) ∈ m.lines.toList ↔ m.line lane = xs ∧ xs ≠ [] := by
  rw [Std.ExtTreeMap.mem_toList_iff_getElem?_eq_some, getElem?_lines]
  split
  · next hnil => simp [hnil, eq_comm]
  · next hne =>
    rw [Option.some.injEq]
    exact ⟨fun h => ⟨h, h ▸ hne⟩, And.left⟩

theorem mem_waiting {kind : Kind} {a : α} :
    a ∈ m.waiting kind ↔ ∃ lane, lane.kind = kind ∧ a ∈ m.line lane := by
  simp only [waiting, List.mem_flatMap, List.mem_filter, decide_eq_true_eq]
  constructor
  · rintro ⟨⟨lane, xs⟩, ⟨hxs, hkind⟩, ha⟩
    exact ⟨lane, hkind, (mem_toList_lines.mp hxs).1 ▸ ha⟩
  · rintro ⟨lane, hkind, ha⟩
    exact ⟨(lane, m.line lane), ⟨mem_toList_lines.mpr ⟨rfl, List.ne_nil_of_mem ha⟩, hkind⟩, ha⟩

/-- Who stands in one line only, and there once, is counted once. -/
theorem nodup_waiting (honce : ∀ lane, (m.line lane).Nodup)
    (halone : ∀ {lane other a}, a ∈ m.line lane → a ∈ m.line other → lane = other) {kind : Kind} :
    (m.waiting kind).Nodup := by
  refine List.nodup_flatMap.mpr ⟨?_, ?_⟩
  · rintro ⟨lane, xs⟩ hxs
    exact (mem_toList_lines.mp (List.mem_of_mem_filter hxs)).1 ▸ honce lane
  · refine List.Pairwise.filter _ (Std.ExtTreeMap.distinct_keys_toList.imp_of_mem ?_)
    rintro ⟨lane, xs⟩ ⟨other, ys⟩ hxs hys hne a hx hy
    rw [← (mem_toList_lines.mp hxs).1] at hx
    rw [← (mem_toList_lines.mp hys).1] at hy
    exact hne (Std.LawfulEqOrd.compare_eq_iff_eq.mpr (halone hx hy))

end Lanes

namespace Scheduler

/-- The tasks of the table of which a test holds. -/
def tasksWith (s : Scheduler) (p : Task → Bool) : List Task :=
  (s.tasks.toList.map (·.2)).filter p

variable {s : Scheduler} {hand : Finset TaskId} {p : Task → Bool} {t : Task}

@[simp] theorem tasksWith_new (limits : Limits) (p : Task → Bool) :
    (new limits).tasksWith p = [] := by
  have hnone : (new limits).tasks.toList = [] := by simp [Scheduler.new]
  simp [tasksWith, hnone]

section

variable (hp : Placed s hand)

include hp

theorem mem_tasksWith : t ∈ s.tasksWith p ↔ s.tasks[t.id]? = some t ∧ p t = true := by
  rw [tasksWith, List.mem_filter, mem_values hp.key]

/-- Each task is there once. -/
theorem nodup_tasksWith (p : Task → Bool) : ((s.tasksWith p).map Task.id).Nodup :=
  (nodup_values hp.key).sublist (List.filter_sublist.map Task.id)

/-- A list of just these tasks, each once, is a rearrangement of them. -/
theorem perm_tasksWith {tasks : List Task} (hnodup : (tasks.map Task.id).Nodup)
    (hmem : ∀ t, t ∈ tasks ↔ s.tasks[t.id]? = some t ∧ p t = true) :
    tasks.Perm (s.tasksWith p) := by
  refine (List.perm_ext_iff_of_nodup hnodup.of_map (nodup_tasksWith hp p).of_map).mpr fun t => ?_
  rw [hmem, mem_tasksWith hp]

/-- A list of just their numbers, each once, is as long as they are many. -/
theorem length_tasksWith {ids : List TaskId} (hnodup : ids.Nodup)
    (hmem : ∀ id, id ∈ ids ↔ ∃ t, s.tasks[id]? = some t ∧ p t = true) :
    (s.tasksWith p).length = ids.length := by
  have hperm : ((s.tasksWith p).map Task.id).Perm ids := by
    refine (List.perm_ext_iff_of_nodup (nodup_tasksWith hp p) hnodup).mpr fun id => ?_
    rw [hmem, List.mem_map]
    constructor
    · rintro ⟨t, ht, rfl⟩
      exact ⟨t, (mem_tasksWith hp).mp ht⟩
    · rintro ⟨t, ht, hpt⟩
      obtain rfl := hp.key ht
      exact ⟨t, (mem_tasksWith hp).mpr ⟨ht, hpt⟩, rfl⟩
  rw [← hperm.length_eq, List.length_map]

/-- They are at most as many as the numbers of a list that has all of theirs. -/
theorem length_tasksWith_le {ids : List TaskId}
    (hmem : ∀ id t, s.tasks[id]? = some t → p t = true → id ∈ ids) :
    (s.tasksWith p).length ≤ ids.length := by
  rw [← List.length_map Task.id]
  refine ((nodup_tasksWith hp p).subperm fun id hid => ?_).length_le
  obtain ⟨t, ht, rfl⟩ := List.mem_map.mp hid
  obtain ⟨ht, hpt⟩ := (mem_tasksWith hp).mp ht
  exact hmem t.id t ht hpt

end

theorem countP_tasksWith (s : Scheduler) (p q : Task → Bool) :
    (s.tasksWith p).countP q = (s.tasksWith fun t => p t && q t).length := by
  simp only [tasksWith, List.countP_filter, ← List.countP_eq_length_filter, Bool.and_comm]

/-- A test divides the tasks. -/
theorem length_tasksWith_split (s : Scheduler) (p q : Task → Bool) :
    (s.tasksWith p).length =
      (s.tasksWith fun t => p t && q t).length + (s.tasksWith fun t => p t && !q t).length := by
  rw [List.length_eq_countP_add_countP q, countP_tasksWith, countP_tasksWith]
  simp

/-! ### The sizes of the parts -/

theorem Sound.size_inFlight (hs : Sound s ∅) :
    s.inFlight.size = (s.tasksWith fun t => t.state = .inFlight).length := by
  rw [length_tasksWith hs.placed (Std.ExtTreeMap.nodup_keys (t := s.inFlight)),
    Std.ExtTreeMap.length_keys]
  intro id
  rw [Std.ExtTreeMap.mem_keys, hs.placed.inFlight]
  simp

theorem Sound.size_producers (hs : Sound s ∅) :
    s.producers.size = (s.tasksWith fun t => t.kind = .priority).length := by
  rw [length_tasksWith hs.placed (Std.ExtTreeMap.nodup_keys (t := s.producers)),
    Std.ExtTreeMap.length_keys]
  intro id
  rw [Std.ExtTreeMap.mem_keys, hs.awaited]
  simp

theorem Sound.count_queues (hs : Sound s ∅) (kind : Kind) :
    s.queues.count kind = (s.tasksWith fun t => t.kind = kind && t.state = .queued).length := by
  have halone : ∀ {lane other id}, id ∈ s.queues.line lane → id ∈ s.queues.line other →
      lane = other := by
    intro lane other id hlane hother
    obtain ⟨-, t, ht, -, rfl⟩ := hs.placed.inLine hlane
    exact hs.placed.eq_lane hother ht
  rw [Lanes.count, length_tasksWith hs.placed (Lanes.nodup_waiting hs.placed.once halone)]
  intro id
  rw [Lanes.mem_waiting]
  constructor
  · rintro ⟨lane, rfl, hid⟩
    obtain ⟨-, t, ht, hstate, rfl⟩ := hs.placed.inLine hid
    exact ⟨t, ht, by simp [hstate, Task.lane]⟩
  · rintro ⟨t, ht, h⟩
    simp only [Bool.and_eq_true, decide_eq_true_eq] at h
    exact ⟨t.lane, h.1, hs.placed.queued ht h.2 (Finset.notMem_empty id)⟩

/-! ### The progress of a job -/

/-- The tasks of a job that are there. -/
def tasksOf (s : Scheduler) (j : Job) : List Task := j.outstanding.toList.filterMap (s.tasks[·]?)

theorem mem_tasksOf (hp : Placed s hand) (hl : Ledger s) {job : JobId} {j : Job}
    (hj : s.jobs[job]? = some j) :
    t ∈ s.tasksOf j ↔ s.tasks[t.id]? = some t ∧ t.kind = .regional ∧ t.job = some job := by
  rw [tasksOf, List.mem_filterMap]
  constructor
  · rintro ⟨id, hid, ht⟩
    obtain rfl := hp.key ht
    obtain ⟨u, hu, hkind, hjob⟩ := (hl.listed hj).mp (Std.ExtTreeSet.mem_toList.mp hid)
    obtain rfl : t = u := Option.some.inj (ht.symm.trans hu)
    exact ⟨ht, hkind, hjob⟩
  · rintro ⟨ht, hkind, hjob⟩
    have hlisted := (hl.listed hj).mpr ⟨t, ht, hkind, hjob⟩
    exact ⟨t.id, Std.ExtTreeSet.mem_toList.mpr hlisted, ht⟩

theorem nodup_tasksOf (hp : Placed s hand) (j : Job) : ((s.tasksOf j).map Task.id).Nodup := by
  have hlisted : j.outstanding.toList.Nodup := Std.ExtTreeSet.distinct_toList.imp fun hne heq =>
    hne (Std.LawfulEqOrd.compare_eq_iff_eq.mpr heq)
  rw [tasksOf, List.map_filterMap]
  refine List.Nodup.filterMap ?_ hlisted
  intro id id' n hid hid'
  obtain ⟨t, ht, rfl⟩ := Option.map_eq_some_iff.mp hid
  obtain ⟨t', ht', hsame⟩ := Option.map_eq_some_iff.mp hid'
  rw [← hp.key ht, ← hp.key ht', hsame]

/-- None of the tasks that a job lists is missing. -/
theorem length_tasksOf (hl : Ledger s) {job : JobId} {j : Job} (hj : s.jobs[job]? = some j) :
    (s.tasksOf j).length = j.outstanding.size := by
  rw [tasksOf, ← Std.ExtTreeSet.length_toList, List.length_filterMap_eq_countP,
    List.countP_eq_length]
  intro id hid
  obtain ⟨t, ht, -⟩ := (hl.listed hj).mp (Std.ExtTreeSet.mem_toList.mp hid)
  rw [ht, Option.isSome_some]

theorem foldl_count : ∀ (tasks : List Task) (status : JobStatus),
    tasks.foldl JobStatus.count status =
      { status with
        queued := status.queued + tasks.countP (·.state = .queued)
        inFlight := status.inFlight + tasks.countP (·.state = .inFlight)
        deliveries := status.deliveries + (tasks.map Task.deliveries).sum }
  | [], status => rfl
  | t :: tasks, status => by
    rw [List.foldl_cons, foldl_count tasks]
    cases hstate : t.state <;> simp [JobStatus.count, hstate] <;> omega

/-- The progress of a job in numbers of its tasks. -/
theorem statusOf_eq (s : Scheduler) (j : Job) :
    s.statusOf j = ⟨j.id, j.category.graph, j.category.version, j.total,
      (s.tasksOf j).countP (·.state = .queued), (s.tasksOf j).countP (·.state = .inFlight),
      j.completed, ((s.tasksOf j).map Task.deliveries).sum⟩ := by
  rw [statusOf, foldl_count]
  simp [tasksOf]

@[simp] theorem statusOf_job (s : Scheduler) (j : Job) : (s.statusOf j).job = j.id := by
  rw [statusOf_eq]

/-- What a job was ever given is queued, in flight or completed. -/
theorem total_statusOf (hl : Ledger s) {job : JobId} {j : Job} (hj : s.jobs[job]? = some j) :
    (s.statusOf j).total =
      (s.statusOf j).queued + (s.statusOf j).inFlight + (s.statusOf j).completed := by
  have hsplit := List.length_eq_countP_add_countP (·.state = .queued) (l := s.tasksOf j)
  have hother : (s.tasksOf j).countP (fun t => decide ¬decide (t.state = .queued) = true) =
      (s.tasksOf j).countP (·.state = .inFlight) := by
    refine List.countP_congr fun t _ => ?_
    cases t.state <;> simp
  rw [length_tasksOf hl hj, hother] at hsplit
  simp only [statusOf_eq, hl.balanced hj, hsplit]

end Scheduler

end TaskExchange
