import TaskExchange.Proofs.Books
import TaskExchange.Scheduler.Priority
import TaskExchange.Scheduler.Regional

/-!
Removal: how tasks leave.  A task leaves when its completion is acknowledged, when its request is
withdrawn, or with its job, and then it leaves the table, the lines and the deliveries together.
Main statements: the three ways are removals (`removal_acknowledge`, `removal_withdraw`,
`removal_deleteJob`); a removal keeps the agreement of the parts (`Removal.placed`), and the jobs
agree with the table again when each of them has dropped what left (`Removal.ledger`).
-/

namespace TaskExchange.Scheduler

/-- Some tasks have left, from wherever they were, and nothing else has moved. -/
structure Removal (s : Scheduler) (gone : List TaskId) (s' : Scheduler) : Prop where
  limits : s'.limits = s.limits
  nextId : s'.nextId = s.nextId
  pool : s'.pool = s.pool
  polls : s'.polls = s.polls
  requesters : s'.requesters = s.requesters
  tasks : ∀ id, s'.tasks[id]? = if id ∈ gone then none else s.tasks[id]?
  inFlight : ∀ id, s'.inFlight[id]? = if id ∈ gone then none else s.inFlight[id]?
  line : ∀ lane, s'.queues.line lane = (s.queues.line lane).filter (· ∉ gone)

variable {s s' : Scheduler} {gone : List TaskId} {t : Task}

namespace Removal

/-- Who is there afterwards was there before and is not one of those that left. -/
theorem task_iff (h : Removal s gone s') {id : TaskId} :
    s'.tasks[id]? = some t ↔ id ∉ gone ∧ s.tasks[id]? = some t := by
  rw [h.tasks]
  split
  · next hid => simp [hid]
  · next hid => simp [hid]

theorem mem_tasks_iff (h : Removal s gone s') {id : TaskId} :
    id ∈ s'.tasks ↔ id ∉ gone ∧ id ∈ s.tasks := by
  rw [Std.ExtTreeMap.mem_iff_isSome_getElem?, Std.ExtTreeMap.mem_iff_isSome_getElem?, h.tasks]
  split
  · next hid => simp [hid]
  · next hid => simp [hid]

theorem mem_inFlight_iff (h : Removal s gone s') {id : TaskId} :
    id ∈ s'.inFlight ↔ id ∉ gone ∧ id ∈ s.inFlight := by
  rw [Std.ExtTreeMap.mem_iff_isSome_getElem?, Std.ExtTreeMap.mem_iff_isSome_getElem?, h.inFlight]
  split
  · next hid => simp [hid]
  · next hid => simp [hid]

theorem mem_line_iff (h : Removal s gone s') {lane : Lane} {id : TaskId} :
    id ∈ s'.queues.line lane ↔ id ∉ gone ∧ id ∈ s.queues.line lane := by
  rw [h.line, List.mem_filter, decide_eq_true_eq, and_comm]

theorem placed (h : Removal s gone s') (hp : Placed s ∅) : Placed s' ∅ := by
  refine ⟨?_, ?_, ?_, ?_, ?_, ?_, ?_⟩
  · intro id t ht
    exact hp.key (h.task_iff.mp ht).2
  · intro id t ht hstate _
    obtain ⟨hid, ht⟩ := h.task_iff.mp ht
    exact h.mem_line_iff.mpr ⟨hid, hp.queued ht hstate (Finset.notMem_empty id)⟩
  · intro lane id hin
    obtain ⟨hid, hin⟩ := h.mem_line_iff.mp hin
    obtain ⟨hhand, t, ht, hrest⟩ := hp.inLine hin
    exact ⟨hhand, t, h.task_iff.mpr ⟨hid, ht⟩, hrest⟩
  · intro lane
    rw [h.line]
    exact (hp.once lane).filter _
  · intro id hin
    exact absurd hin (Finset.notMem_empty id)
  · intro id
    rw [h.mem_inFlight_iff, hp.inFlight]
    constructor
    · rintro ⟨hid, t, ht, hstate⟩
      exact ⟨t, h.task_iff.mpr ⟨hid, ht⟩, hstate⟩
    · rintro ⟨t, ht, hstate⟩
      obtain ⟨hid, ht⟩ := h.task_iff.mp ht
      exact ⟨hid, t, ht, hstate⟩
  · intro id t ht
    exact hp.given (h.task_iff.mp ht).2

theorem numbered (h : Removal s gone s') (hn : Numbered s) : Numbered s' where
  first := h.nextId ▸ hn.first
  below hid := h.nextId ▸ hn.below (h.mem_tasks_iff.mp hid).2

/-- The jobs agree with the table when each has dropped those of its tasks that left, and those that
are no more had no others. -/
theorem ledger (h : Removal s gone s') (hl : Ledger s)
    (hjobs : ∀ {job : JobId} {j' : Job}, s'.jobs[job]? = some j' →
      ∃ j, s.jobs[job]? = some j ∧ j'.id = j.id ∧ j'.category = j.category ∧
        (∀ id, id ∈ j'.outstanding ↔ id ∉ gone ∧ id ∈ j.outstanding) ∧
        j'.total = j'.outstanding.size + j'.completed)
    (hkept : ∀ {job : JobId} {j : Job} {id : TaskId}, s.jobs[job]? = some j →
      id ∈ j.outstanding → id ∉ gone → ∃ j', s'.jobs[job]? = some j') : Ledger s' := by
  refine ⟨?_, ?_, ?_, ?_, ?_⟩
  · intro job j' hj'
    obtain ⟨j, hj, hname, -⟩ := hjobs hj'
    exact hname.trans (hl.name hj)
  · intro job j' id hj'
    obtain ⟨j, hj, -, -, hmem, -⟩ := hjobs hj'
    rw [hmem, hl.listed hj]
    constructor
    · rintro ⟨hid, t, ht, hrest⟩
      exact ⟨t, h.task_iff.mpr ⟨hid, ht⟩, hrest⟩
    · rintro ⟨t, ht, hrest⟩
      obtain ⟨hid, ht⟩ := h.task_iff.mp ht
      exact ⟨hid, t, ht, hrest⟩
  · intro job j' id t hj' hid ht
    obtain ⟨j, hj, -, hcategory, hmem, -⟩ := hjobs hj'
    rw [hcategory]
    exact hl.category hj ((hmem id).mp hid).2 (h.task_iff.mp ht).2
  · intro id t ht hkind
    obtain ⟨hid, ht⟩ := h.task_iff.mp ht
    obtain ⟨job, j, hjob, hj⟩ := hl.housed ht hkind
    obtain ⟨j', hj'⟩ := hkept hj ((hl.listed hj).mpr ⟨t, ht, hkind, hjob⟩) hid
    exact ⟨job, j', hjob, hj'⟩
  · intro job j' hj'
    obtain ⟨j, -, -, -, -, hbalanced⟩ := hjobs hj'
    exact hbalanced

theorem awaited (h : Removal s gone s') (ha : Awaited s)
    (hproducers : ∀ id, id ∈ s'.producers ↔ id ∉ gone ∧ id ∈ s.producers) : Awaited s' := by
  intro id
  rw [hproducers, ha id]
  constructor
  · rintro ⟨hid, t, ht, hkind⟩
    exact ⟨t, h.task_iff.mpr ⟨hid, ht⟩, hkind⟩
  · rintro ⟨t, ht, hkind⟩
    obtain ⟨hid, ht⟩ := h.task_iff.mp ht
    exact ⟨hid, t, ht, hkind⟩

end Removal

/-! ### A single task -/

/-- A task that is forgotten has left its line too, as it stands in none but its own. -/
theorem removal_forget (hp : Placed s ∅) (ht : s.tasks[t.id]? = some t) :
    Removal s [t.id] (s.forget t) := by
  refine ⟨rfl, rfl, rfl, rfl, rfl, ?_, ?_, ?_⟩
  · intro id
    simp [forget, Std.ExtTreeMap.getElem?_erase, @eq_comm _ id]
  · intro id
    simp [forget, Std.ExtTreeMap.getElem?_erase, @eq_comm _ id]
  · intro lane
    have habsent : t.lane ≠ lane ∨ t.state = .inFlight →
        (s.queues.line lane).filter (· ∉ [t.id]) = s.queues.line lane := by
      intro h
      rw [List.filter_eq_self]
      intro id hid
      obtain ⟨-, u, hu, hstate, hlane⟩ := hp.inLine hid
      simp only [List.mem_singleton, decide_eq_true_eq]
      rintro rfl
      rw [ht] at hu
      cases hu
      rcases h with h | h
      · exact h hlane
      · simp [h] at hstate
    cases hstate : t.state with
    | inFlight =>
      rw [habsent (Or.inr hstate)]
      simp [forget, hstate]
    | queued =>
      by_cases hlane : t.lane = lane
      · subst hlane
        simp [forget, hstate, Lanes.line_keep]
      · rw [habsent (Or.inl hlane)]
        simp [forget, hstate, Lanes.line_keep, hlane]

/-- A priority task leaves without a trace in the jobs. -/
theorem ledger_forget (hl : Ledger s) (h : Removal s [t.id] (s.forget t))
    (ht : s.tasks[t.id]? = some t) (hk : t.kind = .priority) : Ledger (s.forget t) := by
  refine h.ledger hl ?_ ?_
  · intro job j hj
    refine ⟨j, hj, rfl, rfl, fun id => ?_, hl.balanced hj⟩
    rw [List.mem_singleton]
    refine ⟨fun hid => ⟨?_, hid⟩, fun hid => hid.2⟩
    rintro rfl
    obtain ⟨u, hu, hkind, -⟩ := (hl.listed hj).mp hid
    rw [ht] at hu
    cases hu
    rw [hk] at hkind
    cases hkind
  · intro job j id hj _ _
    exact ⟨j, hj⟩

theorem withdraw_state (ht : s.tasks[t.id]? = some t) (hkind : t.kind = .priority) :
    (s.withdraw t.id).2 = { s.forget t with producers := s.producers.erase t.id } := by
  simp [withdraw, ht, Task.isRegional, hkind]

/-- Who waits, and where, is no matter of a withdrawal. -/
theorem withdraw_connections (s : Scheduler) (id : TaskId) :
    (s.withdraw id).2.pool = s.pool ∧ (s.withdraw id).2.polls = s.polls ∧
      (s.withdraw id).2.requesters = s.requesters := by
  rw [withdraw]
  split
  · split
    · exact ⟨rfl, rfl, rfl⟩
    · exact ⟨rfl, rfl, rfl⟩
  · exact ⟨rfl, rfl, rfl⟩

theorem removal_withdraw (hp : Placed s ∅) {id : TaskId} (ht : s.tasks[id]? = some t)
    (hkind : t.kind = .priority) : Removal s [id] (s.withdraw id).2 := by
  obtain rfl := hp.key ht
  obtain ⟨h₁, h₂, h₃, h₄, h₅, h₆, h₇, h₈⟩ := removal_forget hp ht
  rw [withdraw_state ht hkind]
  exact ⟨h₁, h₂, h₃, h₄, h₅, h₆, h₇, h₈⟩

/-! ### A completion -/

/-- The state after the completion of a task of a job. -/
def completeIn (s : Scheduler) (t : Task) (job : JobId) (j : Job) : Scheduler :=
  { s.forget t with
    jobs := s.jobs.insert job
      { j with outstanding := j.outstanding.erase t.id, completed := j.completed + 1 } }

/-- A completion is acknowledged of a regional task, and it is counted in the task's job. -/
theorem acknowledge?_eq_some (hp : Placed s ∅) (hl : Ledger s) {id : TaskId}
    (h : s.acknowledge? id = some s') :
    ∃ t job j, s.tasks[t.id]? = some t ∧ t.id = id ∧ t.kind = .regional ∧ t.job = some job ∧
      s.jobs[job]? = some j ∧ t.id ∈ j.outstanding ∧ s' = s.completeIn t job j := by
  rw [acknowledge?] at h
  split at h
  · next t ht =>
    obtain rfl := hp.key ht
    split at h
    · next hregional =>
      have hkind : t.kind = .regional := by simpa [Task.isRegional] using hregional
      obtain ⟨job, j, hjob, hj⟩ := hl.housed ht hkind
      have hin : t.id ∈ j.outstanding := (hl.listed hj).mpr ⟨t, ht, hkind, hjob⟩
      refine ⟨t, job, j, ht, rfl, hkind, hjob, hj, hin, ?_⟩
      rw [← Option.some.inj h]
      simp [completeIn, countCompleted, hjob, forget, hj, Job.complete?, hin]
    · cases h
  · cases h

theorem removal_completeIn (hp : Placed s ∅) (ht : s.tasks[t.id]? = some t) (job : JobId)
    (j : Job) : Removal s [t.id] (s.completeIn t job j) := by
  obtain ⟨h₁, h₂, h₃, h₄, h₅, h₆, h₇, h₈⟩ := removal_forget hp ht
  exact ⟨h₁, h₂, h₃, h₄, h₅, h₆, h₇, h₈⟩

theorem removal_acknowledge (hp : Placed s ∅) (hl : Ledger s) {id : TaskId}
    (h : s.acknowledge? id = some s') :
    ∃ t, s.tasks[id]? = some t ∧ t.kind = .regional ∧ Removal s [id] s' := by
  obtain ⟨t, job, j, ht, rfl, hkind, -, -, -, rfl⟩ := acknowledge?_eq_some hp hl h
  exact ⟨t, ht, hkind, removal_completeIn hp ht job j⟩

theorem ledger_completeIn (hl : Ledger s) {job : JobId} {j : Job}
    (h : Removal s [t.id] (s.completeIn t job j)) (ht : s.tasks[t.id]? = some t)
    (hjob : t.job = some job) (hj : s.jobs[job]? = some j) (hin : t.id ∈ j.outstanding) :
    Ledger (s.completeIn t job j) := by
  have hjobs : ∀ other, (s.completeIn t job j).jobs[other]? = if job = other then
      some { j with outstanding := j.outstanding.erase t.id, completed := j.completed + 1 }
      else s.jobs[other]? := fun other => by
    simp [completeIn, Std.ExtTreeMap.getElem?_insert]
  refine h.ledger hl ?_ ?_
  · intro other j' hj'
    rw [hjobs] at hj'
    split at hj'
    · next heq =>
      subst heq
      cases hj'
      refine ⟨j, hj, rfl, rfl, fun id => ?_, ?_⟩
      · simp [Std.ExtTreeSet.mem_erase, @eq_comm _ id]
      · have hbalanced := hl.balanced hj
        have hpos : 0 < j.outstanding.size := by
          rw [Nat.pos_iff_ne_zero]
          intro hzero
          rw [← Std.ExtTreeSet.eq_empty_iff_size_eq_zero] at hzero
          simp [hzero] at hin
        simp only [Std.ExtTreeSet.size_erase, Std.ExtTreeSet.contains_iff_mem, hin, if_true]
        omega
    · next hne =>
      refine ⟨j', hj', rfl, rfl, fun id => ?_, hl.balanced hj'⟩
      rw [List.mem_singleton]
      refine ⟨fun hid => ⟨?_, hid⟩, fun hid => hid.2⟩
      rintro rfl
      obtain ⟨u, hu, -, hother⟩ := (hl.listed hj').mp hid
      rw [ht] at hu
      cases hu
      exact hne (Option.some.inj (hjob.symm.trans hother))
  · intro other j' id hj' _ _
    by_cases heq : job = other
    · exact ⟨_, by rw [hjobs, if_pos heq]⟩
    · exact ⟨j', by rw [hjobs, if_neg heq, hj']⟩

/-! ### A whole job -/

theorem getElem?_foldl_erase {β : Type} (id : TaskId) : ∀ (ids : List TaskId)
    (m : Std.ExtTreeMap TaskId β),
    (ids.foldl (fun m id => m.erase id) m)[id]? = if id ∈ ids then none else m[id]?
  | [], m => by simp
  | x :: ids, m => by
    rw [List.foldl_cons, getElem?_foldl_erase id ids, Std.ExtTreeMap.getElem?_erase]
    by_cases hid : id ∈ ids
    · simp [hid]
    · simp [hid, @eq_comm _ id]

/-- A job leaves with the tasks that it lists, all of which wait in its lane if they wait. -/
theorem removal_deleteJob (hp : Placed s ∅) (hl : Ledger s) {job : JobId}
    (h : s.deleteJob? job = some s') :
    ∃ j, s.jobs[job]? = some j ∧ Removal s j.outstanding.toList s' := by
  rw [deleteJob?, Option.map_eq_some_iff] at h
  obtain ⟨j, hj, rfl⟩ := h
  refine ⟨j, hj, rfl, rfl, rfl, rfl, rfl, ?_, ?_, ?_⟩
  · intro id
    exact getElem?_foldl_erase id ..
  · intro id
    exact getElem?_foldl_erase id ..
  · intro lane
    simp only [Lanes.line_keep]
    split
    · next heq =>
      rw [heq]
      refine List.filter_congr fun id hid => ?_
      obtain ⟨-, t, ht, -⟩ := hp.inLine hid
      rw [Std.ExtTreeMap.contains_eq_isSome_getElem?, getElem?_foldl_erase, ht]
      split
      · next hout => simp [hout]
      · next hout => simp [hout]
    · next hne =>
      refine (List.filter_eq_self.mpr fun id hid => ?_).symm
      obtain ⟨-, t, ht, -, hlane⟩ := hp.inLine hid
      rw [decide_eq_true_eq, Std.ExtTreeSet.mem_toList]
      intro hout
      obtain ⟨u, hu, hkind, -⟩ := (hl.listed hj).mp hout
      rw [ht] at hu
      cases hu
      rw [← hkind, ← hl.category hj hout ht] at hne
      exact hne hlane

theorem ledger_deleteJob (hl : Ledger s) {job : JobId} {j : Job} (hj : s.jobs[job]? = some j)
    (h : s.deleteJob? job = some s') (hr : Removal s j.outstanding.toList s') : Ledger s' := by
  have hjobs : ∀ other, s'.jobs[other]? = if job = other then none else s.jobs[other]? := by
    intro other
    rw [deleteJob?, hj] at h
    rw [← Option.some.inj h]
    simp [Std.ExtTreeMap.getElem?_erase]
  -- Each regional task names one job, so no other job lists what has left.
  have hother : ∀ {other j' id}, job ≠ other → s.jobs[other]? = some j' → id ∈ j'.outstanding →
      id ∉ j.outstanding := by
    intro other j' id hne hj' hin hout
    obtain ⟨t, ht, -, hjob⟩ := (hl.listed hj).mp hout
    obtain ⟨u, hu, -, hjob'⟩ := (hl.listed hj').mp hin
    rw [ht] at hu
    cases hu
    exact hne (Option.some.inj (hjob.symm.trans hjob'))
  refine hr.ledger hl ?_ ?_
  · intro other j' hj'
    rw [hjobs] at hj'
    split at hj'
    · cases hj'
    · next hne =>
      refine ⟨j', hj', rfl, rfl, fun id => ?_, hl.balanced hj'⟩
      rw [Std.ExtTreeSet.mem_toList]
      exact ⟨fun hin => ⟨hother hne hj' hin, hin⟩, fun hin => hin.2⟩
  · intro other j' id hj' hin hout
    rw [Std.ExtTreeSet.mem_toList] at hout
    have hne : job ≠ other := by
      rintro rfl
      rw [hj] at hj'
      cases hj'
      exact hout hin
    exact ⟨j', by rw [hjobs, if_neg hne, hj']⟩

end TaskExchange.Scheduler
