import TaskExchange.Proofs.Shift

/-!
Books: the numbers that were given out, the jobs that own the regional tasks, and the producers that
wait for the results of the priority tasks.  Main statements: shifts change none of them
(`Numbered.congr`, `Ledger.congr`, `Awaited.congr`), so it is enough to look at what an operation
itself writes down.
-/

namespace TaskExchange.Scheduler

/-- Tasks are numbered from 1, and the next number is not in use. -/
structure Numbered (s : Scheduler) : Prop where
  first : 0 < s.nextId.value
  below : ∀ {id : TaskId}, id ∈ s.tasks → 0 < id.value ∧ id.value < s.nextId.value

/-- Each job lists the regional tasks that name it, all of its category, and each regional task has
its job. -/
structure Ledger (s : Scheduler) : Prop where
  name : ∀ {job : JobId} {j : Job}, s.jobs[job]? = some j → j.id = job
  listed : ∀ {job : JobId} {j : Job} {id : TaskId}, s.jobs[job]? = some j →
    (id ∈ j.outstanding ↔ ∃ t, s.tasks[id]? = some t ∧ t.kind = .regional ∧ t.job = some job)
  category : ∀ {job : JobId} {j : Job} {id : TaskId} {t : Task}, s.jobs[job]? = some j →
    id ∈ j.outstanding → s.tasks[id]? = some t → t.category = j.category
  housed : ∀ {id : TaskId} {t : Task}, s.tasks[id]? = some t → t.kind = .regional →
    ∃ job j, t.job = some job ∧ s.jobs[job]? = some j
  balanced : ∀ {job : JobId} {j : Job}, s.jobs[job]? = some j →
    j.total = j.outstanding.size + j.completed

/-- The results that are awaited are those of the priority tasks. -/
def Awaited (s : Scheduler) : Prop :=
  ∀ id, id ∈ s.producers ↔ ∃ t, s.tasks[id]? = some t ∧ t.kind = .priority

variable {s s' : Scheduler}

theorem mem_tasks {id : TaskId} {t : Task} (ht : s.tasks[id]? = some t) : id ∈ s.tasks :=
  (Std.ExtTreeMap.getElem?_eq_some_iff.mp ht).1

theorem exists_of_mem_tasks {id : TaskId} (h : id ∈ s.tasks) : ∃ t, s.tasks[id]? = some t :=
  Option.isSome_iff_exists.mp (Std.ExtTreeMap.mem_iff_isSome_getElem?.mp h)

namespace Numbered

theorem new (limits : Limits) : Numbered (.new limits) := by
  constructor <;> simp [Scheduler.new]

theorem congr (hn : Numbered s) (h : SameBooks s s') : Numbered s' where
  first := h.nextId ▸ hn.first
  below hid := h.nextId ▸ hn.below (h.mem.mp hid)

theorem notMem_of_le (hn : Numbered s) {id : TaskId} (h : s.nextId.value ≤ id.value) :
    id ∉ s.tasks := fun hid => Nat.not_lt.mpr h (hn.below hid).2

end Numbered

namespace Ledger

theorem new (limits : Limits) : Ledger (.new limits) := by
  constructor <;> simp [Scheduler.new]

/-- What a job lists is in the table. -/
theorem mem_of_listed (hl : Ledger s) {job : JobId} {j : Job} {id : TaskId}
    (hj : s.jobs[job]? = some j) (hid : id ∈ j.outstanding) : id ∈ s.tasks := by
  obtain ⟨t, ht, -⟩ := (hl.listed hj).mp hid
  exact mem_tasks ht

theorem congr (hl : Ledger s) (h : SameBooks s s') : Ledger s' := by
  have hjobs : ∀ job : JobId, s'.jobs[job]? = s.jobs[job]? := fun job => by rw [h.jobs]
  constructor
  · intro job j hj
    exact hl.name (hjobs job ▸ hj)
  · intro job j id hj
    rw [hl.listed (hjobs job ▸ hj)]
    constructor
    · rintro ⟨t, ht, hkind, hjob⟩
      obtain ⟨t', ht', hsame⟩ := h.task ht
      exact ⟨t', ht', (t'.kind_eq_of_asAccepted hsame).trans hkind,
        (t'.job_eq_of_asAccepted hsame).trans hjob⟩
    · rintro ⟨t', ht', hkind, hjob⟩
      obtain ⟨t, ht, hsame⟩ := h.symm.task ht'
      exact ⟨t, ht, (t.kind_eq_of_asAccepted hsame).trans hkind,
        (t.job_eq_of_asAccepted hsame).trans hjob⟩
  · intro job j id t' hj hid ht'
    obtain ⟨t, ht, hsame⟩ := h.symm.task ht'
    exact (t.category_eq_of_asAccepted hsame).symm.trans (hl.category (hjobs job ▸ hj) hid ht)
  · intro id t' ht' hkind
    obtain ⟨t, ht, hsame⟩ := h.symm.task ht'
    obtain ⟨job, j, hjob, hj⟩ := hl.housed ht ((t.kind_eq_of_asAccepted hsame).trans hkind)
    exact ⟨job, j, (t.job_eq_of_asAccepted hsame).symm.trans hjob, hjobs job ▸ hj⟩
  · intro job j hj
    exact hl.balanced (hjobs job ▸ hj)

end Ledger

theorem Awaited.new (limits : Limits) : Awaited (.new limits) := by
  intro id
  simp [Scheduler.new]

theorem Awaited.congr (ha : Awaited s) (h : SameBooks s s') : Awaited s' := by
  intro id
  rw [h.producers, ha id]
  constructor
  · rintro ⟨t, ht, hkind⟩
    obtain ⟨t', ht', hsame⟩ := h.task ht
    exact ⟨t', ht', (t'.kind_eq_of_asAccepted hsame).trans hkind⟩
  · rintro ⟨t', ht', hkind⟩
    obtain ⟨t, ht, hsame⟩ := h.symm.task ht'
    exact ⟨t, ht, (t.kind_eq_of_asAccepted hsame).trans hkind⟩

end TaskExchange.Scheduler
