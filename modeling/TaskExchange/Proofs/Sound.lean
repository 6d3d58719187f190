import TaskExchange.Proofs.Admission
import TaskExchange.Proofs.Passing
import TaskExchange.Proofs.Removal

/-!
Soundness: all that is true of the parts of a scheduler together, while an operation has some tasks
in its hand.  Main statements: shifts keep a scheduler sound (`Shifts.sound`), a recall does
(`Recall.sound`), and so does whatever operations do to the books: a batch or a single request is
accepted, a completion is acknowledged, a request is withdrawn, a job is deleted.
-/

namespace TaskExchange.Scheduler

/-- The parts of a scheduler agree, but for the tasks in `hand`, which stand nowhere yet. -/
structure Sound (s : Scheduler) (hand : Finset TaskId) : Prop where
  placed : Placed s hand
  numbered : Numbered s
  ledger : Ledger s
  awaited : Awaited s
  unleased : ∀ {id : TaskId} {t : Task} {lease : Option Instant}, s.tasks[id]? = some t →
    t.kind = .priority → s.inFlight[id]? = some lease → lease = none

variable {now : Moment} {s s' : Scheduler} {hand hand' : Finset TaskId} {log : List Handover}

theorem Sound.new (limits : Limits) : Sound (.new limits) ∅ where
  placed := .new limits
  numbered := .new limits
  ledger := .new limits
  awaited := .new limits
  unleased := by simp [Scheduler.new]

/-- Who waits on which connection is no matter of soundness. -/
theorem Sound.connections (hs : Sound s hand) (pool : Lanes ConnectionId)
    (polls : Switchboard (List Task)) (requesters : Switchboard ByteArray) :
    Sound { s with pool, polls, requesters } hand where
  placed := hs.placed.congr rfl rfl rfl
  numbered := ⟨hs.numbered.first, hs.numbered.below⟩
  ledger := ⟨hs.ledger.name, hs.ledger.listed, hs.ledger.category, hs.ledger.housed,
    hs.ledger.balanced⟩
  awaited := hs.awaited
  unleased := hs.unleased

/-! ### Shifts -/

theorem leaseEnd?_of_priority {t : Task} (h : t.kind = .priority) : s.leaseEnd? now t = none := by
  simp [leaseEnd?, Task.isRegional, h]

theorem Shift.sound (h : Shift now s hand log s' hand') (hs : Sound s hand) : Sound s' hand' where
  placed := h.placed hs.placed
  numbered := hs.numbered.congr h.books
  ledger := hs.ledger.congr h.books
  awaited := hs.awaited.congr h.books
  unleased := by
    intro id t' lease ht' hkind hid
    obtain ⟨t, ht, hsame⟩ := h.books.symm.task ht'
    have hkind' : t.kind = .priority := (t.kind_eq_of_asAccepted hsame).trans hkind
    rcases h.inFlight hid with hid | ⟨u, hu, rfl⟩
    · exact hs.unleased ht hkind' hid
    · rw [ht] at hu
      cases hu
      exact leaseEnd?_of_priority hkind'

theorem Shifts.sound (h : Shifts now s hand log s' hand') (hs : Sound s hand) : Sound s' hand' := by
  induction h with
  | refl => exact hs
  | tail _ hshift ih => exact hshift.sound ih

theorem Recall.sound {back : List TaskId} (h : Recall s back s') (hs : Sound s ∅) :
    Sound s' back.toFinset where
  placed := h.placed hs.placed
  numbered := hs.numbered.congr h.books
  ledger := hs.ledger.congr h.books
  awaited := hs.awaited.congr h.books
  unleased := by
    intro id t' lease ht' hkind hid
    obtain ⟨t, ht, hsame⟩ := h.books.symm.task ht'
    rw [h.inFlight] at hid
    split at hid
    · cases hid
    · exact hs.unleased ht ((t.kind_eq_of_asAccepted hsame).trans hkind) hid

/-! ### Tasks that come -/

/-- What is in flight is in the table. -/
theorem Sound.mem_tasks_of_inFlight (hs : Sound s hand) {id : TaskId} (h : id ∈ s.inFlight) :
    id ∈ s.tasks := by
  obtain ⟨t, ht, -⟩ := hs.placed.inFlight.mp h
  exact mem_tasks ht

/-- The tasks whose leases have ended. -/
theorem mem_expired {id : TaskId} {t : Instant} :
    id ∈ s.expired t ↔ ∃ lease, s.inFlight[id]? = some (some lease) ∧ lease ≤ t := by
  simp [expired, Std.ExtTreeMap.mem_toList_iff_getElem?_eq_some, Option.any_eq_true]

/-- Only regional tasks have leases. -/
theorem Sound.regional_of_expired (hs : Sound s hand) {id : TaskId} {t : Instant}
    (h : id ∈ s.expired t) : ∃ task, s.tasks[id]? = some task ∧ task.kind = .regional := by
  obtain ⟨lease, hlease, -⟩ := mem_expired.mp h
  obtain ⟨task, ht⟩ := exists_of_mem_tasks
    (hs.mem_tasks_of_inFlight (Std.ExtTreeMap.getElem?_eq_some_iff.mp hlease).1)
  refine ⟨task, ht, ?_⟩
  cases hkind : task.kind with
  | regional => rfl
  | priority => cases hs.unleased ht hkind hlease

section

variable {job : JobId} {category : Category} {requests : List Request}

theorem Sound.enroll (hs : Sound s ∅) (now : Moment)
    (h : s.targetOf requests = .ok (job, category)) :
    Sound (s.enroll now job category requests)
      (numbersFrom s.nextId.value requests.length).toFinset := by
  obtain ⟨-, hreq, hcat⟩ := targetOf_ok h
  refine ⟨hs.placed.enroll hs.numbered, hs.numbered.enroll, hs.ledger.enroll hs.numbered hreq hcat,
    ?_, ?_⟩
  · intro id
    rw [enroll_producers, hs.awaited id]
    constructor
    · rintro ⟨t, ht, hkind⟩
      exact ⟨t, enroll_task_of_some hs.numbered ht, hkind⟩
    · rintro ⟨t, ht, hkind⟩
      rcases enroll_task ht with ⟨r, -, rfl, -⟩ | ht
      · cases hkind
      · exact ⟨t, ht, hkind⟩
  · intro id t lease ht hkind hid
    rw [enroll_inFlight] at hid
    rcases enroll_task ht with ⟨r, -, rfl, -⟩ | ht
    · cases hkind
    · exact hs.unleased ht hkind hid

theorem Sound.enrollSingle (hs : Sound s ∅) (now : Moment) (r : Request) (c : ConnectionId) :
    Sound (s.enrollSingle now r c) {s.nextId} := by
  refine ⟨hs.placed.enrollSingle hs.numbered, hs.numbered.enrollSingle,
    hs.ledger.enrollSingle hs.numbered, ?_, ?_⟩
  · intro id
    have hproducers : id ∈ (s.enrollSingle now r c).producers ↔
        s.nextId = id ∨ id ∈ s.producers := by
      simp [Scheduler.enrollSingle, Std.ExtTreeMap.mem_insert]
    rw [hproducers, getElem?_enrollSingle]
    split
    · next h =>
      simp only [h, true_or, true_iff]
      exact ⟨_, rfl, rfl⟩
    · next h => simpa [h] using hs.awaited id
  · intro id t lease ht hkind hid
    rw [getElem?_enrollSingle] at ht
    split at ht
    · next h =>
      have hin : id ∈ s.inFlight := (Std.ExtTreeMap.getElem?_eq_some_iff.mp hid).1
      exact absurd (hs.mem_tasks_of_inFlight hin) (h ▸ hs.numbered.nextId_notMem)
    · exact hs.unleased ht hkind hid

end

/-! ### Tasks that leave -/

theorem Removal.sound {gone : List TaskId} (h : Removal s gone s') (hs : Sound s ∅)
    (hledger : Ledger s')
    (hproducers : ∀ id, id ∈ s'.producers ↔ id ∉ gone ∧ id ∈ s.producers) : Sound s' ∅ where
  placed := h.placed hs.placed
  numbered := h.numbered hs.numbered
  ledger := hledger
  awaited := h.awaited hs.awaited hproducers
  unleased := by
    intro id t lease ht hkind hid
    obtain ⟨hnot, ht⟩ := h.task_iff.mp ht
    rw [h.inFlight, if_neg hnot] at hid
    exact hs.unleased ht hkind hid

/-- No result of a regional task is awaited. -/
theorem Sound.notMem_producers (hs : Sound s hand) {id : TaskId} {t : Task}
    (ht : s.tasks[id]? = some t) (hkind : t.kind = .regional) : id ∉ s.producers := by
  intro hin
  obtain ⟨u, hu, hpriority⟩ := (hs.awaited id).mp hin
  rw [ht] at hu
  cases hu
  rw [hkind] at hpriority
  cases hpriority

theorem Sound.acknowledge (hs : Sound s ∅) {id : TaskId} (h : s.acknowledge? id = some s') :
    Sound s' ∅ := by
  obtain ⟨t, job, j, ht, rfl, hkind, hjob, hj, hin, rfl⟩ :=
    acknowledge?_eq_some hs.placed hs.ledger h
  have hr := removal_completeIn hs.placed ht job j
  refine hr.sound hs (ledger_completeIn hs.ledger hr ht hjob hj hin) fun id => ?_
  change id ∈ s.producers ↔ _
  rw [List.mem_singleton]
  refine ⟨fun hid => ⟨?_, hid⟩, fun hid => hid.2⟩
  rintro rfl
  exact hs.notMem_producers ht hkind hid

theorem Sound.deleteJob (hs : Sound s ∅) {job : JobId} (h : s.deleteJob? job = some s') :
    Sound s' ∅ := by
  obtain ⟨j, hj, hr⟩ := removal_deleteJob hs.placed hs.ledger h
  refine hr.sound hs (ledger_deleteJob hs.ledger hj h hr) fun id => ?_
  have hproducers : s'.producers = s.producers := by
    rw [deleteJob?, hj] at h
    rw [← Option.some.inj h]
  rw [hproducers, Std.ExtTreeSet.mem_toList]
  refine ⟨fun hid => ⟨fun hin => ?_, hid⟩, fun hid => hid.2⟩
  obtain ⟨t, ht, hkind, -⟩ := (hs.ledger.listed hj).mp hin
  exact hs.notMem_producers ht hkind hid

theorem Sound.withdraw (hs : Sound s ∅) {id : TaskId} {t : Task} (ht : s.tasks[id]? = some t)
    (hkind : t.kind = .priority) : Sound (s.withdraw id).2 ∅ := by
  have hr := removal_withdraw hs.placed ht hkind
  obtain rfl := hs.placed.key ht
  rw [withdraw_state ht hkind] at hr ⊢
  refine hr.sound hs ?_ fun id => ?_
  · obtain ⟨h₁, h₂, h₃, h₄, h₅⟩ := ledger_forget hs.ledger (removal_forget hs.placed ht) ht hkind
    exact ⟨h₁, h₂, h₃, h₄, h₅⟩
  · simp [Std.ExtTreeMap.mem_erase, @eq_comm _ id]

end TaskExchange.Scheduler
