import TaskExchange.Proofs.Completion
import TaskExchange.Proofs.Result

/-!
Departure: what a removal leaves behind.  The state after a completion is acknowledged, a request is
withdrawn or a job is deleted is the state before it with some numbers filtered out of the table,
the lines and the deliveries.  Who leaves is told by the table alone.  Main statements: a removal
takes these numbers out and only the jobs and the producers can differ besides
(`Removal.eq_without`), and each of the three ways to leave says what becomes of those
(`departures_run`).
-/

namespace TaskExchange

namespace Lanes

variable {α : Type}

/-- Keeps of every line what a test holds of. -/
def filter (m : Lanes α) (p : α → Bool) : Lanes α where
  lines := m.lines.filterMap fun _ xs => if xs.filter p = [] then none else some (xs.filter p)
  nonempty := by
    intro lane xs h
    rw [Std.ExtTreeMap.getElem?_filterMap', Option.bind_eq_some_iff] at h
    obtain ⟨ys, -, h⟩ := h
    split at h
    · cases h
    · next hne =>
      cases h
      exact hne

@[simp] theorem line_filter (m : Lanes α) (p : α → Bool) (lane : Lane) :
    (m.filter p).line lane = (m.line lane).filter p := by
  simp only [line, filter, Std.ExtTreeMap.getElem?_filterMap']
  cases m.lines[lane]? with
  | none => rfl
  | some xs =>
    change (if xs.filter p = [] then none else some (xs.filter p)).getD [] = xs.filter p
    split
    · next h => exact h.symm
    · rfl

end Lanes

namespace Scheduler

/-- The state without some tasks: they are in no table, no line and with no worker. -/
def without (s : Scheduler) (gone : List TaskId) : Scheduler :=
  { s with
    tasks := s.tasks.filter fun id _ => id ∉ gone
    inFlight := s.inFlight.filter fun id _ => id ∉ gone
    queues := s.queues.filter (· ∉ gone) }

/-- The regional tasks that name a job. -/
def regionalOf (s : Scheduler) (job : JobId) : List TaskId :=
  (s.tasks.toList.filter fun entry => entry.2.kind = .regional ∧ entry.2.job = some job).map (·.1)

variable {s s' : Scheduler} {gone gone' : List TaskId} {id : TaskId} {job : JobId}

/-! ### The state without some tasks -/

theorem getElem?_filter_notMem {β : Type} (m : Std.ExtTreeMap TaskId β) (gone : List TaskId)
    (id : TaskId) :
    (m.filter fun id _ => id ∉ gone)[id]? = if id ∈ gone then none else m[id]? := by
  rw [Std.ExtTreeMap.getElem?_filter']
  by_cases h : id ∈ gone
  · simp [h]
  · cases m[id]? <;> simp [h]

/-- Some tasks have left, and nothing else has moved. -/
theorem removal_without (s : Scheduler) (gone : List TaskId) : Removal s gone (s.without gone) where
  limits := rfl
  nextId := rfl
  pool := rfl
  polls := rfl
  requesters := rfl
  tasks := getElem?_filter_notMem s.tasks gone
  inFlight := getElem?_filter_notMem s.inFlight gone
  line := s.queues.line_filter _

/-- It matters which tasks are gone, not how they are listed. -/
theorem without_congr (h : ∀ id, id ∈ gone ↔ id ∈ gone') : s.without gone = s.without gone' := by
  simp only [without, h]

theorem mem_regionalOf : id ∈ s.regionalOf job ↔
    ∃ t, s.tasks[id]? = some t ∧ t.kind = .regional ∧ t.job = some job := by
  simp [regionalOf, Std.ExtTreeMap.mem_toList_iff_getElem?_eq_some]

/-! ### Removals -/

/-- Of what is left when some tasks have left, only the jobs and the producers are open. -/
theorem Removal.unique {s₁ s₂ : Scheduler} (h₁ : Removal s gone s₁) (h₂ : Removal s gone s₂)
    (hjobs : s₁.jobs = s₂.jobs) (hproducers : s₁.producers = s₂.producers) : s₁ = s₂ := by
  have htasks : s₁.tasks = s₂.tasks :=
    Std.ExtTreeMap.ext_getElem? fun {id} => by rw [h₁.tasks, h₂.tasks]
  have hinFlight : s₁.inFlight = s₂.inFlight :=
    Std.ExtTreeMap.ext_getElem? fun {id} => by rw [h₁.inFlight, h₂.inFlight]
  have hqueues : s₁.queues = s₂.queues := Lanes.ext_line fun lane => by rw [h₁.line, h₂.line]
  obtain ⟨hlimits₁, hnextId₁, hpool₁, hpolls₁, hrequesters₁, -, -, -⟩ := h₁
  obtain ⟨hlimits₂, hnextId₂, hpool₂, hpolls₂, hrequesters₂, -, -, -⟩ := h₂
  cases s₁
  cases s₂
  simp_all

theorem Removal.eq_without (h : Removal s gone s') :
    s' = { s.without gone with jobs := s'.jobs, producers := s'.producers } := by
  obtain ⟨h₁, h₂, h₃, h₄, h₅, h₆, h₇, h₈⟩ := removal_without s gone
  exact h.unique ⟨h₁, h₂, h₃, h₄, h₅, h₆, h₇, h₈⟩ rfl rfl

/-- A completion is acknowledged of every regional task. -/
theorem Sound.acknowledge?_eq (hs : Sound s ∅) {t : Task} (ht : s.tasks[id]? = some t)
    (hkind : t.kind = .regional) :
    ∃ job j, t.job = some job ∧ s.jobs[job]? = some j ∧ id ∈ j.outstanding ∧
      s.acknowledge? id = some { s.without [id] with
        jobs := s.jobs.insert job
          { j with outstanding := j.outstanding.erase id, completed := j.completed + 1 } } := by
  obtain ⟨s', hs'⟩ := Option.isSome_iff_exists.mp (acknowledge?_isSome_iff.mpr ⟨t, ht, hkind⟩)
  obtain ⟨u, job, j, hu, rfl, -, hjob, hj, hin, rfl⟩ :=
    acknowledge?_eq_some hs.placed hs.ledger hs'
  cases ht.symm.trans hu
  refine ⟨job, j, hjob, hj, hin, ?_⟩
  rw [hs', (removal_completeIn hs.placed hu job j).eq_without]
  rfl

/-- Every priority task can be withdrawn, and its producer is known. -/
theorem Sound.withdraw_eq (hs : Sound s ∅) {t : Task} (ht : s.tasks[id]? = some t)
    (hkind : t.kind = .priority) :
    ∃ c, s.producers[id]? = some c ∧
      s.withdraw id = (some c, { s.without [id] with producers := s.producers.erase id }) := by
  obtain ⟨c, hc⟩ := Option.isSome_iff_exists.mp
    (Std.ExtTreeMap.mem_iff_isSome_getElem?.mp ((hs.awaited id).mpr ⟨t, ht, hkind⟩))
  refine ⟨c, hc, Prod.ext ?_ ?_⟩
  · simp [Scheduler.withdraw, ht, Task.isRegional, hkind, hc]
  · have hstate := (removal_withdraw hs.placed ht hkind).eq_without
    obtain rfl := hs.placed.key ht
    rw [withdraw_state ht hkind] at hstate ⊢
    exact hstate

/-- Every job can be deleted, and the tasks that it lists are those that name it. -/
theorem Sound.deleteJob?_eq (hs : Sound s ∅) (h : job ∈ s.jobs) :
    s.deleteJob? job =
      some { s.without (s.regionalOf job) with jobs := s.jobs.erase job } := by
  obtain ⟨j, hj⟩ := Option.isSome_iff_exists.mp (Std.ExtTreeMap.mem_iff_isSome_getElem?.mp h)
  obtain ⟨s', hs'⟩ : ∃ s', s.deleteJob? job = some s' := ⟨_, by rw [deleteJob?, hj]; rfl⟩
  obtain ⟨k, hk, hremoval⟩ := removal_deleteJob hs.placed hs.ledger hs'
  cases hj.symm.trans hk
  have hgone : s.without j.outstanding.toList = s.without (s.regionalOf job) :=
    without_congr fun id => by
      rw [Std.ExtTreeSet.mem_toList, hs.ledger.listed hj, mem_regionalOf]
  have hbooks : s'.jobs = s.jobs.erase job ∧ s'.producers = s.producers := by
    rw [deleteJob?, hj] at hs'
    rw [← Option.some.inj hs']
    exact ⟨rfl, rfl⟩
  rw [hs', hremoval.eq_without, hgone, hbooks.1, hbooks.2]
  rfl

/-! ### The three ways to leave -/

/-- A removal that succeeds takes out what it names, and one that does not changes nothing. -/
structure Departures (s : Scheduler) (now : Moment) : Prop where
  /-- An acknowledged task leaves, and is counted in its job. -/
  acknowledged : ∀ id,
    (∃ t job j, s.tasks[id]? = some t ∧ t.kind = .regional ∧ t.job = some job ∧
      s.jobs[job]? = some j ∧ id ∈ j.outstanding ∧
      s.step now (.acknowledge id) = (.found true, { s.without [id] with
        jobs := s.jobs.insert job
          { j with outstanding := j.outstanding.erase id, completed := j.completed + 1 } })) ∨
    ((¬ ∃ t, s.tasks[id]? = some t ∧ t.kind = .regional) ∧
      s.step now (.acknowledge id) = (.found false, s))
  /-- A withdrawn task leaves with its producer, who is told. -/
  withdrawn : ∀ id,
    (∃ t c, s.tasks[id]? = some t ∧ t.kind = .priority ∧ s.producers[id]? = some c ∧
      s.step now (.withdraw id) =
        (.withdrawn (some c), { s.without [id] with producers := s.producers.erase id })) ∨
    ((¬ ∃ t, s.tasks[id]? = some t ∧ t.kind = .priority) ∧
      s.step now (.withdraw id) = (.withdrawn none, s))
  /-- A deleted job leaves with the regional tasks that name it, wherever they are. -/
  deleted : ∀ job,
    (job ∈ s.jobs ∧ s.step now (.deleteJob job) =
      (.found true, { s.without (s.regionalOf job) with jobs := s.jobs.erase job })) ∨
    (job ∉ s.jobs ∧ s.step now (.deleteJob job) = (.found false, s))

theorem Sound.departures (hs : Sound s ∅) (now : Moment) : Departures s now where
  acknowledged id := by
    by_cases h : ∃ t, s.tasks[id]? = some t ∧ t.kind = .regional
    · obtain ⟨t, ht, hkind⟩ := h
      obtain ⟨job, j, hjob, hj, hin, heq⟩ := hs.acknowledge?_eq ht hkind
      exact Or.inl ⟨t, job, j, ht, hkind, hjob, hj, hin, by simp [step, heq]⟩
    · have hnone : s.acknowledge? id = none := by
        rw [← Option.not_isSome_iff_eq_none, acknowledge?_isSome_iff]
        exact h
      exact Or.inr ⟨h, by simp [step, hnone]⟩
  withdrawn id := by
    by_cases h : ∃ t, s.tasks[id]? = some t ∧ t.kind = .priority
    · obtain ⟨t, ht, hkind⟩ := h
      obtain ⟨c, hc, heq⟩ := hs.withdraw_eq ht hkind
      exact Or.inl ⟨t, c, ht, hkind, hc, by simp [step, heq]⟩
    · have hnone : s.withdraw id = (none, s) :=
        hs.withdraw_of_notMem (mt (hs.awaited id).mp h)
      exact Or.inr ⟨h, by simp [step, hnone]⟩
  deleted job := by
    by_cases h : job ∈ s.jobs
    · exact Or.inl ⟨h, by simp [step, hs.deleteJob?_eq h]⟩
    · have hnone : s.deleteJob? job = none := by
        rw [deleteJob?, Std.ExtTreeMap.getElem?_eq_none h]
        rfl
      exact Or.inr ⟨h, by simp [step, hnone]⟩

/-- After every run, completions, withdrawals and deletions hit exactly what they name: the state
that they leave is the state that they find, with the numbers filtered out that the table has under
that name. -/
theorem departures_run (limits : Limits) (steps : List (Moment × Operation)) (now : Moment) :
    Departures ((new limits).run steps) now :=
  (sound_run limits steps).departures now

end Scheduler

end TaskExchange
