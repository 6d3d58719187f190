import TaskExchange.Proofs.Entry

/-!
The roll: who is in the table, each task as it was accepted.  Main statements: an event strikes off
the roll the tasks that its entry ends, puts those on it that its entry accepts, and leaves all
others on it as they are (`Event.roll_iff`); the accepted tasks have the numbers that follow
(`Event.numbers`).
-/

namespace TaskExchange.Scheduler

/-- The task of a number as it was accepted. -/
def roll? (s : Scheduler) (id : TaskId) : Option Task := s.tasks[id]?.map Task.asAccepted

namespace Entry

/-- Holds of the tasks that leave: a regional task when its completion is acknowledged or its job is
deleted, a priority task when its request is withdrawn or answered. -/
def ends : Entry → Task → Prop
  | .acknowledged id, t => t.kind = .regional ∧ t.id = id
  | .withdrawn id, t => t.kind = .priority ∧ t.id = id
  | .deleted job, t => t.kind = .regional ∧ t.job = some job
  | _, _ => False

end Entry

variable {now : Moment} {s s' mid : Scheduler} {hand : Finset TaskId} {entry : Entry} {id : TaskId}
  {t : Task}

theorem roll?_of_task (ht : s.tasks[id]? = some t) : s.roll? id = some t.asAccepted := by
  simp [roll?, ht]

theorem mem_tasks_iff_roll? : id ∈ s.tasks ↔ ∃ t, s.roll? id = some t := by
  rw [Std.ExtTreeMap.mem_iff_isSome_getElem?, ← Option.isSome_iff_exists, roll?, Option.isSome_map]

theorem Placed.id_eq (hp : Placed s hand) (h : s.roll? id = some t) : t.id = id := by
  obtain ⟨u, hu, rfl⟩ := Option.map_eq_some_iff.mp h
  have hkey : u.id = id := hp.key hu
  exact hkey

theorem SameBooks.roll? (h : SameBooks s s') (id : TaskId) : s'.roll? id = s.roll? id := h.tasks id

/-! ### New tasks -/

/-- A batch's task of a number is that of the request under this number. -/
theorem mem_batchTasks {first : Nat} {requests : List Request} :
    t ∈ batchTasks now (numbersFrom first requests.length) requests ∧ t.id = id ↔
      (requestUnder first requests id).map (.ofRequest id .regional now.civil) = some t := by
  have hget : ∀ i, (batchTasks now (numbersFrom first requests.length) requests)[i]? =
      requests[i]?.map (Task.ofRequest ⟨first + i⟩ .regional now.civil) := by
    intro i
    rw [batchTasks, List.getElem?_zipWith, numbersFrom, List.getElem?_map]
    by_cases hi : i < requests.length
    · simp [hi]
    · simp [Nat.le_of_not_lt hi]
  rw [List.mem_iff_getElem?, requestUnder]
  constructor
  · rintro ⟨⟨i, hi⟩, rfl⟩
    rw [hget, Option.map_eq_some_iff] at hi
    obtain ⟨r, hr, rfl⟩ := hi
    simp [Task.ofRequest, hr]
  · split
    · next hfirst =>
      intro h
      obtain ⟨r, hr, rfl⟩ := Option.map_eq_some_iff.mp h
      refine ⟨⟨id.value - first, ?_⟩, rfl⟩
      rw [hget, hr, Nat.add_sub_cancel' hfirst]
      rfl
    · intro h
      cases h

theorem length_batchTasks (now : Moment) {ids : List TaskId} {requests : List Request}
    (h : ids.length = requests.length) : (batchTasks now ids requests).length = ids.length := by
  simp [batchTasks, h]

/-- The tasks that an entry accepts have the numbers that follow. -/
theorem Enters.numbers (h : Enters now s entry mid hand) (hs : Sound s ∅) :
    entry.tasks.map Task.id = numbersFrom s.nextId.value entry.tasks.length ∧
      mid.nextId.value = s.nextId.value + entry.tasks.length := by
  cases h with
  | connections _ _ hrecall => exact ⟨rfl, congrArg TaskId.value hrecall.nextId⟩
  | park => exact ⟨rfl, rfl⟩
  | @batch requests job category =>
    have hlength : (numbersFrom s.nextId.value requests.length).length = requests.length :=
      length_numbersFrom ..
    simp only [Entry.tasks, ids_batchTasks now hlength, length_batchTasks now hlength, hlength,
      enroll_nextId, and_self]
  | single => exact ⟨rfl, rfl⟩
  | acknowledge hmid =>
    obtain ⟨u, -, -, hr⟩ := removal_acknowledge hs.placed hs.ledger hmid
    exact ⟨rfl, congrArg TaskId.value hr.nextId⟩
  | withdraw ht hkind =>
    exact ⟨rfl, congrArg TaskId.value (removal_withdraw hs.placed ht hkind).nextId⟩
  | withdrawNothing => exact ⟨rfl, rfl⟩
  | deleteJob hmid =>
    obtain ⟨j, -, hr⟩ := removal_deleteJob hs.placed hs.ledger hmid
    exact ⟨rfl, congrArg TaskId.value hr.nextId⟩

/-! ### The roll after an entry -/

/-- A removal strikes those off the roll that it is about. -/
theorem Removal.roll_iff {gone : List TaskId} (h : Removal s gone s') {p : Task → Prop}
    (id : TaskId) (hp : ∀ {t}, s.roll? id = some t → (id ∈ gone ↔ p t)) :
    s'.roll? id = some t ↔ s.roll? id = some t ∧ ¬ p t := by
  have htasks : s'.roll? id = if id ∈ gone then none else s.roll? id := by
    rw [Scheduler.roll?, h.tasks]
    split <;> rfl
  rw [htasks]
  constructor
  · intro ht
    split at ht
    · cases ht
    · next hid => exact ⟨ht, fun hend => hid ((hp ht).mpr hend)⟩
  · rintro ⟨ht, hend⟩
    rw [if_neg fun hid => hend ((hp ht).mp hid), ht]

theorem Removal.roll_iff_singleton {x : TaskId} {u : Task} (h : Removal s [x] s')
    (hp : Placed s ∅) (hu : s.tasks[x]? = some u) (id : TaskId) :
    s'.roll? id = some t ↔ s.roll? id = some t ∧ ¬ (t.kind = u.kind ∧ t.id = x) := by
  refine h.roll_iff (p := fun t => t.kind = u.kind ∧ t.id = x) id fun {t} ht => ?_
  rw [List.mem_singleton, hp.id_eq ht]
  refine ⟨?_, fun hend => hend.2⟩
  rintro rfl
  rw [roll?_of_task hu] at ht
  cases ht
  exact ⟨rfl, rfl⟩

/-- Tasks that are new have numbers that nobody has. -/
theorem roll?_nextId (hs : Sound s ∅) {k : Nat} (h : s.nextId.value ≤ k) : s.roll? ⟨k⟩ = none := by
  have hnot : (⟨k⟩ : TaskId) ∉ s.tasks := hs.numbered.notMem_of_le h
  rw [roll?, getElem?_neg s.tasks _ hnot]
  rfl

theorem roll?_enroll (hs : Sound s ∅) {job : JobId} {category : Category}
    {requests : List Request} :
    (s.enroll now job category requests).roll? id = some t ↔
      s.roll? id = some t ∨
        t ∈ batchTasks now (numbersFrom s.nextId.value requests.length) requests ∧ t.id = id := by
  have hroll : (s.enroll now job category requests).roll? id =
      ((requestUnder s.nextId.value requests id).map (.ofRequest id .regional now.civil)).or
        (s.roll? id) := by
    rw [roll?, getElem?_enroll, Option.map_or, Option.map_map]
    rfl
  rw [mem_batchTasks, hroll]
  cases hr : requestUnder s.nextId.value requests id with
  | none => simp
  | some r =>
    have hid : id ∈ numbersFrom s.nextId.value requests.length := by
      by_contra hnot
      rw [requestUnder_eq_none_iff.mpr hnot] at hr
      cases hr
    simp [roll?_nextId hs (mem_numbersFrom.mp hid).1]

theorem roll?_enrollSingle (hs : Sound s ∅) {r : Request} {c : ConnectionId} :
    (s.enrollSingle now r c).roll? id = some t ↔
      s.roll? id = some t ∨
        t ∈ [Task.ofRequest s.nextId .priority now.civil r] ∧ t.id = id := by
  rw [roll?, getElem?_enrollSingle, List.mem_singleton]
  split
  · next h =>
    subst h
    rw [roll?_nextId hs (Nat.le_refl _)]
    constructor
    · intro h
      cases h
      exact Or.inr ⟨rfl, rfl⟩
    · rintro (h | ⟨rfl, -⟩)
      · cases h
      · rfl
  · next h =>
    refine ⟨Or.inl, ?_⟩
    rintro (h' | ⟨rfl, hid⟩)
    · exact h'
    · exact absurd hid h

theorem Enters.roll_iff (h : Enters now s entry mid hand) (hs : Sound s ∅) :
    mid.roll? id = some t ↔
      (s.roll? id = some t ∧ ¬ entry.ends t) ∨ (t ∈ entry.tasks ∧ t.id = id) := by
  cases h with
  | connections _ _ hrecall =>
    have hroll : mid.roll? id = s.roll? id := hrecall.books.roll? id
    simp [Entry.tasks, Entry.ends, hroll]
  | park => simp [Entry.tasks, Entry.ends, roll?]
  | batch => simpa [Entry.tasks, Entry.ends] using roll?_enroll hs
  | single => simpa [Entry.tasks, Entry.ends] using roll?_enrollSingle hs
  | acknowledge hmid =>
    obtain ⟨u, hu, hkind, hr⟩ := removal_acknowledge hs.placed hs.ledger hmid
    have hroll := hr.roll_iff_singleton (t := t) hs.placed hu id
    simpa [Entry.tasks, Entry.ends, hkind] using hroll
  | withdraw hu hkind =>
    have hroll := (removal_withdraw hs.placed hu hkind).roll_iff_singleton (t := t)
      hs.placed hu id
    simpa [Entry.tasks, Entry.ends, hkind, roll?] using hroll
  | @withdrawNothing x requesters hnone =>
    have hkeep : s.roll? id = some t → ¬ Entry.ends (.withdrawn x) t := by
      rintro ht ⟨hkind, rfl⟩
      obtain ⟨u, hu, rfl⟩ := Option.map_eq_some_iff.mp ht
      have hregional := hnone u ((hs.placed.key hu : u.id = id) ▸ hu)
      rw [show u.kind = .priority from hkind] at hregional
      cases hregional
    simp only [Entry.tasks, List.not_mem_nil, false_and, or_false]
    exact ⟨fun ht => ⟨ht, hkeep ht⟩, fun ht => ht.1⟩
  | @deleteJob job mid hmid =>
    obtain ⟨j, hj, hr⟩ := removal_deleteJob hs.placed hs.ledger hmid
    have hroll := hr.roll_iff (t := t) (p := Entry.ends (.deleted job)) id ?_
    · simpa [Entry.tasks] using hroll
    · intro t ht
      obtain ⟨u, hu, rfl⟩ := Option.map_eq_some_iff.mp ht
      rw [Std.ExtTreeSet.mem_toList, hs.ledger.listed hj, hu]
      simp [Entry.ends, Task.asAccepted]

/-! ### The roll after an event -/

theorem Event.roll_iff (e : Event) (hs : Sound e.before ∅) :
    e.after.roll? id = some t ↔
      (e.before.roll? id = some t ∧ ¬ e.entry.ends t) ∨ (t ∈ e.entry.tasks ∧ t.id = id) := by
  obtain ⟨mid, he⟩ := e.enters hs
  rw [he.shifts.books.roll? id]
  exact he.enters.roll_iff hs

theorem Event.numbers (e : Event) (hs : Sound e.before ∅) :
    e.entry.tasks.map Task.id = numbersFrom e.before.nextId.value e.entry.tasks.length ∧
      e.after.nextId.value = e.before.nextId.value + e.entry.tasks.length := by
  obtain ⟨mid, he⟩ := e.enters hs
  rw [he.shifts.books.nextId]
  exact he.enters.numbers hs

/-- A new task has a number that nobody had. -/
theorem Event.le_of_mem_tasks (e : Event) (hs : Sound e.before ∅) (ht : t ∈ e.entry.tasks) :
    e.before.nextId.value ≤ t.id.value := by
  have hid : t.id ∈ e.entry.tasks.map Task.id := List.mem_map_of_mem ht
  rw [(e.numbers hs).1] at hid
  exact (mem_numbersFrom.mp hid).1

theorem sound_of_mem_trace {limits : Limits} {steps : List (Moment × Operation)} {e : Event}
    (he : e ∈ (new limits).trace steps) : Sound e.before ∅ := by
  obtain ⟨xs, hbefore⟩ := exists_run_of_mem he
  exact hbefore ▸ sound_run limits xs

/-- Whoever is in the table was accepted. -/
theorem mem_accepted_run (limits : Limits) (steps : List (Moment × Operation))
    (h : ((new limits).run steps).roll? id = some t) :
    t ∈ ((new limits).trace steps).flatMap (·.entry.tasks) := by
  refine (Sound.new limits).trace_induction (P := fun past s => s.roll? id = some t →
    t ∈ past.flatMap (·.entry.tasks)) ?_ ?_ h
  · intro h
    simp [roll?, new] at h
  · intro past e _ hs hpast h
    rw [List.flatMap_append, List.flatMap_singleton, List.mem_append]
    rcases (e.roll_iff hs).mp h with ⟨hbefore, -⟩ | ⟨hnew, -⟩
    · exact Or.inl (hpast hbefore)
    · exact Or.inr hnew

end TaskExchange.Scheduler
