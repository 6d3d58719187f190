import TaskExchange.Proofs.Shift

/-!
Recall: how tasks come back from workers.  Tasks in flight are taken back into the hand of an
operation, each as it was, but queued.  Main statements: a recall keeps the agreement of the parts
(`Recall.placed`) and the books (`Recall.books`); the dispatcher's loop is the recall of those that
are in flight (`recall_takeBackEach`).
-/

namespace TaskExchange.Scheduler

/-- Some tasks have been taken back from workers, and nothing else has moved. -/
structure Recall (s : Scheduler) (back : List TaskId) (s' : Scheduler) : Prop where
  rest : s' = { s with tasks := s'.tasks, inFlight := s'.inFlight }
  given : ∀ id ∈ back, id ∈ s.inFlight
  tasks : ∀ id, s'.tasks[id]? = if id ∈ back then s.tasks[id]?.map Task.requeue else s.tasks[id]?
  inFlight : ∀ id, s'.inFlight[id]? = if id ∈ back then none else s.inFlight[id]?

variable {s s' s'' : Scheduler} {back : List TaskId} {id : TaskId} {t : Task}

namespace Recall

theorem nil (s : Scheduler) : Recall s [] s := by
  constructor <;> simp

theorem queues (h : Recall s back s') : s'.queues = s.queues := by rw [h.rest]

theorem pool (h : Recall s back s') : s'.pool = s.pool := by rw [h.rest]

theorem polls (h : Recall s back s') : s'.polls = s.polls := by rw [h.rest]

theorem nextId (h : Recall s back s') : s'.nextId = s.nextId := by rw [h.rest]

theorem task_of_mem (h : Recall s back s') (hid : id ∈ back) :
    s'.tasks[id]? = s.tasks[id]?.map Task.requeue := by
  rw [h.tasks, if_pos hid]

theorem task_of_notMem (h : Recall s back s') (hid : id ∉ back) : s'.tasks[id]? = s.tasks[id]? := by
  rw [h.tasks, if_neg hid]

theorem mem_inFlight_iff (h : Recall s back s') :
    id ∈ s'.inFlight ↔ id ∉ back ∧ id ∈ s.inFlight := by
  rw [Std.ExtTreeMap.mem_iff_isSome_getElem?, Std.ExtTreeMap.mem_iff_isSome_getElem?, h.inFlight]
  split
  · next hid => simp [hid]
  · next hid => simp [hid]

/-- A task that comes back was with a worker, and waits now. -/
theorem exists_of_mem (h : Recall s back s') (hp : Placed s ∅) (hid : id ∈ back) :
    ∃ t, s.tasks[id]? = some t ∧ t.state = .inFlight ∧ s'.tasks[id]? = some t.requeue := by
  obtain ⟨t, ht, hstate⟩ := hp.inFlight.mp (h.given id hid)
  exact ⟨t, ht, hstate, by rw [h.task_of_mem hid, ht, Option.map_some]⟩

theorem placed (h : Recall s back s') (hp : Placed s ∅) : Placed s' back.toFinset := by
  have hstays : ∀ {id t}, s.tasks[id]? = some t → t.state = .queued → id ∉ back := by
    intro id t ht hq hid
    obtain ⟨u, hu, hf, -⟩ := h.exists_of_mem hp hid
    rw [ht] at hu
    cases hu
    rw [hq] at hf
    cases hf
  refine ⟨?_, ?_, ?_, h.queues ▸ hp.once, ?_, ?_, ?_⟩
  · intro id t ht
    by_cases hid : id ∈ back
    · obtain ⟨u, hu, -, hu'⟩ := h.exists_of_mem hp hid
      rw [hu'] at ht
      obtain rfl := Option.some.inj ht
      have hkey : u.id = id := hp.key hu
      exact hkey
    · exact hp.key (h.task_of_notMem hid ▸ ht)
  · intro id t ht hq hid
    rw [List.mem_toFinset] at hid
    rw [h.queues]
    exact hp.queued (h.task_of_notMem hid ▸ ht) hq (Finset.notMem_empty id)
  · intro lane id hin
    rw [h.queues] at hin
    obtain ⟨-, t, ht, hq, hlane⟩ := hp.inLine hin
    have hid := hstays ht hq
    exact ⟨by simpa using hid, t, (h.task_of_notMem hid).trans ht, hq, hlane⟩
  · intro id hin
    obtain ⟨t, -, -, ht⟩ := h.exists_of_mem hp (List.mem_toFinset.mp hin)
    exact ⟨_, ht, rfl⟩
  · intro id
    rw [h.mem_inFlight_iff, hp.inFlight]
    constructor
    · rintro ⟨hid, t, ht, hf⟩
      exact ⟨t, (h.task_of_notMem hid).trans ht, hf⟩
    · rintro ⟨t, ht, hf⟩
      have hid : id ∉ back := by
        intro hid
        obtain ⟨u, -, -, hu⟩ := h.exists_of_mem hp hid
        rw [hu] at ht
        cases ht
        cases hf
      exact ⟨hid, t, h.task_of_notMem hid ▸ ht, hf⟩
  · intro id t ht hf
    have hid : id ∉ back := by
      intro hid
      obtain ⟨u, -, -, hu⟩ := h.exists_of_mem hp hid
      rw [hu] at ht
      cases ht
      cases hf
    exact hp.given (h.task_of_notMem hid ▸ ht) hf

theorem books (h : Recall s back s') : SameBooks s s' := by
  refine ⟨by rw [h.rest], h.nextId, by rw [h.rest], by rw [h.rest], by rw [h.rest], fun id => ?_⟩
  rw [h.tasks]
  split
  · rw [Option.map_map]
    rfl
  · rfl

/-- Tasks that come back were given to workers. -/
theorem deliveries_pos (h : Recall s back s') (hp : Placed s ∅) (hid : id ∈ back)
    (ht : s'.tasks[id]? = some t) : 0 < t.deliveries := by
  obtain ⟨u, hu, hf, hu'⟩ := h.exists_of_mem hp hid
  rw [hu'] at ht
  obtain rfl := Option.some.inj ht
  exact hp.given (t := u) hu hf

/-- One task is taken back, and then the others. -/
theorem cons (hid : id ∈ s.inFlight)
    (h : Recall { s with
      inFlight := s.inFlight.erase id
      tasks := s.tasks.modify id Task.requeue } back s') : Recall s (id :: back) s' := by
  have hnew : id ∉ back := fun hin => by simpa using h.given id hin
  refine ⟨h.rest, ?_, ?_, ?_⟩
  · intro x hx
    rcases List.mem_cons.mp hx with rfl | hx
    · exact hid
    · exact Std.ExtTreeMap.mem_of_mem_erase (h.given x hx)
  · intro x
    rw [h.tasks, Std.ExtTreeMap.getElem?_modify]
    by_cases hx : x = id
    · subst hx; simp [hnew]
    · have hx' : id ≠ x := Ne.symm hx
      simp [hx, hx']
  · intro x
    rw [h.inFlight, Std.ExtTreeMap.getElem?_erase]
    by_cases hx : x = id
    · subst hx; simp
    · have hx' : id ≠ x := Ne.symm hx
      simp [hx, hx']

end Recall

/-- Of the tasks in a list those come back that are in flight, each once. -/
theorem recall_takeBackEach : ∀ (ids : List TaskId) (s : Scheduler) (taken : List TaskId),
    ∃ back s', takeBackEach ids taken s = (taken.reverse ++ back, s') ∧ Recall s back s' ∧
      back.Nodup ∧ ∀ id, id ∈ back ↔ id ∈ ids ∧ id ∈ s.inFlight
  | [], s, taken => ⟨[], s, by simp [takeBackEach], .nil s, .nil, by simp⟩
  | id :: ids, s, taken => by
    by_cases hf : id ∈ s.inFlight
    · obtain ⟨back, s', hback, hrecall, hnodup, hmem⟩ := recall_takeBackEach ids
        { s with inFlight := s.inFlight.erase id, tasks := s.tasks.modify id Task.requeue }
        (id :: taken)
      have hnew : id ∉ back := by simp [hmem]
      refine ⟨id :: back, s', ?_, hrecall.cons hf, List.nodup_cons.mpr ⟨hnew, hnodup⟩, ?_⟩
      · simp [takeBackEach, takeBack?, hf, hback]
      · intro x
        by_cases hx : x = id
        · subst hx; simp [hf]
        · have hx' : id ≠ x := Ne.symm hx
          simp [hx, hx', hmem]
    · obtain ⟨back, s', hback, hrecall, hnodup, hmem⟩ := recall_takeBackEach ids s taken
      refine ⟨back, s', by simp [takeBackEach, takeBack?, hf, hback], hrecall, hnodup, ?_⟩
      intro x
      by_cases hx : x = id
      · subst hx; simp [hmem, hf]
      · simp [hx, hmem]

end TaskExchange.Scheduler
