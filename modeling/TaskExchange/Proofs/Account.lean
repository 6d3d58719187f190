import TaskExchange.Proofs.Census
import TaskExchange.Proofs.Continuity

/-!
Accounts: what a job says of its tasks is what has happened to them since the job began, and a
completion is acknowledged once.  Main statement: `account_run`.  It rests on what is remembered of
all tasks that were ever accepted (`Remembered`), and on the tally of one job's events
(`Tally.step`), which begins anew when the job does.
-/

namespace TaskExchange

/-- Holds of a regional task of a job. -/
def Task.isOf (job : JobId) (t : Task) : Bool := t.kind = .regional && t.job = some job

theorem Task.isOf_iff {job : JobId} {t : Task} :
    t.isOf job = true ↔ t.kind = .regional ∧ t.job = some job := by
  simp [isOf]

namespace Scheduler

namespace Event

/-- The task whose completion is acknowledged. -/
def acknowledged? (e : Event) : Option TaskId :=
  match e.entry with
  | .acknowledged id => some id
  | _ => none

/-- Holds when a job begins. -/
def creates (e : Event) (job : JobId) : Bool :=
  !e.before.jobs.contains job && e.after.jobs.contains job

end Event

/-- The tasks of a job that are accepted in some events. -/
def acceptedUnder (job : JobId) (events : List Event) : List Task :=
  (events.flatMap (·.entry.tasks)).filter (·.isOf job)

/-- The acknowledgments of tasks of a job that are accepted in some events. -/
def acknowledgedUnder (job : JobId) (events : List Event) : List TaskId :=
  (events.filterMap (·.acknowledged?)).filter (· ∈ (acceptedUnder job events).map Task.id)

/-- The events of a run since a job last began. -/
def sinceCreation (job : JobId) (trace : List Event) : List Event :=
  trace.foldl (fun since e => if e.creates job then [e] else since ++ [e]) []

/-- The jobs that are there after some events have kept their accounts. -/
structure Account (trace : List Event) (s : Scheduler) : Prop where
  /-- A job counts the tasks that were accepted under it since it began. -/
  total : ∀ {job : JobId} {j : Job}, s.jobs[job]? = some j →
    j.total = (acceptedUnder job (sinceCreation job trace)).length
  /-- A job counts the acknowledgments of these tasks. -/
  completed : ∀ {job : JobId} {j : Job}, s.jobs[job]? = some j →
    j.completed = (acknowledgedUnder job (sinceCreation job trace)).length
  /-- A job lists the tasks that are there and name it. -/
  outstanding : ∀ {job : JobId} {j : Job}, s.jobs[job]? = some j → ∀ id,
    id ∈ j.outstanding ↔ ∃ t, s.tasks[id]? = some t ∧ t.kind = .regional ∧ t.job = some job
  category : ∀ {job : JobId} {j : Job} {id : TaskId} {t : Task}, s.jobs[job]? = some j →
    id ∈ j.outstanding → s.tasks[id]? = some t → t.category = j.category
  housed : ∀ {id : TaskId} {t : Task}, s.tasks[id]? = some t → t.kind = .regional →
    ∃ job j, t.job = some job ∧ s.jobs[job]? = some j
  /-- The progress that is reported of a job is that of all its tasks. -/
  status : ∀ {job : JobId} {j : Job}, s.jobs[job]? = some j → ∃ status,
    s.jobStatus? job = some status ∧ status.total = j.total ∧ status.completed = j.completed ∧
      status.total = status.queued + status.inFlight + status.completed
  /-- No completion is acknowledged twice. -/
  once : (trace.filterMap (·.acknowledged?)).Nodup
  /-- A late acknowledgment of a task whose job was deleted is of no consequence, whatever job has
  that name by now. -/
  late : ∀ before deletion after, trace = before ++ deletion :: after →
    ∀ job, deletion.entry = .deleted job →
    ∀ t ∈ before.flatMap (·.entry.tasks), t.isOf job = true →
    ∀ d ∈ after, d.op = .acknowledge t.id → d.outcome = .found false ∧ d.after = d.before

variable {now : Moment} {s mid : Scheduler} {hand : Finset TaskId} {entry : Entry}
  {past since : List Event} {job : JobId}

/-! ### What is remembered of all tasks -/

/-- The tasks that were ever accepted and the acknowledgments that were ever given. -/
structure Remembered (past : List Event) (s : Scheduler) : Prop where
  below : ∀ t ∈ past.flatMap (·.entry.tasks), t.id.value < s.nextId.value
  /-- Whoever has the number of a task is this task. -/
  same : ∀ t ∈ past.flatMap (·.entry.tasks), ∀ u, s.roll? t.id = some u → u = t
  acknowledged : ∀ id ∈ past.filterMap (·.acknowledged?),
    id.value < s.nextId.value ∧ id ∉ s.tasks
  once : (past.filterMap (·.acknowledged?)).Nodup

theorem Event.entry_of_acknowledged {e : Event} {id : TaskId} (h : e.acknowledged? = some id) :
    e.entry = .acknowledged id := by
  rw [Event.acknowledged?] at h
  split at h
  · next x hentry =>
    cases h
    exact hentry
  · cases h

/-- An acknowledgment is of a regional task that is there and then leaves. -/
theorem Event.of_acknowledged {e : Event} (hs : Sound e.before ∅) {id : TaskId}
    (h : e.acknowledged? = some id) :
    ∃ t, e.before.roll? id = some t ∧ t.kind = .regional ∧ id ∉ e.after.tasks := by
  obtain ⟨mid, henters, hshifts, -⟩ := e.enters hs
  rw [e.entry_of_acknowledged h] at henters
  generalize e.hand = hand at henters hshifts
  cases henters with
  | acknowledge hmid =>
    obtain ⟨t, ht, hkind, hr⟩ := removal_acknowledge hs.placed hs.ledger hmid
    refine ⟨t.asAccepted, roll?_of_task ht, hkind, fun hin => ?_⟩
    exact (hr.mem_tasks_iff.mp (hshifts.books.mem.mp hin)).1 (List.mem_singleton_self id)

/-- The tasks that an event accepts have different numbers. -/
theorem Event.eq_of_mem_tasks {e : Event} (hs : Sound e.before ∅) {t u : Task}
    (ht : t ∈ e.entry.tasks) (hu : u ∈ e.entry.tasks) (h : u.id = t.id) : u = t := by
  have hnodup : (e.entry.tasks.map Task.id).Nodup := by
    rw [(e.numbers hs).1]
    exact nodup_numbersFrom ..
  exact List.inj_on_of_nodup_map hnodup hu ht h

theorem Remembered.new (limits : Limits) : Remembered [] (.new limits) := by
  constructor <;> simp

theorem Remembered.step {e : Event} (hs : Sound e.before ∅) (hr : Remembered past e.before) :
    Remembered (past ++ [e]) e.after := by
  obtain ⟨hids, hnext⟩ := e.numbers hs
  refine ⟨?_, ?_, ?_, ?_⟩
  · intro t ht
    rw [List.flatMap_append, List.flatMap_singleton, List.mem_append] at ht
    rcases ht with ht | ht
    · have hbelow := hr.below t ht
      omega
    · have hid : t.id ∈ e.entry.tasks.map Task.id := List.mem_map_of_mem ht
      rw [hids, mem_numbersFrom] at hid
      omega
  · intro t ht u hu
    rw [List.flatMap_append, List.flatMap_singleton, List.mem_append] at ht
    rcases ht with ht | ht <;> rcases (e.roll_iff hs).mp hu with ⟨hu, -⟩ | ⟨hu, hid⟩
    · exact hr.same t ht u hu
    · -- The number of an old task is not given out again.
      have hbelow := hr.below t ht
      have hle := e.le_of_mem_tasks hs hu
      rw [hid] at hle
      omega
    · have hbelow := (hs.numbered.below (mem_tasks_iff_roll?.mpr ⟨u, hu⟩)).2
      have hle := e.le_of_mem_tasks hs ht
      omega
    · exact e.eq_of_mem_tasks hs ht hu hid
  · intro id hid
    rw [List.filterMap_append, List.mem_append] at hid
    rcases hid with hid | hid
    · obtain ⟨hbelow, hgone⟩ := hr.acknowledged id hid
      exact e.stays_gone hs hbelow hgone
    · have hid : e.acknowledged? = some id := by simpa using hid
      obtain ⟨t, ht, -, hgone⟩ := e.of_acknowledged hs hid
      have hbelow := (hs.numbered.below (mem_tasks_iff_roll?.mpr ⟨t, ht⟩)).2
      exact ⟨by omega, hgone⟩
  · rw [List.filterMap_append, List.nodup_append]
    refine ⟨hr.once, by cases h : e.acknowledged? <;> simp [h], ?_⟩
    rintro id hpast _ hid rfl
    have hid : e.acknowledged? = some id := by simpa using hid
    obtain ⟨t, ht, -⟩ := e.of_acknowledged hs hid
    exact (hr.acknowledged id hpast).2 (mem_tasks_iff_roll?.mpr ⟨t, ht⟩)

/-! ### What an event changes in a job -/

theorem batchTasks_isOf {requests : List Request} {category : Category} {first : Nat} {t : Task}
    (hreq : ∀ r ∈ requests, r.job = some job ∧ r.category = category)
    (ht : t ∈ batchTasks now (numbersFrom first requests.length) requests) (other : JobId) :
    t.isOf other = true ↔ job = other := by
  obtain ⟨r, hr, htask⟩ := Option.map_eq_some_iff.mp (mem_batchTasks.mp ⟨ht, rfl⟩)
  rw [← htask]
  simp [Task.isOf, Task.ofRequest, (hreq r (mem_of_requestUnder hr)).1]

/-- The acknowledgments of tasks of a job. -/
def Entry.completions (entry : Entry) (s : Scheduler) (job : JobId) : List TaskId :=
  match entry with
  | .acknowledged id => if (s.roll? id).any (·.isOf job) then [id] else []
  | _ => []

/-- A job has counted what an entry says of it, from zero if it was not there before. -/
structure Counted (s : Scheduler) (entry : Entry) (job : JobId) (j' : Job) : Prop where
  total : j'.total = s.jobs[job]?.elim 0 Job.total + (entry.tasks.filter (·.isOf job)).length
  completed : j'.completed =
    s.jobs[job]?.elim 0 Job.completed + (entry.completions s job).length

/-- An entry that says nothing of a job leaves it as it is. -/
theorem Counted.same {j : Job} (hj : s.jobs[job]? = some j)
    (htasks : entry.tasks.filter (·.isOf job) = []) (hcompletions : entry.completions s job = []) :
    Counted s entry job j := by
  constructor
  · rw [hj, htasks]
    rfl
  · rw [hj, hcompletions]
    rfl

theorem counted_enroll (hs : Sound s ∅) {requests : List Request} {name : JobId}
    {category : Category} (htarget : s.targetOf requests = .ok (name, category)) {j' : Job}
    (hj' : (s.enroll now name category requests).jobs[job]? = some j') :
    Counted s (.accepted (batchTasks now (numbersFrom s.nextId.value requests.length) requests))
      job j' := by
  obtain ⟨-, hreq, -⟩ := targetOf_ok htarget
  rw [hs.ledger.jobs_enroll hs.numbered] at hj'
  split at hj'
  · next heq =>
    subst heq
    cases hj'
    have hfilter : (batchTasks now (numbersFrom s.nextId.value requests.length) requests).filter
        (·.isOf name) = batchTasks now (numbersFrom s.nextId.value requests.length) requests :=
      List.filter_eq_self.mpr fun t ht => (batchTasks_isOf hreq ht name).mpr rfl
    have hlength := length_batchTasks now (length_numbersFrom s.nextId.value requests.length)
    constructor
    · rw [Entry.tasks, hfilter, hlength, length_numbersFrom]
      cases hj : s.jobs[name]? <;> simp [baseJob, hj, Job.new]
    · cases hj : s.jobs[name]? <;> simp [baseJob, hj, Job.new, Entry.completions]
  · next hne =>
    refine .same hj' (List.filter_eq_nil_iff.mpr fun t ht => ?_) rfl
    rw [batchTasks_isOf hreq ht job]
    exact hne

theorem counted_completeIn {t : Task} (ht : s.tasks[t.id]? = some t) (hkind : t.kind = .regional)
    {name : JobId} {j j' : Job} (hname : t.job = some name) (hj : s.jobs[name]? = some j)
    (hj' : (s.completeIn t name j).jobs[job]? = some j') :
    Counted s (.acknowledged t.id) job j' := by
  have hisOf : (s.roll? t.id).any (·.isOf job) = true ↔ name = job := by
    simp [roll?_of_task ht, Task.isOf, Task.asAccepted, hkind, hname]
  simp only [completeIn, Std.ExtTreeMap.getElem?_insert, Std.LawfulEqOrd.compare_eq_iff_eq] at hj'
  split at hj'
  · next heq =>
    cases hj'
    subst heq
    constructor
    · simp [hj, Entry.tasks]
    · simp [hj, Entry.completions, hisOf.mpr]
  · next hne =>
    refine .same hj' rfl ?_
    rw [Entry.completions, if_neg fun h => hne (hisOf.mp h)]

theorem Enters.counted (h : Enters now s entry mid hand) (hs : Sound s ∅) {j' : Job}
    (hj' : mid.jobs[job]? = some j') : Counted s entry job j' := by
  cases h with
  | connections _ _ hrecall => exact .same (hrecall.books.jobs ▸ hj') rfl rfl
  | park => exact .same hj' rfl rfl
  | batch htarget => exact counted_enroll hs htarget hj'
  | single => exact .same hj' (by simp [Entry.tasks, Task.isOf, Task.ofRequest]) rfl
  | acknowledge hmid =>
    obtain ⟨t, name, j, ht, rfl, hkind, hname, hj, -, rfl⟩ :=
      acknowledge?_eq_some hs.placed hs.ledger hmid
    exact counted_completeIn ht hkind hname hj hj'
  | withdraw ht hkind =>
    obtain rfl := hs.placed.key ht
    simp only [withdraw_state ht hkind] at hj'
    exact .same hj' rfl rfl
  | withdrawNothing => exact .same hj' rfl rfl
  | deleteJob hmid =>
    rw [deleteJob?, Option.map_eq_some_iff] at hmid
    obtain ⟨j, -, rfl⟩ := hmid
    simp only [Std.ExtTreeMap.getElem?_erase] at hj'
    split at hj'
    · cases hj'
    · exact .same hj' rfl rfl

/-! ### The tally of a job -/

/-- The counts of a job, zero if there is none, are those of some events, and its tasks were
accepted in them. -/
structure Tally (job : JobId) (since : List Event) (s : Scheduler) : Prop where
  total : s.jobs[job]?.elim 0 Job.total = (acceptedUnder job since).length
  completed : s.jobs[job]?.elim 0 Job.completed = (acknowledgedUnder job since).length
  accepted : ∀ id t, s.roll? id = some t → t.isOf job = true → t ∈ acceptedUnder job since

/-- A job that is not there counts nothing and has no tasks. -/
theorem Tally.none (hs : Sound s ∅) (hj : s.jobs[job]? = none) : Tally job [] s := by
  refine ⟨by simp [hj, acceptedUnder], by simp [hj, acknowledgedUnder], ?_⟩
  intro id t ht hisOf
  obtain ⟨u, hu, rfl⟩ := Option.map_eq_some_iff.mp ht
  obtain ⟨hkind, hjob⟩ := Task.isOf_iff.mp hisOf
  obtain ⟨job', j, hjob', hj'⟩ := hs.ledger.housed hu hkind
  obtain rfl : job = job' := Option.some.inj (hjob.symm.trans hjob')
  rw [hj] at hj'
  cases hj'

theorem acceptedUnder_concat (job : JobId) (since : List Event) (e : Event) :
    acceptedUnder job (since ++ [e]) =
      acceptedUnder job since ++ e.entry.tasks.filter (·.isOf job) := by
  simp [acceptedUnder]

theorem mem_acceptedUnder {t : Task} :
    t ∈ acceptedUnder job since ↔ t ∈ since.flatMap (·.entry.tasks) ∧ t.isOf job = true :=
  List.mem_filter

section

variable {e : Event} (hs : Sound e.before ∅) (hr : Remembered past e.before)
  (hsub : ∀ d ∈ since, d ∈ past) (htally : Tally job since e.before)

include hs hr hsub htally

/-- An acknowledgment is of one of a job's tasks if and only if its task was accepted since the job
began. -/
theorem Tally.mem_accepted_iff {id : TaskId} (h : e.acknowledged? = some id) :
    id ∈ (acceptedUnder job since).map Task.id ↔ (e.before.roll? id).any (·.isOf job) = true := by
  obtain ⟨t, ht, -, -⟩ := e.of_acknowledged hs h
  rw [ht, Option.any_some]
  constructor
  · intro hid
    obtain ⟨u, hu, rfl⟩ := List.mem_map.mp hid
    obtain ⟨hu, hisOf⟩ := mem_acceptedUnder.mp hu
    obtain ⟨d, hd, hu⟩ := List.mem_flatMap.mp hu
    obtain rfl := hr.same u (List.mem_flatMap.mpr ⟨d, hsub d hd, hu⟩) t ht
    exact hisOf
  · intro hisOf
    exact List.mem_map.mpr ⟨t, htally.accepted id t ht hisOf, hs.placed.id_eq ht⟩

theorem Tally.acknowledgedUnder_concat :
    acknowledgedUnder job (since ++ [e]) =
      acknowledgedUnder job since ++ e.entry.completions e.before job := by
  rw [acknowledgedUnder, List.filterMap_append, List.filter_append, acceptedUnder_concat,
    List.map_append]
  congr 1
  · -- The numbers that were acknowledged before are not among the new ones.
    refine List.filter_congr fun id hid => ?_
    have hnew : id ∉ (e.entry.tasks.filter (·.isOf job)).map Task.id := by
      intro hin
      obtain ⟨t, ht, rfl⟩ := List.mem_map.mp hin
      have hle := e.le_of_mem_tasks hs (List.mem_filter.mp ht).1
      obtain ⟨d, hd, hid⟩ := List.mem_filterMap.mp hid
      have hbelow := (hr.acknowledged t.id (List.mem_filterMap.mpr ⟨d, hsub d hd, hid⟩)).1
      omega
    simp only [List.mem_append, hnew, or_false]
  · cases h : e.acknowledged? with
    | none =>
      have hnone : e.entry.completions e.before job = [] := by
        rw [Event.acknowledged?] at h
        split at h
        · cases h
        · next hentry =>
          rw [Entry.completions]
          exact hentry
      simp [h, hnone]
    | some id =>
      have hentry := e.entry_of_acknowledged h
      have hiff := htally.mem_accepted_iff hs hr hsub h
      simp only [hentry, Entry.tasks, Entry.completions, List.filter_nil, List.map_nil,
        List.append_nil, List.filterMap_cons, h, List.filterMap_nil, List.filter_cons,
        decide_eq_true_eq]
      by_cases hin : id ∈ (acceptedUnder job since).map Task.id
      · rw [if_pos hin, if_pos (hiff.mp hin)]
      · rw [if_neg hin, if_neg fun hany => hin (hiff.mpr hany)]

/-- A tally goes on with each event after which the job is there. -/
theorem Tally.step {j' : Job} (hj' : e.after.jobs[job]? = some j') :
    Tally job (since ++ [e]) e.after := by
  have hcounted : Counted e.before e.entry job j' := by
    obtain ⟨mid, he⟩ := e.enters hs
    exact he.enters.counted hs (he.shifts.books.jobs ▸ hj')
  refine ⟨?_, ?_, ?_⟩
  · rw [hj', Option.elim_some, hcounted.total, htally.total, acceptedUnder_concat,
      List.length_append]
  · rw [hj', Option.elim_some, hcounted.completed, htally.completed,
      htally.acknowledgedUnder_concat hs hr hsub, List.length_append]
  · intro id t ht hisOf
    rw [acceptedUnder_concat, List.mem_append]
    rcases (e.roll_iff hs).mp ht with ⟨ht, -⟩ | ⟨ht, -⟩
    · exact Or.inl (htally.accepted id t ht hisOf)
    · exact Or.inr (List.mem_filter.mpr ⟨ht, hisOf⟩)

end

theorem sinceCreation_concat (job : JobId) (past : List Event) (e : Event) :
    sinceCreation job (past ++ [e]) =
      if e.creates job then [e] else sinceCreation job past ++ [e] := by
  simp [sinceCreation]

theorem mem_of_mem_sinceCreation {d : Event} (hd : d ∈ sinceCreation job past) : d ∈ past := by
  suffices h : ∀ (events since : List Event),
      d ∈ events.foldl (fun since e => if e.creates job then [e] else since ++ [e]) since →
      d ∈ since ∨ d ∈ events from (h past [] hd).resolve_left List.not_mem_nil
  intro events
  induction events with
  | nil => exact fun since hin => Or.inl hin
  | cons e events ih =>
    intro since hin
    rcases ih _ hin with hin | hin
    · dsimp only at hin
      split at hin
      · obtain rfl := List.mem_singleton.mp hin
        exact Or.inr (List.mem_cons_self ..)
      · rcases List.mem_append.mp hin with hin | hin
        · exact Or.inl hin
        · obtain rfl := List.mem_singleton.mp hin
          exact Or.inr (List.mem_cons_self ..)
    · exact Or.inr (List.mem_cons_of_mem _ hin)

/-- All accounts are kept when an event follows. -/
theorem tally_step {e : Event} (hs : Sound e.before ∅) (hr : Remembered past e.before)
    (htally : ∀ j, e.before.jobs[job]? = some j → Tally job (sinceCreation job past) e.before)
    {j' : Job} (hj' : e.after.jobs[job]? = some j') :
    Tally job (sinceCreation job (past ++ [e])) e.after := by
  have hafter : e.after.jobs.contains job = true := by
    rw [Std.ExtTreeMap.contains_eq_isSome_getElem?, hj', Option.isSome_some]
  rw [sinceCreation_concat, Event.creates, hafter, Bool.and_true,
    Std.ExtTreeMap.contains_eq_isSome_getElem?]
  cases hj : e.before.jobs[job]? with
  | none => exact (Tally.none hs hj).step hs hr (fun d hd => by cases hd) hj'
  | some j => exact (htally j hj).step hs hr (fun d hd => mem_of_mem_sinceCreation hd) hj'

/-! ### Progress -/

theorem jobStatus?_of_job (hs : Sound s ∅) {j : Job} (hj : s.jobs[job]? = some j) :
    ∃ status, s.jobStatus? job = some status ∧ status.total = j.total ∧
      status.completed = j.completed ∧
      status.total = status.queued + status.inFlight + status.completed := by
  refine ⟨s.statusOf j, by rw [jobStatus?, hj, Option.map_some], ?_, ?_, total_statusOf hs.ledger hj⟩
  · rw [statusOf_eq]
  · rw [statusOf_eq]

/-! ### The accounts of a run -/

theorem remembered_run (limits : Limits) (steps : List (Moment × Operation)) :
    Remembered ((new limits).trace steps) ((new limits).run steps) :=
  (Sound.new limits).trace_induction (Remembered.new limits) fun _ _ _ hs hr => hr.step hs

theorem tally_run (limits : Limits) (steps : List (Moment × Operation)) {j : Job}
    (hj : ((new limits).run steps).jobs[job]? = some j) :
    Tally job (sinceCreation job ((new limits).trace steps)) ((new limits).run steps) := by
  refine ((Sound.new limits).trace_induction (P := fun past s => Remembered past s ∧
    ∀ j, s.jobs[job]? = some j → Tally job (sinceCreation job past) s) ?_ ?_).2 j hj
  · exact ⟨.new limits, fun j hj => by simp [Scheduler.new] at hj⟩
  · rintro past e - hs ⟨hr, htally⟩
    exact ⟨hr.step hs, fun j' hj' => tally_step hs hr htally hj'⟩

/-- A task leaves with its job. -/
theorem Remembered.gone_of_deleted {e : Event} (hs : Sound e.before ∅)
    (hr : Remembered past e.before) (hentry : e.entry = .deleted job) {t : Task}
    (ht : t ∈ past.flatMap (·.entry.tasks)) (hisOf : t.isOf job = true) : t.id ∉ e.after.tasks := by
  intro hin
  obtain ⟨u, hu⟩ := mem_tasks_iff_roll?.mp hin
  rcases (e.roll_iff hs).mp hu with ⟨hu, hstay⟩ | ⟨hu, -⟩
  · obtain rfl := hr.same t ht u hu
    rw [hentry] at hstay
    exact hstay (Task.isOf_iff.mp hisOf)
  · rw [hentry] at hu
    cases hu

/-- The completion of a task that is not there is not acknowledged, and nothing happens. -/
theorem Event.acknowledge_of_notMem {e : Event} {id : TaskId} (hop : e.op = .acknowledge id)
    (hid : id ∉ e.before.tasks) : e.outcome = .found false ∧ e.after = e.before := by
  have hnone : e.before.acknowledge? id = none := by
    rw [acknowledge?, getElem?_neg e.before.tasks id hid]
  rw [Event.outcome, Event.after, hop]
  simp [Scheduler.step, hnone]

/-- The jobs have kept their accounts after every run. -/
theorem account_run (limits : Limits) (steps : List (Moment × Operation)) :
    Account ((new limits).trace steps) ((new limits).run steps) where
  total hj := by
    have htotal := (tally_run limits steps hj).total
    rwa [hj] at htotal
  completed hj := by
    have hcompleted := (tally_run limits steps hj).completed
    rwa [hj] at hcompleted
  outstanding hj _ := (sound_run limits steps).ledger.listed hj
  category := (sound_run limits steps).ledger.category
  housed := (sound_run limits steps).ledger.housed
  status := jobStatus?_of_job (sound_run limits steps)
  once := (remembered_run limits steps).once
  late := by
    intro before deletion after hsplit job hentry t ht hisOf d hd hop
    obtain ⟨xs, ys, rfl, hbefore, rfl, -⟩ := trace_split hsplit
    have hr : Remembered ((new limits).trace xs) deletion.before :=
      hbefore ▸ remembered_run limits xs
    have hs : Sound deletion.before ∅ := hbefore ▸ sound_run limits xs
    have hgone := hr.gone_of_deleted hs hentry ht hisOf
    have hbelow : t.id.value < deletion.after.nextId.value := by
      have h := hr.below t ht
      have hnext := (deletion.numbers hs).2
      omega
    exact d.acknowledge_of_notMem hop (gone_trace (deletion.sound_after hs) hbelow hgone hd).1

end Scheduler

end TaskExchange
