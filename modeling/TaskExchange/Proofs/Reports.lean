import Mathlib.Algebra.BigOperators.Group.List.Basic
import TaskExchange.Proofs.Census
import TaskExchange.Proofs.Facade

/-!
Reports: what the exchange tells of its jobs and of the sizes of its parts are two accounts of the
same tasks.  Main statement: `reports_run`.  The tasks of the jobs, one job after the other, are the
regional tasks of the table (`perm_flatMap_tasksOf`), so that sums over the jobs are numbers of
tasks, as the sizes of the parts are.
-/

namespace TaskExchange

/-- The sums over the jobs, each taken by itself. -/
theorem JobSummary.ofStatuses_eq (statuses : List JobStatus) :
    ofStatuses statuses = ⟨statuses.length, (statuses.map (·.total)).sum,
      (statuses.map (·.queued)).sum, (statuses.map (·.inFlight)).sum,
      (statuses.map (·.completed)).sum, (statuses.map (·.deliveries)).sum⟩ := by
  suffices h : ∀ (statuses : List JobStatus) (sum : JobSummary), statuses.foldl add sum =
      ⟨sum.jobs + statuses.length, sum.total + (statuses.map (·.total)).sum,
        sum.queued + (statuses.map (·.queued)).sum, sum.inFlight + (statuses.map (·.inFlight)).sum,
        sum.completed + (statuses.map (·.completed)).sum,
        sum.deliveries + (statuses.map (·.deliveries)).sum⟩ by
    rw [ofStatuses, h]
    simp [zero]
  intro statuses
  induction statuses with
  | nil => exact fun sum => rfl
  | cons status statuses ih =>
    intro sum
    rw [List.foldl_cons, ih]
    simp [add]
    omega

namespace Scheduler

/-! ### The order of the jobs -/

/-- The jobs are compared by the times of their creation and then by their names. -/
def compareListed : Job → Job → Ordering := compareLex (compareOn Job.createdAt) (compareOn Job.id)

instance : Std.TransCmp compareListed :=
  inferInstanceAs (Std.TransCmp (compareLex (compareOn Job.createdAt) (compareOn Job.id)))

theorem listedBefore_eq (a b : Job) : listedBefore a b = (compareListed a b).isLE := rfl

theorem listedBefore_total (a b : Job) : (listedBefore a b || listedBefore b a) = true := by
  have hswap : compareListed b a = (compareListed a b).swap := Std.OrientedCmp.eq_swap
  rw [listedBefore_eq, listedBefore_eq, hswap]
  cases compareListed a b <;> rfl

theorem listedBefore_trans (a b c : Job) (hab : listedBefore a b = true)
    (hbc : listedBefore b c = true) : listedBefore a c = true := by
  rw [listedBefore_eq] at *
  exact Std.TransCmp.isLE_trans hab hbc

theorem listedBefore_iff {a b : Job} (hne : a.id ≠ b.id) :
    listedBefore a b = true ↔ compare a.createdAt b.createdAt = .lt ∨
      a.createdAt = b.createdAt ∧ compare a.id b.id = .lt := by
  rw [listedBefore, Ordering.isLE_then_iff_or, Std.LawfulEqOrd.compare_eq_iff_eq,
    Ordering.isLE_iff_eq_lt_or_eq_eq, Std.LawfulEqOrd.compare_eq_iff_eq, or_iff_left hne]

/-- The jobs in the order in which they are reported. -/
def jobsListed (s : Scheduler) : List Job := (s.jobs.toList.map (·.2)).mergeSort listedBefore

theorem jobStatuses_eq (s : Scheduler) : s.jobStatuses = s.jobsListed.map s.statusOf := rfl

theorem map_job_jobStatuses (s : Scheduler) :
    s.jobStatuses.map (·.job) = s.jobsListed.map Job.id := by
  simp [jobStatuses_eq, Function.comp_def]

variable {s : Scheduler} {hand : Finset TaskId} {j : Job}

theorem pairwise_jobsListed (s : Scheduler) :
    s.jobsListed.Pairwise fun a b => listedBefore a b = true :=
  List.pairwise_mergeSort listedBefore_trans listedBefore_total _

theorem length_jobsListed (s : Scheduler) : s.jobsListed.length = s.jobs.size := by
  rw [jobsListed, List.length_mergeSort, List.length_map, Std.ExtTreeMap.length_toList]

section

variable (hl : Ledger s)

include hl

theorem mem_jobsListed : j ∈ s.jobsListed ↔ s.jobs[j.id]? = some j := by
  rw [jobsListed, List.mem_mergeSort, mem_values hl.name]

theorem nodup_jobsListed : (s.jobsListed.map Job.id).Nodup :=
  ((List.mergeSort_perm _ _).map Job.id).nodup_iff.mpr (nodup_values hl.name)

/-- The order is strict, since no two jobs are of one name. -/
theorem pairwise_jobStatuses :
    s.jobStatuses.Pairwise fun a b => ∀ j k, s.jobs[a.job]? = some j → s.jobs[b.job]? = some k →
      compare j.createdAt k.createdAt = .lt ∨
        j.createdAt = k.createdAt ∧ compare a.job b.job = .lt := by
  rw [jobStatuses_eq, List.pairwise_map]
  refine ((pairwise_jobsListed s).and (List.pairwise_map.mp (nodup_jobsListed hl))).imp_of_mem ?_
  rintro a b ha hb ⟨hle, hne⟩ j k hj hk
  simp only [statusOf_job] at hj hk ⊢
  obtain rfl : a = j := Option.some.inj (((mem_jobsListed hl).mp ha).symm.trans hj)
  obtain rfl : b = k := Option.some.inj (((mem_jobsListed hl).mp hb).symm.trans hk)
  exact (listedBefore_iff hne).mp hle

theorem mem_jobStatuses {job : JobId} : job ∈ s.jobStatuses.map (·.job) ↔ job ∈ s.jobs := by
  rw [map_job_jobStatuses, List.mem_map, Std.ExtTreeMap.mem_iff_isSome_getElem?,
    Option.isSome_iff_exists]
  constructor
  · rintro ⟨j, hj, rfl⟩
    exact ⟨j, (mem_jobsListed hl).mp hj⟩
  · rintro ⟨j, hj⟩
    obtain rfl := hl.name hj
    exact ⟨j, (mem_jobsListed hl).mpr hj, rfl⟩

/-! ### The tasks of the jobs -/

/-- No task is of two jobs, since it names its job. -/
theorem nodup_flatMap_tasksOf (hp : Placed s hand) :
    ((s.jobsListed.flatMap s.tasksOf).map Task.id).Nodup := by
  rw [List.map_flatMap]
  refine List.nodup_flatMap.mpr ⟨fun j _ => nodup_tasksOf hp j, ?_⟩
  refine (List.pairwise_map.mp (nodup_jobsListed hl)).imp_of_mem fun ha hb hne id hida hidb => ?_
  obtain ⟨t, ht, rfl⟩ := List.mem_map.mp hida
  obtain ⟨u, hu, hsame⟩ := List.mem_map.mp hidb
  obtain ⟨ht, -, hjob⟩ := (mem_tasksOf hp hl ((mem_jobsListed hl).mp ha)).mp ht
  obtain ⟨hu, -, hjob'⟩ := (mem_tasksOf hp hl ((mem_jobsListed hl).mp hb)).mp hu
  rw [hsame] at hu
  obtain rfl : t = u := Option.some.inj (ht.symm.trans hu)
  exact hne (Option.some.inj (hjob.symm.trans hjob'))

/-- The tasks of the jobs are the regional tasks. -/
theorem perm_flatMap_tasksOf (hp : Placed s hand) :
    (s.jobsListed.flatMap s.tasksOf).Perm (s.tasksWith Task.isRegional) := by
  refine perm_tasksWith hp (nodup_flatMap_tasksOf hl hp) fun t => ?_
  rw [List.mem_flatMap, Task.isRegional, decide_eq_true_eq]
  constructor
  · rintro ⟨j, hj, ht⟩
    obtain ⟨ht, hkind, -⟩ := (mem_tasksOf hp hl ((mem_jobsListed hl).mp hj)).mp ht
    exact ⟨ht, hkind⟩
  · rintro ⟨ht, hkind⟩
    obtain ⟨job, j, hjob, hj⟩ := hl.housed ht hkind
    obtain rfl := hl.name hj
    exact ⟨j, (mem_jobsListed hl).mpr hj, (mem_tasksOf hp hl hj).mpr ⟨ht, hkind, hjob⟩⟩

/-- Over all jobs, as many tasks as regional ones. -/
theorem sum_countP_tasksOf (hp : Placed s hand) (p : Task → Bool) :
    (s.jobsListed.map fun j => (s.tasksOf j).countP p).sum =
      (s.tasksWith fun t => t.isRegional && p t).length := by
  rw [← countP_tasksWith, ← (perm_flatMap_tasksOf hl hp).countP_eq, List.countP_flatMap]
  rfl

theorem sum_deliveries_tasksOf (hp : Placed s hand) :
    (s.jobsListed.map fun j => ((s.tasksOf j).map Task.deliveries).sum).sum =
      ((s.tasksWith Task.isRegional).map Task.deliveries).sum := by
  rw [← ((perm_flatMap_tasksOf hl hp).map Task.deliveries).sum_nat, List.map_flatMap,
    List.flatMap_def, List.sum_flatten, List.map_map]
  rfl

end

/-! ### The sums over the jobs -/

/-- The regional tasks in flight and all priority tasks, counted in two ways. -/
theorem Sound.size_inFlight_add (hs : Sound s ∅) :
    s.inFlight.size + s.queues.count .priority =
      (s.tasksWith fun t => t.isRegional && t.state = .inFlight).length + s.producers.size := by
  have hinFlight := length_tasksWith_split s (·.state = .inFlight) Task.isRegional
  have hpriority := length_tasksWith_split s (·.kind = .priority) (·.state = .queued)
  have hregional : (fun t : Task => decide (t.state = .inFlight) && t.isRegional) =
      fun t => t.isRegional && t.state = .inFlight := funext fun t => Bool.and_comm ..
  have hgiven : (fun t : Task => decide (t.state = .inFlight) && !t.isRegional) =
      fun t => decide (t.kind = .priority) && !decide (t.state = .queued) := by
    funext t
    cases hkind : t.kind <;> cases hstate : t.state <;> simp [Task.isRegional, hkind]
  rw [hregional, hgiven] at hinFlight
  rw [hs.size_inFlight, hs.size_producers, hs.count_queues]
  omega

theorem ofStatuses_jobStatuses (hs : Sound s ∅) :
    JobSummary.ofStatuses s.jobStatuses = ⟨s.jobs.size, (s.jobsListed.map Job.total).sum,
      (s.tasksWith fun t => t.isRegional && t.state = .queued).length,
      (s.tasksWith fun t => t.isRegional && t.state = .inFlight).length,
      (s.jobsListed.map Job.completed).sum,
      ((s.tasksWith Task.isRegional).map Task.deliveries).sum⟩ := by
  rw [JobSummary.ofStatuses_eq, jobStatuses_eq, ← sum_countP_tasksOf hs.ledger hs.placed,
    ← sum_countP_tasksOf hs.ledger hs.placed, ← sum_deliveries_tasksOf hs.ledger hs.placed,
    ← length_jobsListed]
  simp only [List.length_map, List.map_map, Function.comp_def, statusOf_eq]

/-- What was ever given to the jobs is queued, in flight or completed. -/
theorem total_ofStatuses (hl : Ledger s) :
    (JobSummary.ofStatuses s.jobStatuses).total = (JobSummary.ofStatuses s.jobStatuses).queued +
      (JobSummary.ofStatuses s.jobStatuses).inFlight +
      (JobSummary.ofStatuses s.jobStatuses).completed := by
  have hsplit : s.jobStatuses.map (·.total) =
      s.jobStatuses.map fun status => status.queued + status.inFlight + status.completed := by
    refine List.map_congr_left fun status hstatus => ?_
    obtain ⟨j, hj, rfl⟩ := List.mem_map.mp hstatus
    exact total_statusOf hl ((mem_jobsListed hl).mp hj)
  rw [JobSummary.ofStatuses_eq]
  dsimp only
  rw [hsplit, List.sum_map_add, List.sum_map_add]

end Scheduler

namespace Exchange

/-- What is told of the jobs agrees with what is told of the sizes, and with the tasks. -/
structure Reported (x : Exchange) : Prop where
  /-- Every job is listed once. -/
  once : (x.jobStatuses.1.map (·.job)).Nodup
  all : ∀ job, job ∈ x.jobStatuses.1.map (·.job) ↔ job ∈ x.scheduler.jobs
  each : ∀ status ∈ x.jobStatuses.1, x.scheduler.jobStatus? status.job = some status
  /-- The oldest job comes first, and of jobs of the same time the one with the least name. -/
  ordered : x.jobStatuses.1.Pairwise fun a b => ∀ j k,
    x.scheduler.jobs[a.job]? = some j → x.scheduler.jobs[b.job]? = some k →
      compare j.createdAt k.createdAt = .lt ∨
        j.createdAt = k.createdAt ∧ compare a.job b.job = .lt
  jobs : x.counts.jobs = x.jobStatuses.1.length ∧ x.jobStatuses.2.jobs = x.jobStatuses.1.length
  queued : x.jobStatuses.2.queued = x.counts.queuedRegional
  /-- A priority task that is not queued is in flight, and its requester waits. -/
  inFlight : x.counts.inFlight + x.counts.queuedPriority =
    x.jobStatuses.2.inFlight + x.counts.waitingProducers
  total : x.jobStatuses.2.total =
    x.jobStatuses.2.queued + x.jobStatuses.2.inFlight + x.jobStatuses.2.completed
  deliveries : x.jobStatuses.2.deliveries =
    ((x.scheduler.tasksWith Task.isRegional).map Task.deliveries).sum

theorem Reported.of_sound {x : Exchange} (hs : Scheduler.Sound x.scheduler ∅) : Reported x where
  once := by
    rw [jobStatuses, Scheduler.map_job_jobStatuses]
    exact Scheduler.nodup_jobsListed hs.ledger
  all _ := Scheduler.mem_jobStatuses hs.ledger
  each := by
    intro status hstatus
    obtain ⟨j, hj, rfl⟩ := List.mem_map.mp hstatus
    have hj := (Scheduler.mem_jobsListed hs.ledger).mp hj
    rw [Scheduler.statusOf_job, Scheduler.jobStatus?, hj, Option.map_some]
  ordered := Scheduler.pairwise_jobStatuses hs.ledger
  jobs := by
    have hlength : x.scheduler.jobStatuses.length = x.scheduler.jobs.size := by
      rw [Scheduler.jobStatuses_eq, List.length_map, Scheduler.length_jobsListed]
    refine ⟨hlength.symm, ?_⟩
    rw [jobStatuses, JobSummary.ofStatuses_eq]
  queued := by
    rw [jobStatuses, Scheduler.ofStatuses_jobStatuses hs, counts, Scheduler.counts,
      hs.count_queues]
    rfl
  inFlight := by
    rw [jobStatuses, Scheduler.ofStatuses_jobStatuses hs, counts, Scheduler.counts]
    exact hs.size_inFlight_add
  total := Scheduler.total_ofStatuses hs.ledger
  deliveries := by
    rw [jobStatuses, Scheduler.ofStatuses_jobStatuses hs]

/-- The reports agree after every run. -/
theorem reports_run (limits : Limits) (steps : List (Moment × Operation)) :
    Reported ((new limits).run steps) := .of_sound (sound_run limits steps)

end Exchange

end TaskExchange
