import Mathlib.Data.Finset.Dedup
import TaskExchange.Proofs.Books
import TaskExchange.Scheduler.Priority
import TaskExchange.Scheduler.Regional

/-!
Admission: what it does to the books that work is accepted, before anybody is given the new tasks.
Main statements: a batch that can be accepted names one job and one category (`targetOf_ok`); its
tasks get the numbers that follow (`acceptEach_eq`), and they are in the table and in their job
(`getElem?_enroll`, `getElem?_jobs_enroll`); the new tasks are in the hand of the operation, and the
books are in order (`Placed.enroll`, `Ledger.enroll`, and the same for a single request).
-/

namespace TaskExchange

/-- So many task numbers in a row. -/
def numbersFrom (first count : Nat) : List TaskId := (List.range' first count).map TaskId.mk

theorem mem_numbersFrom {first count : Nat} {id : TaskId} :
    id ∈ numbersFrom first count ↔ first ≤ id.value ∧ id.value < first + count := by
  obtain ⟨n⟩ := id
  simp [numbersFrom, List.mem_range'_1]

theorem nodup_numbersFrom (first count : Nat) : (numbersFrom first count).Nodup := by
  refine List.Nodup.map (fun a b h => ?_) List.nodup_range'
  exact TaskId.mk.inj h

/-- Numbers in a row are in their order. -/
theorem pairwise_numbersFrom (first count : Nat) :
    (numbersFrom first count).Pairwise (·.value < ·.value) := by
  rw [numbersFrom, List.pairwise_map]
  exact List.pairwise_lt_range'

@[simp] theorem length_numbersFrom (first count : Nat) :
    (numbersFrom first count).length = count := by
  simp [numbersFrom]

theorem numbersFrom_append (first a b : Nat) :
    numbersFrom first a ++ numbersFrom (first + a) b = numbersFrom first (a + b) := by
  rw [numbersFrom, numbersFrom, numbersFrom, ← List.map_append, List.range'_append_1]

/-- The request that stands under a number when a batch is numbered from a first one. -/
def requestUnder (first : Nat) (requests : List Request) (id : TaskId) : Option Request :=
  if first ≤ id.value then requests[id.value - first]? else none

theorem requestUnder_eq_none_iff {first : Nat} {requests : List Request} {id : TaskId} :
    requestUnder first requests id = none ↔ id ∉ numbersFrom first requests.length := by
  rw [mem_numbersFrom, requestUnder]
  split
  · rw [List.getElem?_eq_none_iff]
    omega
  · simp only [true_iff]
    omega

theorem mem_of_requestUnder {first : Nat} {requests : List Request} {id : TaskId} {r : Request}
    (h : requestUnder first requests id = some r) : r ∈ requests := by
  rw [requestUnder] at h
  split at h
  · exact List.mem_of_getElem? h
  · cases h

namespace Job

/-- Tasks that are new to a job are all added to it. -/
theorem foldl_add {ids : List TaskId} : ∀ {j : Job}, ids.Nodup → (∀ id ∈ ids, id ∉ j.outstanding) →
    ids.foldl add j =
      { j with outstanding := j.outstanding.insertMany ids, total := j.total + ids.length } := by
  induction ids with
  | nil => simp
  | cons x ids ih =>
    intro j hnodup hnew
    obtain ⟨hx, hnodup⟩ := List.nodup_cons.mp hnodup
    have hadd : j.add x =
        { j with outstanding := j.outstanding.insert x, total := j.total + 1 } := by
      simp [add, hnew x (List.mem_cons_self ..)]
    have hnew' : ∀ id ∈ ids, id ∉ j.outstanding.insert x := fun id hid => by
      rw [Std.ExtTreeSet.mem_insert, Std.LawfulEqOrd.compare_eq_iff_eq]
      rintro (rfl | h)
      · exact hx hid
      · exact hnew id (List.mem_cons_of_mem _ hid) h
    rw [List.foldl_cons, hadd, ih hnodup hnew']
    simp [Std.ExtTreeSet.insertMany_cons, Nat.add_assoc, Nat.add_comm 1]

end Job

namespace Scheduler

/-- The table with a batch of regional tasks that are numbered from a first one. -/
def insertEach (now : Moment) :
    Nat → List Request → Std.ExtTreeMap TaskId Task → Std.ExtTreeMap TaskId Task
  | _, [], tasks => tasks
  | first, r :: rest, tasks =>
    insertEach now (first + 1) rest
      (tasks.insert ⟨first⟩ (.ofRequest ⟨first⟩ .regional now.civil r))

theorem getElem?_insertEach (now : Moment) (id : TaskId) :
    ∀ (requests : List Request) (first : Nat) (tasks : Std.ExtTreeMap TaskId Task),
    (insertEach now first requests tasks)[id]? =
      ((requestUnder first requests id).map (.ofRequest id .regional now.civil)).or tasks[id]?
  | [], first, tasks => by simp [insertEach, requestUnder]
  | r :: rest, first, tasks => by
    rw [insertEach, getElem?_insertEach now id rest, Std.ExtTreeMap.getElem?_insert]
    rcases Nat.lt_trichotomy id.value first with h | h | h
    · have hne : (⟨first⟩ : TaskId) ≠ id := fun e => by simp [← e] at h
      simp [requestUnder, hne, Nat.not_le.mpr h, Nat.not_le.mpr (Nat.lt_succ_of_lt h)]
    · obtain ⟨n⟩ := id
      simp only at h
      subst h
      have hbefore : requestUnder (n + 1) rest ⟨n⟩ = none := if_neg (Nat.not_succ_le_self n)
      rw [hbefore]
      simp [requestUnder]
    · have hne : (⟨first⟩ : TaskId) ≠ id := fun e => by simp [← e] at h
      obtain ⟨k, hk⟩ : ∃ k, id.value - first = k + 1 := ⟨id.value - first - 1, by omega⟩
      have hk' : id.value - (first + 1) = k := by omega
      simp [requestUnder, hne, Nat.le_of_lt h, Nat.succ_le_of_lt h, hk, hk']

/-- A batch is numbered from the next number on, and the numbers are told in order. -/
theorem acceptEach_eq (now : Moment) : ∀ (requests : List Request) (ids : List TaskId)
    (s : Scheduler), acceptEach now requests ids s =
      (ids.reverse ++ numbersFrom s.nextId.value requests.length,
        { s with
          nextId := ⟨s.nextId.value + requests.length⟩
          tasks := insertEach now s.nextId.value requests s.tasks })
  | [], ids, s => by simp [acceptEach, numbersFrom, insertEach]
  | r :: rest, ids, s => by
    rw [acceptEach]
    simp only [accept, acceptEach_eq now rest]
    simp [insertEach, TaskId.next, numbersFrom, List.range'_succ, Nat.add_assoc, Nat.add_comm 1]

/-- The books after a batch is accepted, before anybody is given its tasks. -/
def enroll (s : Scheduler) (now : Moment) (job : JobId) (category : Category)
    (requests : List Request) : Scheduler :=
  (acceptEach now requests [] s).2.addToJob now job category
    (numbersFrom s.nextId.value requests.length)

variable {s : Scheduler} {now : Moment} {job : JobId} {category : Category}
  {requests : List Request}

@[simp] theorem enroll_nextId :
    (s.enroll now job category requests).nextId = ⟨s.nextId.value + requests.length⟩ := by
  simp [enroll, acceptEach_eq, addToJob]

@[simp] theorem enroll_limits : (s.enroll now job category requests).limits = s.limits := by
  simp [enroll, acceptEach_eq, addToJob]

@[simp] theorem enroll_queues : (s.enroll now job category requests).queues = s.queues := by
  simp [enroll, acceptEach_eq, addToJob]

@[simp] theorem enroll_inFlight : (s.enroll now job category requests).inFlight = s.inFlight := by
  simp [enroll, acceptEach_eq, addToJob]

@[simp] theorem enroll_producers :
    (s.enroll now job category requests).producers = s.producers := by
  simp [enroll, acceptEach_eq, addToJob]

@[simp] theorem enroll_pool : (s.enroll now job category requests).pool = s.pool := by
  simp [enroll, acceptEach_eq, addToJob]

@[simp] theorem enroll_polls : (s.enroll now job category requests).polls = s.polls := by
  simp [enroll, acceptEach_eq, addToJob]

@[simp] theorem enroll_requesters :
    (s.enroll now job category requests).requesters = s.requesters := by
  simp [enroll, acceptEach_eq, addToJob]

theorem getElem?_enroll (id : TaskId) :
    (s.enroll now job category requests).tasks[id]? =
      ((requestUnder s.nextId.value requests id).map (.ofRequest id .regional now.civil)).or
        s.tasks[id]? := by
  simp [enroll, acceptEach_eq, addToJob, getElem?_insertEach]

/-- The job of a batch: the one of that name, or a new one, with the tasks of the batch. -/
theorem getElem?_jobs_enroll (other : JobId) :
    (s.enroll now job category requests).jobs[other]? =
      if job = other then
        some ((numbersFrom s.nextId.value requests.length).foldl Job.add
          (s.jobs[job]?.getD (Job.new job category now.civil)))
      else s.jobs[other]? := by
  simp [enroll, acceptEach_eq, addToJob, Std.ExtTreeMap.getElem?_insert]

/-- The books after a single request is accepted, before anybody is given its task. -/
def enrollSingle (s : Scheduler) (now : Moment) (r : Request) (c : ConnectionId) : Scheduler :=
  { (s.accept now .priority r).2 with producers := s.producers.insert s.nextId c }

theorem getElem?_enrollSingle (r : Request) (c : ConnectionId) (id : TaskId) :
    (s.enrollSingle now r c).tasks[id]? =
      if s.nextId = id then some (.ofRequest s.nextId .priority now.civil r)
      else s.tasks[id]? := by
  simp [enrollSingle, accept, Std.ExtTreeMap.getElem?_insert]

/-! ### Which batches are accepted -/

theorem commonTarget_eq_ok_iff : commonTarget requests = .ok (job, category) ↔
    requests ≠ [] ∧ ∀ r ∈ requests, r.job = some job ∧ r.category = category := by
  cases requests with
  | nil => simp [commonTarget]
  | cons first rest =>
    simp only [commonTarget, ne_eq, reduceCtorEq, not_false_eq_true, true_and, List.forall_mem_cons]
    cases hjob : first.job with
    | none => simp
    | some name =>
      simp only [List.all_eq_true, Bool.and_eq_true, decide_eq_true_eq]
      split
      · next h =>
        simp only [Except.ok.injEq, Prod.mk.injEq, Option.some.injEq]
        constructor
        · rintro ⟨rfl, rfl⟩
          exact ⟨⟨rfl, rfl⟩, h⟩
        · exact fun h' => h'.1
      · next h =>
        simp only [reduceCtorEq, Option.some.injEq, false_iff]
        rintro ⟨⟨rfl, rfl⟩, hrest⟩
        exact h hrest

/-- What comes of a batch whose requests agree. -/
theorem targetOf_of_common (h : commonTarget requests = .ok (job, category)) :
    s.targetOf requests =
      match s.jobs[job]?.filter (·.category ≠ category) with
      | some j => .error (.submission (.jobTaken job j.category))
      | none =>
        if s.limits.maxDepth <
            (s.queues.line ⟨.regional, category⟩).length + requests.length then
          .error (.laneFull category (s.queues.line ⟨.regional, category⟩).length)
        else .ok (job, category) := by
  cases hjob : s.jobs[job]? with
  | none =>
    simp only [targetOf, h, Except.mapError, bind, Except.bind, hjob, Option.filter]
    split <;> rfl
  | some j =>
    by_cases hj : j.category = category <;>
      simp [targetOf, h, Except.mapError, bind, Except.bind, throw, throwThe, MonadExceptOf.throw,
        pure, Except.pure, hjob, hj, Option.filter]

theorem targetOf_of_not_common {fault : SubmissionFault}
    (h : commonTarget requests = .error fault) :
    s.targetOf requests = .error (.submission fault) := by
  rw [targetOf, h]
  rfl

/-- A batch that can be accepted is not empty, all its requests name its job and its category, and
a job of that name is of that category. -/
theorem targetOf_ok (h : s.targetOf requests = .ok (job, category)) :
    requests ≠ [] ∧ (∀ r ∈ requests, r.job = some job ∧ r.category = category) ∧
      ∀ j, s.jobs[job]? = some j → j.category = category := by
  cases hcommon : commonTarget requests with
  | error fault =>
    rw [targetOf_of_not_common hcommon] at h
    cases h
  | ok target =>
    obtain ⟨job', category'⟩ := target
    rw [targetOf_of_common hcommon] at h
    split at h
    · cases h
    · next hfilter =>
      split at h
      · cases h
      · cases h
        obtain ⟨hne, hall⟩ := commonTarget_eq_ok_iff.mp hcommon
        refine ⟨hne, hall, fun j hj => ?_⟩
        simpa [hj, Option.filter] using hfilter

/-! ### The books are in order -/

/-- A task of the table after a batch is one of the batch or was there before. -/
theorem enroll_task {id : TaskId} {t : Task}
    (h : (s.enroll now job category requests).tasks[id]? = some t) :
    (∃ r ∈ requests, t = .ofRequest id .regional now.civil r ∧
      id ∈ numbersFrom s.nextId.value requests.length) ∨ s.tasks[id]? = some t := by
  rw [getElem?_enroll] at h
  cases hr : requestUnder s.nextId.value requests id with
  | none => exact Or.inr (by simpa [hr] using h)
  | some r =>
    refine Or.inl ⟨r, mem_of_requestUnder hr, by simpa [hr] using h.symm, ?_⟩
    by_contra hid
    rw [requestUnder_eq_none_iff.mpr hid] at hr
    cases hr

theorem enroll_task_of_mem (now : Moment) (job : JobId) (category : Category) {id : TaskId}
    (h : id ∈ numbersFrom s.nextId.value requests.length) :
    ∃ r ∈ requests, (s.enroll now job category requests).tasks[id]? =
      some (.ofRequest id .regional now.civil r) := by
  cases hr : requestUnder s.nextId.value requests id with
  | none => exact absurd h (requestUnder_eq_none_iff.mp hr)
  | some r => exact ⟨r, mem_of_requestUnder hr, by simp [getElem?_enroll, hr]⟩

theorem enroll_task_of_notMem {id : TaskId}
    (h : id ∉ numbersFrom s.nextId.value requests.length) :
    (s.enroll now job category requests).tasks[id]? = s.tasks[id]? := by
  simp [getElem?_enroll, requestUnder_eq_none_iff.mpr h]

theorem Numbered.notMem_numbersFrom (hn : Numbered s) {id : TaskId} {count : Nat}
    (h : id ∈ numbersFrom s.nextId.value count) : id ∉ s.tasks :=
  hn.notMem_of_le (mem_numbersFrom.mp h).1

/-- What was there before a batch is there after it. -/
theorem enroll_task_of_some (hn : Numbered s) {id : TaskId} {t : Task}
    (ht : s.tasks[id]? = some t) :
    (s.enroll now job category requests).tasks[id]? = some t := by
  rw [enroll_task_of_notMem fun h => hn.notMem_numbersFrom h (mem_tasks ht), ht]

/-- New tasks come into the hand. -/
theorem Placed.extend (hp : Placed s ∅) {s' : Scheduler} {fresh : Finset TaskId}
    (hfresh : ∀ id ∈ fresh, id ∉ s.tasks)
    (hold : ∀ id ∉ fresh, s'.tasks[id]? = s.tasks[id]?)
    (hnew : ∀ id ∈ fresh, ∃ t, s'.tasks[id]? = some t ∧ t.id = id ∧ t.state = .queued)
    (hq : s'.queues = s.queues) (hf : s'.inFlight = s.inFlight) : Placed s' fresh := by
  have hkeep : ∀ {id t}, s.tasks[id]? = some t → id ∉ fresh := fun {id t} ht hin =>
    hfresh id hin (mem_tasks ht)
  have hflight : ∀ {id : TaskId} {t : Task}, s'.tasks[id]? = some t → t.state = .inFlight →
      s.tasks[id]? = some t := by
    intro id t ht hstate
    by_cases hin : id ∈ fresh
    · obtain ⟨u, hu, -, hqueued⟩ := hnew id hin
      rw [ht] at hu
      cases hu
      rw [hqueued] at hstate
      cases hstate
    · exact hold id hin ▸ ht
  refine ⟨?_, ?_, ?_, hq ▸ hp.once, ?_, ?_, fun ht hstate => hp.given (hflight ht hstate) hstate⟩
  · intro id t ht
    by_cases hin : id ∈ fresh
    · obtain ⟨u, hu, hid, -⟩ := hnew id hin
      rw [ht] at hu
      cases hu
      exact hid
    · exact hp.key (hold id hin ▸ ht)
  · intro id t ht hstate hin
    rw [hq]
    exact hp.queued (hold id hin ▸ ht) hstate (Finset.notMem_empty id)
  · intro lane id hin
    obtain ⟨-, t, ht, hstate, hlane⟩ := hp.inLine (hq ▸ hin)
    exact ⟨hkeep ht, t, (hold id (hkeep ht)).trans ht, hstate, hlane⟩
  · intro id hin
    obtain ⟨t, ht, -, hstate⟩ := hnew id hin
    exact ⟨t, ht, hstate⟩
  · intro id
    rw [hf, hp.inFlight]
    constructor
    · rintro ⟨t, ht, hstate⟩
      exact ⟨t, (hold id (hkeep ht)).trans ht, hstate⟩
    · rintro ⟨t, ht, hstate⟩
      exact ⟨t, hflight ht hstate, hstate⟩

theorem Placed.enroll (hp : Placed s ∅) (hn : Numbered s) :
    Placed (s.enroll now job category requests)
      (numbersFrom s.nextId.value requests.length).toFinset := by
  refine hp.extend ?_ ?_ ?_ enroll_queues enroll_inFlight
  · intro id hin
    exact hn.notMem_numbersFrom (List.mem_toFinset.mp hin)
  · intro id hin
    exact enroll_task_of_notMem fun h => hin (List.mem_toFinset.mpr h)
  · intro id hin
    obtain ⟨r, -, ht⟩ := enroll_task_of_mem now job category
      (List.mem_toFinset.mp hin)
    exact ⟨_, ht, rfl, rfl⟩

theorem Numbered.enroll (hn : Numbered s) : Numbered (s.enroll now job category requests) := by
  constructor
  · rw [enroll_nextId]
    exact Nat.add_pos_left hn.first _
  · intro id hin
    have hfirst := hn.first
    rw [enroll_nextId]
    obtain ⟨t, ht⟩ := exists_of_mem_tasks hin
    rcases enroll_task ht with ⟨r, -, -, hid⟩ | ht
    · obtain ⟨h, h'⟩ := mem_numbersFrom.mp hid
      exact ⟨Nat.lt_of_lt_of_le hfirst h, h'⟩
    · obtain ⟨h, h'⟩ := hn.below (mem_tasks ht)
      exact ⟨h, Nat.lt_add_right _ h'⟩

/-- The job that a batch is added to: the one of that name, or a new one. -/
def baseJob (s : Scheduler) (now : Moment) (job : JobId) (category : Category) : Job :=
  s.jobs[job]?.getD (Job.new job category now.civil)

/-- The base job lists what the job of that name lists, if there is one. -/
theorem Ledger.mem_baseJob (hl : Ledger s) {id : TaskId} :
    id ∈ (s.baseJob now job category).outstanding ↔
      ∃ t, s.tasks[id]? = some t ∧ t.kind = .regional ∧ t.job = some job := by
  cases hj : s.jobs[job]? with
  | some j => simpa [baseJob, hj] using hl.listed hj
  | none =>
    simp only [baseJob, hj, Option.getD_none, Job.new, Std.ExtTreeSet.not_mem_empty, false_iff]
    rintro ⟨t, ht, hkind, hjob⟩
    obtain ⟨job', j, hjob', hj'⟩ := hl.housed ht hkind
    obtain rfl : job = job' := Option.some.inj (hjob.symm.trans hjob')
    rw [hj] at hj'
    cases hj'

/-- A batch counts in its job with all its tasks. -/
theorem Ledger.jobs_enroll (hl : Ledger s) (hn : Numbered s) (other : JobId) :
    (s.enroll now job category requests).jobs[other]? =
      if job = other then
        some { s.baseJob now job category with
          outstanding := (s.baseJob now job category).outstanding.insertMany
            (numbersFrom s.nextId.value requests.length)
          total := (s.baseJob now job category).total + requests.length }
      else s.jobs[other]? := by
  have hnew : ∀ id ∈ numbersFrom s.nextId.value requests.length,
      id ∉ (s.baseJob now job category).outstanding := by
    intro id hid hin
    obtain ⟨t, ht, -⟩ := hl.mem_baseJob.mp hin
    exact hn.notMem_numbersFrom hid (mem_tasks ht)
  rw [getElem?_jobs_enroll, ← baseJob, Job.foldl_add (nodup_numbersFrom ..) hnew,
    length_numbersFrom]

/-- The base job has the name and the category of the batch, and its counts are balanced. -/
theorem Ledger.baseJob (hl : Ledger s) (now : Moment)
    (hcat : ∀ j, s.jobs[job]? = some j → j.category = category) :
    (s.baseJob now job category).id = job ∧ (s.baseJob now job category).category = category ∧
      (s.baseJob now job category).total =
        (s.baseJob now job category).outstanding.size + (s.baseJob now job category).completed := by
  cases hj : s.jobs[job]? with
  | none => simp [Scheduler.baseJob, hj, Job.new]
  | some j => simpa [Scheduler.baseJob, hj] using ⟨hl.name hj, hcat j hj, hl.balanced hj⟩

/-- The numbers of a batch are new to its job. -/
theorem Ledger.size_enroll (hl : Ledger s) (hn : Numbered s) :
    ((s.baseJob now job category).outstanding.insertMany
        (numbersFrom s.nextId.value requests.length)).size =
      (s.baseJob now job category).outstanding.size + requests.length := by
  rw [Std.ExtTreeSet.size_insertMany_list, length_numbersFrom]
  · exact (nodup_numbersFrom ..).imp fun hne => by
      rwa [Std.LawfulEqOrd.compare_eq_iff_eq]
  · intro id hin
    obtain ⟨t, ht, -⟩ := hl.mem_baseJob.mp hin
    rw [List.contains_eq_mem, decide_eq_false_iff_not]
    exact fun hid => hn.notMem_numbersFrom hid (mem_tasks ht)

section

variable (hl : Ledger s) (hn : Numbered s)
  (hreq : ∀ r ∈ requests, r.job = some job ∧ r.category = category)

include hl hn hreq

theorem Ledger.listed_enroll {other : JobId} {j : Job} {id : TaskId}
    (hj : (s.enroll now job category requests).jobs[other]? = some j) :
    id ∈ j.outstanding ↔ ∃ t, (s.enroll now job category requests).tasks[id]? = some t ∧
      t.kind = .regional ∧ t.job = some other := by
  rw [hl.jobs_enroll hn] at hj
  by_cases hid : id ∈ numbersFrom s.nextId.value requests.length
  · obtain ⟨r, hr, ht⟩ := enroll_task_of_mem now job category hid
    have hjob : (∃ t, (s.enroll now job category requests).tasks[id]? = some t ∧
        t.kind = .regional ∧ t.job = some other) ↔ job = other := by
      simp [ht, Task.ofRequest, (hreq r hr).1]
    rw [hjob]
    split at hj
    · next h =>
      cases hj
      simp [h, hid]
    · next h =>
      simp only [h, iff_false]
      exact fun hin => hn.notMem_numbersFrom hid (hl.mem_of_listed hj hin)
  · rw [enroll_task_of_notMem hid]
    split at hj
    · next h =>
      cases hj
      subst h
      simp [hid, hl.mem_baseJob]
    · exact hl.listed hj

theorem Ledger.category_enroll (hcat : ∀ j, s.jobs[job]? = some j → j.category = category)
    {other : JobId} {j : Job} {id : TaskId} {t : Task}
    (hj : (s.enroll now job category requests).jobs[other]? = some j) (hid : id ∈ j.outstanding)
    (ht : (s.enroll now job category requests).tasks[id]? = some t) :
    t.category = j.category := by
  obtain ⟨-, hcategory, -⟩ := hl.baseJob now hcat
  obtain ⟨u, hu, hkind, hjob⟩ := (hl.listed_enroll hn hreq hj).mp hid
  rw [ht] at hu
  cases hu
  rw [hl.jobs_enroll hn] at hj
  rcases enroll_task ht with ⟨r, hr, rfl, -⟩ | ht
  · -- A task of the batch names the job of the batch.
    obtain rfl : job = other := Option.some.inj ((hreq r hr).1.symm.trans hjob)
    rw [if_pos rfl] at hj
    cases hj
    exact (hreq r hr).2.trans hcategory.symm
  · obtain ⟨name, j₀, hname, hj₀⟩ := hl.housed ht hkind
    obtain rfl : other = name := Option.some.inj (hjob.symm.trans hname)
    have hold : t.category = j₀.category :=
      hl.category hj₀ ((hl.listed hj₀).mpr ⟨t, ht, hkind, hjob⟩) ht
    split at hj
    · next h =>
      subst h
      cases hj
      exact hold.trans ((hcat j₀ hj₀).trans hcategory.symm)
    · rw [hj₀] at hj
      cases hj
      exact hold

theorem Ledger.enroll (hcat : ∀ j, s.jobs[job]? = some j → j.category = category) :
    Ledger (s.enroll now job category requests) := by
  obtain ⟨hname, -, hbalanced⟩ := hl.baseJob now hcat
  refine ⟨?_, hl.listed_enroll hn hreq, hl.category_enroll hn hreq hcat, ?_, ?_⟩
  · intro other j hj
    rw [hl.jobs_enroll hn] at hj
    split at hj
    · next h => cases hj; exact hname.trans h
    · exact hl.name hj
  · intro id t ht hkind
    rcases enroll_task ht with ⟨r, hr, rfl, -⟩ | ht
    · exact ⟨job, _, (hreq r hr).1, by rw [hl.jobs_enroll hn, if_pos rfl]⟩
    · obtain ⟨other, j, hjob, hj⟩ := hl.housed ht hkind
      by_cases h : job = other
      · exact ⟨other, _, hjob, by rw [hl.jobs_enroll hn, if_pos h]⟩
      · exact ⟨other, j, hjob, by rw [hl.jobs_enroll hn, if_neg h, hj]⟩
  · intro other j hj
    rw [hl.jobs_enroll hn] at hj
    split at hj
    · cases hj
      simp only [hl.size_enroll hn]
      omega
    · exact hl.balanced hj

end

section

variable {r : Request} {c : ConnectionId}

theorem Numbered.nextId_notMem (hn : Numbered s) : s.nextId ∉ s.tasks :=
  hn.notMem_of_le (Nat.le_refl _)

theorem Placed.enrollSingle (hp : Placed s ∅) (hn : Numbered s) :
    Placed (s.enrollSingle now r c) {s.nextId} := by
  refine hp.extend ?_ ?_ ?_ rfl rfl
  · intro id hin
    obtain rfl := Finset.mem_singleton.mp hin
    exact hn.nextId_notMem
  · intro id hin
    rw [getElem?_enrollSingle, if_neg fun h => hin (Finset.mem_singleton.mpr h.symm)]
  · intro id hin
    obtain rfl := Finset.mem_singleton.mp hin
    exact ⟨_, by rw [getElem?_enrollSingle, if_pos rfl], rfl, rfl⟩

theorem Numbered.enrollSingle (hn : Numbered s) : Numbered (s.enrollSingle now r c) := by
  constructor
  · exact Nat.succ_pos _
  · intro id hin
    have hfirst := hn.first
    obtain ⟨t, ht⟩ := exists_of_mem_tasks hin
    rw [getElem?_enrollSingle] at ht
    split at ht
    · next h => exact h ▸ ⟨hfirst, Nat.lt_succ_self _⟩
    · obtain ⟨h, h'⟩ := hn.below (mem_tasks ht)
      exact ⟨h, Nat.lt_succ_of_lt h'⟩

/-- A single request is no concern of any job. -/
theorem Ledger.enrollSingle (hl : Ledger s) (hn : Numbered s) :
    Ledger (s.enrollSingle now r c) := by
  have hregional : ∀ {id : TaskId} {t : Task}, t.kind = .regional →
      ((s.enrollSingle now r c).tasks[id]? = some t ↔ s.tasks[id]? = some t) := by
    intro id t hkind
    rw [getElem?_enrollSingle]
    split
    · next h =>
      subst h
      have hnone : s.tasks[s.nextId]? = none := getElem?_neg s.tasks s.nextId hn.nextId_notMem
      rw [hnone]
      simp only [Option.some.injEq, reduceCtorEq, iff_false]
      rintro rfl
      cases hkind
    · exact Iff.rfl
  refine ⟨hl.name, ?_, ?_, ?_, hl.balanced⟩
  · intro job j id hj
    rw [hl.listed hj]
    exact exists_congr fun t => ⟨fun ⟨ht, h⟩ => ⟨(hregional h.1).mpr ht, h⟩,
      fun ⟨ht, h⟩ => ⟨(hregional h.1).mp ht, h⟩⟩
  · intro job j id t hj hid ht
    obtain ⟨u, hu, hkind, -⟩ := (hl.listed hj).mp hid
    rw [(hregional hkind).mpr hu] at ht
    cases ht
    exact hl.category hj hid hu
  · intro id t ht hkind
    exact hl.housed ((hregional hkind).mp ht) hkind

end

end Scheduler

end TaskExchange
