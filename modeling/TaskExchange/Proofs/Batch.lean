import TaskExchange.Proofs.Allotment
import TaskExchange.Proofs.Leasing

/-!
Batches: which batches are accepted, and what exactly the acceptance of one does.  The checks come
in one order and the first that fails decides.  An accepted batch is numbered in a row and counts in
its job; its first tasks go to the workers of its lane that have not left, one to each, and the
others join the end of the line.  Main statement: `submissions_run`.
-/

namespace TaskExchange.Scheduler

/-- All requests of a batch name this job and this category. -/
structure OneTarget (requests : List Request) (job : JobId) (category : Category) : Prop where
  nonempty : requests ≠ []
  same : ∀ r ∈ requests, r.job = some job ∧ r.category = category

/-- What is decided of a batch: the cause of the first check that it fails, or its job and its
category. -/
inductive Verdict (s : Scheduler) : List Request → Except Refusal (JobId × Category) → Prop where
  | empty : Verdict s [] (.error (.submission .emptyBatch))
  | unnamed {first : Request} {rest : List Request} :
      first.job = none → Verdict s (first :: rest) (.error (.submission .missingJob))
  | mixed {first r : Request} {rest : List Request} {job : JobId} :
      first.job = some job → r ∈ first :: rest →
      (r.job ≠ some job ∨ r.category ≠ first.category) →
      Verdict s (first :: rest) (.error (.submission .mixedBatch))
  | taken {requests : List Request} {job : JobId} {category : Category} {j : Job} :
      OneTarget requests job category → s.jobs[job]? = some j → j.category ≠ category →
      Verdict s requests (.error (.submission (.jobTaken job j.category)))
  | full {requests : List Request} {job : JobId} {category : Category} :
      OneTarget requests job category → (∀ j, s.jobs[job]? = some j → j.category = category) →
      s.limits.maxDepth < (s.queues.line ⟨.regional, category⟩).length + requests.length →
      Verdict s requests
        (.error (.laneFull category (s.queues.line ⟨.regional, category⟩).length))
  | fits {requests : List Request} {job : JobId} {category : Category} :
      OneTarget requests job category → (∀ j, s.jobs[job]? = some j → j.category = category) →
      (s.queues.line ⟨.regional, category⟩).length + requests.length ≤ s.limits.maxDepth →
      Verdict s requests (.ok (job, category))

/-- The task of a regional request. -/
def taskOf (now : Moment) (id : TaskId) (r : Request) : Task := .ofRequest id .regional now.civil r

/-- A batch for a job has been accepted under these numbers, and this is what it has led to. -/
structure Submitted (now : Moment) (s : Scheduler) (job : JobId) (category : Category)
    (requests : List Request) (ids : List TaskId) (s' : Scheduler) : Prop where
  numbers : ids = numbersFrom s.nextId.value requests.length
  nextId : s'.nextId.value = s.nextId.value + requests.length
  /-- The job is the one of this name or a new one, and has the new tasks besides those it had. -/
  counted : s'.jobs[job]? = some { s.baseJob now job category with
    outstanding := (s.baseJob now job category).outstanding.insertMany ids
    total := (s.baseJob now job category).total + requests.length }
  otherJobs : ∀ other ≠ job, s'.jobs[other]? = s.jobs[other]?
  /-- The first tasks go to the workers that have not left, one to each, in their order. -/
  given : ∀ (k : Nat) id r c, ids[k]? = some id → requests[k]? = some r →
    (s.openIn ⟨.regional, category⟩)[k]? = some c →
    s'.tasks[id]? = some { taskOf now id r with state := .inFlight, deliveries := 1 } ∧
    s'.inFlight[id]? = some (leaseFrom s.limits now .regional) ∧
    s'.polls.sides[c]? =
      some (.holding [{ taskOf now id r with state := .inFlight, deliveries := 1 }])
  /-- The others wait. -/
  waits : ∀ (k : Nat) id r, ids[k]? = some id → requests[k]? = some r →
    (s.openIn ⟨.regional, category⟩).length ≤ k →
    s'.tasks[id]? = some (taskOf now id r) ∧ id ∉ s'.inFlight
  /-- They stand at the end of the line. -/
  line : s'.queues.line ⟨.regional, category⟩ =
    s.queues.line ⟨.regional, category⟩ ++ ids.drop (s.openIn ⟨.regional, category⟩).length
  otherLines : ∀ lane ≠ ⟨.regional, category⟩, s'.queues.line lane = s.queues.line lane
  otherTasks : ∀ id ∉ ids, s'.tasks[id]? = s.tasks[id]? ∧ s'.inFlight[id]? = s.inFlight[id]?
  otherSides : ∀ c ∉ (s.openIn ⟨.regional, category⟩).take requests.length,
    s'.polls.sides[c]? = s.polls.sides[c]?
  /-- Those have gone from the line of workers that were served or stood before one who was, or all
  if they were too few. -/
  pool : ∃ gone, Dismissed s.polls.isOpen requests.length (s.pool.line ⟨.regional, category⟩) gone
    (s'.pool.line ⟨.regional, category⟩)
  otherPools : ∀ lane ≠ ⟨.regional, category⟩, s'.pool.line lane = s.pool.line lane
  rest : s' = { s with
    nextId := s'.nextId
    tasks := s'.tasks
    jobs := s'.jobs
    queues := s'.queues
    inFlight := s'.inFlight
    pool := s'.pool
    polls := { s.polls with sides := s'.polls.sides } }

/-- Which batches are accepted as things stand, and what that leads to. -/
structure Submissions (now : Moment) (s : Scheduler) : Prop where
  refused : ∀ requests refusal,
    s.enqueueBatch now requests = .error refusal ↔ Verdict s requests (.error refusal)
  accepted : ∀ requests, (∃ ids s', s.enqueueBatch now requests = .ok (ids, s')) ↔
    ∃ job category, Verdict s requests (.ok (job, category))
  effect : ∀ requests ids s', s.enqueueBatch now requests = .ok (ids, s') →
    ∃ job category, Verdict s requests (.ok (job, category)) ∧
      Submitted now s job category requests ids s'

variable {now : Moment} {s s' s₁ : Scheduler} {requests : List Request} {job : JobId}
  {category : Category} {lane : Lane} {id : TaskId} {ids left : List TaskId} {c : ConnectionId}
  {r : Request} {k : Nat}

/-! ### Verdicts -/

theorem OneTarget.commonTarget (h : OneTarget requests job category) :
    commonTarget requests = .ok (job, category) :=
  commonTarget_eq_ok_iff.mpr ⟨h.nonempty, h.same⟩

/-- No job of this name is of another category. -/
theorem filter_jobs (h : ∀ j, s.jobs[job]? = some j → j.category = category) :
    s.jobs[job]?.filter (·.category ≠ category) = none := by
  cases hj : s.jobs[job]? with
  | none => rfl
  | some j => simp [Option.filter, h j hj]

/-- The checks come to the verdict. -/
theorem Verdict.targetOf {result : Except Refusal (JobId × Category)}
    (h : Verdict s requests result) : s.targetOf requests = result := by
  cases h with
  | empty => exact targetOf_of_not_common rfl
  | unnamed hjob => exact targetOf_of_not_common (by simp [Scheduler.commonTarget, hjob])
  | @mixed first r rest job hjob hr hdiffers =>
    refine targetOf_of_not_common ?_
    simp only [Scheduler.commonTarget, hjob]
    rw [if_neg]
    rw [List.all_eq_true]
    intro hall
    rcases List.mem_cons.mp hr with rfl | hr
    · exact hdiffers.elim (fun h => h hjob) fun h => h rfl
    · have hsame := hall r hr
      rw [Bool.and_eq_true, decide_eq_true_eq, decide_eq_true_eq] at hsame
      exact hdiffers.elim (fun h => h hsame.1) fun h => h hsame.2
  | taken htarget hj hne => simp [targetOf_of_common htarget.commonTarget, hj, hne, Option.filter]
  | full htarget hsame hdepth =>
    rw [targetOf_of_common htarget.commonTarget, filter_jobs hsame]
    exact if_pos hdepth
  | fits htarget hsame hdepth =>
    rw [targetOf_of_common htarget.commonTarget, filter_jobs hsame]
    exact if_neg (Nat.not_lt.mpr hdepth)

/-- There is a verdict on every batch. -/
theorem exists_verdict (s : Scheduler) (requests : List Request) :
    ∃ result, Verdict s requests result := by
  cases requests with
  | nil => exact ⟨_, .empty⟩
  | cons first rest =>
    cases hjob : first.job with
    | none => exact ⟨_, .unnamed hjob⟩
    | some job =>
      by_cases hall : ∀ r ∈ first :: rest, r.job = some job ∧ r.category = first.category
      · have htarget : OneTarget (first :: rest) job first.category :=
          ⟨List.cons_ne_nil _ _, hall⟩
        by_cases htaken : ∀ j, s.jobs[job]? = some j → j.category = first.category
        · rcases Nat.lt_or_ge s.limits.maxDepth
            ((s.queues.line ⟨.regional, first.category⟩).length + (first :: rest).length) with h | h
          · exact ⟨_, .full htarget htaken h⟩
          · exact ⟨_, .fits htarget htaken h⟩
        · push Not at htaken
          obtain ⟨j, hj, hne⟩ := htaken
          exact ⟨_, .taken htarget hj hne⟩
      · push Not at hall
        obtain ⟨r, hr, hdiffers⟩ := hall
        exact ⟨_, .mixed hjob hr (not_or_of_imp hdiffers)⟩

theorem verdict_iff {result : Except Refusal (JobId × Category)} :
    s.targetOf requests = result ↔ Verdict s requests result := by
  refine ⟨?_, Verdict.targetOf⟩
  rintro rfl
  obtain ⟨result, h⟩ := exists_verdict s requests
  exact h.targetOf ▸ h

/-! ### What the acceptance of a batch does -/

/-- What is left of a batch joins its line in one piece. -/
theorem enqueueBatch_of_target (now : Moment) (h : s.targetOf requests = .ok (job, category))
    (heach : dispatchEach now (numbersFrom s.nextId.value requests.length) []
      (s.enroll now job category requests) = (left, s₁)) :
    s.enqueueBatch now requests = .ok (numbersFrom s.nextId.value requests.length,
      { s₁ with queues := s₁.queues.append ⟨.regional, category⟩ left }) := by
  rw [enroll, acceptEach_eq] at heach
  rw [enqueueBatch, h]
  simp only [acceptEach_eq, List.reverse_nil, List.nil_append, bind, Except.bind]
  rw [heach]
  rfl

/-- The tasks of a batch are in the table under their numbers. -/
theorem getElem?_enroll_of_getElem? (now : Moment) (job : JobId) (category : Category)
    (hid : (numbersFrom s.nextId.value requests.length)[k]? = some id)
    (hr : requests[k]? = some r) :
    (s.enroll now job category requests).tasks[id]? = some (taskOf now id r) := by
  have hk : k < requests.length := (List.getElem?_eq_some_iff.mp hr).1
  have hvalue : id.value = s.nextId.value + k := by
    rw [numbersFrom, List.getElem?_map, List.getElem?_range' hk, Nat.one_mul] at hid
    exact (congrArg TaskId.value (Option.some.inj hid)).symm
  have hunder : requestUnder s.nextId.value requests id = some r := by
    rw [requestUnder, if_pos (by omega), hvalue, Nat.add_sub_cancel_left, hr]
  rw [getElem?_enroll, hunder]
  rfl

/-- All tasks of a batch belong to one lane. -/
theorem inLane_enroll (htarget : OneTarget requests job category) (now : Moment) (lane : Lane)
    (hsub : left.Sublist (numbersFrom s.nextId.value requests.length)) :
    (s.enroll now job category requests).inLane lane left =
      if lane = ⟨.regional, category⟩ then left else [] := by
  have hlane : ∀ id ∈ left, ((s.enroll now job category requests).tasks[id]?.any (·.lane = lane)) =
      decide (lane = ⟨.regional, category⟩) := by
    intro id hid
    obtain ⟨r, hr, ht⟩ := enroll_task_of_mem now job category (hsub.subset hid)
    rw [ht, Option.any_some, Task.lane, Task.ofRequest, (htarget.same r hr).2]
    exact decide_eq_decide.mpr eq_comm
  rw [inLane, List.filter_congr hlane]
  split
  · next h => simp [h]
  · next h => simp [h]

/-- The new tasks stand nowhere yet. -/
theorem Sound.free_enroll (hs : Sound s ∅) (now : Moment)
    (h : s.targetOf requests = .ok (job, category)) :
    Free (s.enroll now job category requests) (numbersFrom s.nextId.value requests.length) where
  nodup := nodup_numbersFrom ..
  task id hid := by
    have hplaced := (hs.enroll now h).placed
    obtain ⟨t, ht, hstate⟩ := hplaced.inHand (List.mem_toFinset.mpr hid)
    obtain rfl := hplaced.key ht
    exact ⟨t, ht, rfl, hstate, hplaced.not_inFlight ht hstate⟩

theorem openIn_enroll (now : Moment) (job : JobId) (category : Category)
    (requests : List Request) (lane : Lane) :
    (s.enroll now job category requests).openIn lane = s.openIn lane := by
  rw [openIn, openIn, enroll_pool, enroll_polls]

section

variable (htarget : OneTarget requests job category)
  (h : Allotted now (s.enroll now job category requests)
    (numbersFrom s.nextId.value requests.length) left s₁)

include htarget h

/-- What is left of a batch are the tasks behind those that there are workers for. -/
theorem Allotted.left_of_batch : left = (numbersFrom s.nextId.value requests.length).drop
    (s.openIn ⟨.regional, category⟩).length := by
  have hdrop := h.left ⟨.regional, category⟩
  rwa [inLane_enroll htarget now _ h.sublist, inLane_enroll htarget now _ (.refl _), if_pos rfl,
    if_pos rfl, openIn_enroll] at hdrop

/-- A task of a batch whose place among the workers is taken goes to the worker there. -/
theorem Allotted.given_of_batch
    (hid : (numbersFrom s.nextId.value requests.length)[k]? = some id)
    (hr : requests[k]? = some r) (hc : (s.openIn ⟨.regional, category⟩)[k]? = some c) :
    s₁.tasks[id]? = some { taskOf now id r with state := .inFlight, deliveries := 1 } ∧
      s₁.inFlight[id]? = some (leaseFrom s.limits now .regional) ∧
      s₁.polls.sides[c]? =
        some (.holding [{ taskOf now id r with state := .inFlight, deliveries := 1 }]) := by
  obtain ⟨t, ht, htask, hflight, hside⟩ := h.given_of_place
    (by rwa [inLane_enroll htarget now _ (.refl _), if_pos rfl]) (by rwa [openIn_enroll])
  rw [getElem?_enroll_of_getElem? now job category hid hr] at ht
  obtain rfl := Option.some.inj ht
  rw [leaseEnd?_eq, enroll_limits] at hflight
  exact ⟨htask, hflight, hside⟩

/-- A task of a batch for which there is no worker waits. -/
theorem Allotted.waits_of_batch (hs : Sound s ∅)
    (hid : (numbersFrom s.nextId.value requests.length)[k]? = some id)
    (hr : requests[k]? = some r) (hk : (s.openIn ⟨.regional, category⟩).length ≤ k) :
    s₁.tasks[id]? = some (taskOf now id r) ∧ id ∉ s₁.inFlight := by
  obtain ⟨htask, hflight⟩ := h.task_of_place (nodup_numbersFrom ..)
    (getElem?_enroll_of_getElem? now job category hid hr)
    (by rwa [inLane_enroll htarget now _ (.refl _), if_pos rfl]) (by rwa [openIn_enroll])
  refine ⟨htask, ?_⟩
  rw [Std.ExtTreeMap.mem_iff_isSome_getElem?, hflight, enroll_inFlight,
    ← Std.ExtTreeMap.mem_iff_isSome_getElem?]
  exact fun hin => hs.numbered.notMem_numbersFrom (List.mem_of_getElem? hid)
    (hs.mem_tasks_of_inFlight hin)

/-- Nothing comes to a worker that is not among the first ones of the batch's lane. -/
theorem Allotted.side_of_batch
    (hc : c ∉ (s.openIn ⟨.regional, category⟩).take requests.length) :
    s₁.polls.sides[c]? = s.polls.sides[c]? := by
  refine (h.side_of_place fun lane k hk => ?_).trans (by rw [enroll_polls])
  -- Only workers of the batch's lane have tasks in their places, and these have none.
  rw [inLane_enroll htarget now _ (.refl _)]
  split
  · next hlane =>
    subst hlane
    rw [length_numbersFrom, ← Nat.not_lt]
    intro hlt
    rw [openIn_enroll] at hk
    exact hc (List.mem_of_getElem? ((List.getElem?_take_of_lt hlt).trans hk))
  · exact Nat.zero_le k

/-- Workers of the batch's lane are dismissed, and no others. -/
theorem Allotted.pool_of_batch :
    (∃ gone, Dismissed s.polls.isOpen requests.length (s.pool.line ⟨.regional, category⟩) gone
      (s₁.pool.line ⟨.regional, category⟩)) ∧
    ∀ lane ≠ ⟨.regional, category⟩, s₁.pool.line lane = s.pool.line lane := by
  constructor
  · have hdismissed := h.dismissed ⟨.regional, category⟩
    rwa [inLane_enroll htarget now _ (.refl _), if_pos rfl, length_numbersFrom, enroll_pool,
      enroll_polls] at hdismissed
  · intro lane hlane
    have hpool := h.pool lane
    rwa [inLane_enroll htarget now _ (.refl _), if_neg hlane, List.length_nil, waitOn_zero,
      enroll_pool] at hpool

end

/-- All that an accepted batch leads to. -/
theorem submitted_enqueueBatch (hs : Sound s ∅) (hapart : Apart s) (now : Moment)
    (h : s.targetOf requests = .ok (job, category)) :
    ∃ ids s', s.enqueueBatch now requests = .ok (ids, s') ∧
      Submitted now s job category requests ids s' := by
  obtain ⟨hne, hsame, -⟩ := targetOf_ok h
  have htarget : OneTarget requests job category := ⟨hne, hsame⟩
  have hapart' : Apart (s.enroll now job category requests) :=
    hapart.sublist fun lane => by rw [enroll_pool]
  obtain ⟨left, s₁, heach, hallot⟩ :=
    allotted_dispatchEach now [] (hs.free_enroll now h) hapart'
  rw [List.reverse_nil, List.nil_append] at heach
  refine ⟨_, _, enqueueBatch_of_target now h heach, rfl, ?nextId, ?counted, ?otherJobs, ?given,
    ?waits, ?line, ?otherLines, ?otherTasks, ?otherSides, ?pool, ?otherPools, ?rest⟩
  case nextId =>
    exact (congrArg TaskId.value hallot.nextId).trans (congrArg TaskId.value enroll_nextId)
  case counted =>
    exact (congrArg (·[job]?) hallot.jobs).trans
      ((hs.ledger.jobs_enroll hs.numbered job).trans (if_pos rfl))
  case otherJobs =>
    intro other hother
    exact (congrArg (·[other]?) hallot.jobs).trans
      ((hs.ledger.jobs_enroll hs.numbered other).trans (if_neg hother.symm))
  case given =>
    intro k id r c hid hr hc
    have hgiven := hallot.given_of_batch htarget hid hr hc
    exact hgiven
  case waits =>
    intro k id r hid hr hk
    have hwaits := hallot.waits_of_batch htarget hs hid hr hk
    exact hwaits
  case line =>
    rw [Lanes.line_append, if_pos rfl, hallot.queues, enroll_queues, hallot.left_of_batch htarget]
  case otherLines =>
    intro lane hlane
    rw [Lanes.line_append, if_neg hlane.symm, hallot.queues, enroll_queues]
  case otherTasks =>
    intro id hid
    obtain ⟨htask, hflight⟩ := hallot.task_of_notMem hid
    rw [enroll_task_of_notMem hid] at htask
    rw [enroll_inFlight] at hflight
    exact ⟨htask, hflight⟩
  case otherSides =>
    intro c hc
    have hside := hallot.side_of_batch htarget hc
    exact hside
  case pool => exact (hallot.pool_of_batch htarget).1
  case otherPools => exact (hallot.pool_of_batch htarget).2
  case rest =>
    rw [hallot.rest]
    simp [enroll, acceptEach_eq, addToJob]

theorem submissions_of_sound (hs : Sound s ∅) (hapart : Apart s) (now : Moment) :
    Submissions now s := by
  have hok : ∀ {requests : List Request} {result}, s.enqueueBatch now requests = .ok result →
      ∃ job category, s.targetOf requests = .ok (job, category) := by
    intro requests result h
    cases htarget : s.targetOf requests with
    | ok target => exact ⟨target.1, target.2, rfl⟩
    | error refusal =>
      rw [enqueueBatch, htarget] at h
      cases h
  have herror : ∀ {requests : List Request} {refusal}, s.enqueueBatch now requests =
      .error refusal ↔ s.targetOf requests = .error refusal := by
    intro requests refusal
    cases htarget : s.targetOf requests with
    | error other => simp [enqueueBatch, htarget, bind, Except.bind]
    | ok target =>
      obtain ⟨ids, s', h, -⟩ := submitted_enqueueBatch hs hapart now htarget
      simp [h]
  refine ⟨fun requests refusal => herror.trans verdict_iff, fun requests => ⟨?_, ?_⟩, ?_⟩
  · rintro ⟨ids, s', h⟩
    obtain ⟨job, category, htarget⟩ := hok h
    exact ⟨job, category, verdict_iff.mp htarget⟩
  · rintro ⟨job, category, hverdict⟩
    obtain ⟨ids, s', h, -⟩ := submitted_enqueueBatch hs hapart now (verdict_iff.mpr hverdict)
    exact ⟨ids, s', h⟩
  · intro requests ids s' h
    obtain ⟨job, category, htarget⟩ := hok h
    obtain ⟨ids', s₁, h', hsubmitted⟩ := submitted_enqueueBatch hs hapart now htarget
    obtain ⟨rfl, rfl⟩ := Prod.mk.inj (Except.ok.inj (h.symm.trans h'))
    exact ⟨job, category, verdict_iff.mp htarget, hsubmitted⟩

/-! ### Every run -/

/-- In whatever state, the first check that a batch fails decides of it, and a batch that fails none
goes to the workers of its lane and to the end of its line.  A worker hands over its waiting side
when it polls, so no side is polled on twice. -/
theorem submissions_run (limits : Limits) (steps : List (Moment × Operation))
    (hpolled : (steps.filterMap (·.2.polledOn?)).Nodup) (now : Moment) :
    Submissions now ((new limits).run steps) :=
  submissions_of_sound (sound_run limits steps) (apart_run limits steps hpolled) now

/-- Three workers wait in a lane, of whom the first leaves. -/
def threeWorkers : List (Moment × Operation) :=
  [.openPoll, .poll ⟨.regional, ⟨"graph", "1"⟩⟩ ⟨0⟩, .openPoll,
    .poll ⟨.regional, ⟨"graph", "1"⟩⟩ ⟨1⟩, .openPoll, .poll ⟨.regional, ⟨"graph", "1"⟩⟩ ⟨2⟩,
    .leavePoll ⟨0⟩].map fun op => (default, op)

/-- A batch of one fits, has the second worker to go to, and leaves the third one waiting. -/
theorem submissions_threeWorkers : (threeWorkers.filterMap (·.2.polledOn?)).Nodup ∧
    Submissions default ((new .standard).run threeWorkers) ∧
    ((new .standard).run threeWorkers).openIn ⟨.regional, ⟨"graph", "1"⟩⟩ = [⟨1⟩, ⟨2⟩] ∧
    (((new .standard).run threeWorkers).enqueueBatch default
      [⟨some ⟨"job"⟩, ⟨"graph", "1"⟩, default⟩]).toOption.map
        (fun result => (result.1, result.2.pool.line ⟨.regional, ⟨"graph", "1"⟩⟩)) =
      some ([⟨1⟩], [⟨2⟩]) := by
  have hdistinct : (threeWorkers.filterMap (·.2.polledOn?)).Nodup := by decide
  exact ⟨hdistinct, submissions_run _ _ hdistinct _, by decide +kernel, by decide +kernel⟩

end TaskExchange.Scheduler
