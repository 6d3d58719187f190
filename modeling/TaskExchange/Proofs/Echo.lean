import TaskExchange.Proofs.Custody
import TaskExchange.Proofs.Mirror
import TaskExchange.Proofs.Reception

/-!
Echo: what producers submit comes back to workers.  Whatever happens in a session, a task that was
accepted under a number is given to workers, each time that it is given to one, as the object that
was submitted; the numbers in the answer to a batch stand in the order of its objects; and what a
worker is given is what stands in its answer.  Main statement: `echoes_run`.
-/

namespace TaskExchange

open Scheduler (Operation)

namespace Session

/-- The tasks that an event gives to those who asked for work. -/
def Event.served (e : Event) : List Task := e.calls.flatMap (·.obtained)

/-- A batch is accepted under these numbers. -/
def Event.Enrolls (e : Event) (ids : List TaskId) : Prop :=
  ∃ d ∈ e.calls, (∃ requests, d.op = .enqueueBatch requests) ∧ d.outcome = .accepted ids

/-- In these events workers are given what was submitted in a document, under this number. -/
def Echoed (levels : Nat) (d : Document) (id : TaskId) (trace : List Event) : Prop :=
  ∃ submitted s r, d.toJson levels = .ok (.object submitted) ∧
    Submission.decode levels d = .ok s ∧ s.toRequest = .ok r ∧
    ∀ e ∈ trace, ∀ t ∈ e.served, t.id = id → Mirrored levels submitted r t

/-- What is submitted comes back to workers, in a session with these events. -/
structure Echoes (trace : List Event) : Prop where
  /-- Whatever is read as a submission and makes a request is an object, and any task of this
  request is delivered as this object. -/
  law : ∀ levels d s r, Submission.decode (levels + 1) d = .ok s → s.toRequest = .ok r →
    ∃ submitted, d.toJson (levels + 1) = .ok (.object submitted) ∧
      ∀ t : Task, t.Carries r → Mirrored (levels + 1) submitted r t
  /-- A batch is told that it was accepted if it was, and then the numbers of its objects, in their
  order. -/
  batch : ∀ e ∈ trace, ∀ r, e.act = .receive r → Service.route? r = some .enqueueRegional →
    ∃ response, (e.before.service.receive e.now r).1 = .answered response ∧
      (response.status = 202 ↔ ∃ ids, e.Enrolls ids) ∧
      ∀ ids, e.Enrolls ids → response.Numbers ids ∧
        ∃ items, (Document.ofFront r.body).1 = .array items true ∧ ids.length = items.length ∧
          ∀ (k : Nat) d id, items[k]? = some d → ids[k]? = some id →
            Echoed (Document.depthLimit - 1) d id trace
  /-- A single object is held for the result of the task that it makes. -/
  single : ∀ e ∈ trace, ∀ r held, e.act = .receive r →
    Service.route? r = some .enqueueSingle → (e.before.service.receive e.now r).1 = .held held →
    ∃ id c, e.after.service.held[held]?.map (·.errand) = some (.result id c) ∧
      Echoed Document.depthLimit (Document.ofFront r.body).1 id trace
  /-- A worker is told at once the tasks that it is given, if there are any. -/
  atOnce : ∀ e ∈ trace, ∀ r kind graph version, e.act = .receive r →
    Service.route? r = some (.dequeue kind graph version) →
    (e.served ≠ [] → ∃ response, (e.before.service.receive e.now r).1 = .answered response) ∧
    ∀ response, (e.before.service.receive e.now r).1 = .answered response →
      (response.status = 200 ↔ e.served ≠ []) ∧ (e.served ≠ [] → response.Gives e.served)
  /-- A worker that was held is told the tasks that it is given, if there are any. -/
  later : ∀ e ∈ trace, ∀ id lane c response,
    e.before.service.held[id]?.map (·.errand) = some (.work lane c) →
    e.ending? id = some (.answered response) →
    (response.completed.status = 200 ↔ e.served ≠ []) ∧
      (e.served ≠ [] → response.completed.Gives e.served)

end Session

/-! ### Bodies -/

/-- A list is read when each of its items is, and the values stand in the order of the items. -/
theorem getElem?_of_mapM {α β ε : Type} {f : α → Except ε β} : ∀ {xs : List α} {ys : List β},
    xs.mapM f = .ok ys → ys.length = xs.length ∧
      ∀ (k : Nat) x, xs[k]? = some x → ∃ y, f x = .ok y ∧ ys[k]? = some y
  | [], ys, h => by
    cases h
    exact ⟨rfl, fun k x hx => by simp at hx⟩
  | x :: xs, ys, h => by
    rw [List.mapM_cons, bind_eq_ok_iff] at h
    obtain ⟨y, hx, h⟩ := h
    obtain ⟨rest, hxs, hys⟩ := bind_eq_ok_iff.mp h
    cases hys
    obtain ⟨hlength, hrest⟩ := getElem?_of_mapM hxs
    refine ⟨congrArg (· + 1) hlength, fun k z hz => ?_⟩
    cases k with
    | zero =>
      cases hz
      exact ⟨y, hx, rfl⟩
    | succ k => exact hrest k z hz

namespace Service

open Http

variable {r : Http.Request} {requests : List TaskExchange.Request} {request : TaskExchange.Request}

theorem decodeBody_eq_ok {α : Type} {decode : Document → Except Problem α} {a : α}
    (h : decodeBody decode r = .ok a) : decode (Document.ofFront r.body).1 = .ok a := by
  rw [decodeBody] at h
  split at h
  · cases h
  · split at h
    · cases h
    · exact mapError_eq_ok_iff.mp h

theorem readList_eq_ok {α : Type} {decode : Document → Except Problem α} {d : Document}
    {xs : List α} (h : d.readList decode = .ok xs) :
    ∃ items, d = .array items true ∧ items.mapM decode = .ok xs := by
  cases d with
  | array items whole =>
    obtain ⟨ys, hitems, hended⟩ := bind_eq_ok_iff.mp h
    obtain ⟨rfl, rfl⟩ := Document.ended_eq_ok_iff.mp hended
    exact ⟨items, rfl, hitems⟩
  | _ => cases h

/-- A batch is an array of submissions, each of which makes the request in its place. -/
theorem readBatch_eq_ok (h : readBatch r = .ok requests) : ∃ items,
    (Document.ofFront r.body).1 = .array items true ∧ requests.length = items.length ∧
    ∀ (k : Nat) d, items[k]? = some d → ∃ s q,
      Submission.decode (Document.depthLimit - 1) d = .ok s ∧ s.toRequest = .ok q ∧
        requests[k]? = some q := by
  obtain ⟨submissions, hbody, hmade⟩ := bind_eq_ok_iff.mp h
  rw [mapError_eq_ok_iff] at hmade
  obtain ⟨items, hitems, hread⟩ := readList_eq_ok (decodeBody_eq_ok hbody)
  obtain ⟨hcount, heach⟩ := getElem?_of_mapM hread
  obtain ⟨hcount', heach'⟩ := getElem?_of_mapM hmade
  refine ⟨items, hitems, hcount'.trans hcount, fun k d hd => ?_⟩
  obtain ⟨s, hs, hk⟩ := heach k d hd
  obtain ⟨q, hq, hk'⟩ := heach' k s hk
  exact ⟨s, q, hs, hq, hk'⟩

theorem readSingle_eq_ok (h : readSingle r = .ok request) : ∃ s,
    Submission.decode Document.depthLimit (Document.ofFront r.body).1 = .ok s ∧
      s.toRequest = .ok request := by
  obtain ⟨s, hbody, hmade⟩ := bind_eq_ok_iff.mp h
  exact ⟨s, decodeBody_eq_ok hbody, mapError_eq_ok_iff.mp hmade⟩

end Service

namespace Scheduler

variable {limits : Limits} {steps : List (Moment × Operation)} {e : Event} {t u : Task}

theorem Event.obtained_of_parked (h : e.outcome = .polled .parked) : e.obtained = [] := by
  rw [obtained, h]

theorem Event.obtained_of_dispatched {tasks : List Task}
    (h : e.outcome = .polled (.dispatched tasks)) : e.obtained = tasks := by
  rw [obtained, h]

/-- A worker that need not wait is given a task at least. -/
theorem ne_nil_of_dispatched {s : Scheduler} {now : Moment} {lane : Lane} {c : ConnectionId}
    {tasks : List Task} (h : (s.poll now lane c).1 = .dispatched tasks) : tasks ≠ [] := by
  rw [poll] at h
  split at h
  · cases h
  · next hnot _ =>
    cases h
    exact hnot

theorem Event.obtained_of_tasks {read : Option (List Task)} (h : e.outcome = .tasks read) :
    e.obtained = read.getD [] := by
  rw [obtained, h]
  cases read <;> rfl

/-- What workers obtain was accepted. -/
theorem accepted_of_mem_obtained (he : e ∈ (new limits).trace steps) (ht : t ∈ e.obtained) :
    t.asAccepted ∈ ((new limits).trace steps).flatMap (·.entry.tasks) := by
  rcases Event.of_mem_obtained (sound_of_mem_trace he) (fun c tasks => single_of_mem_trace he) ht
    with hgiven | ⟨c, hheld, -⟩
  · exact accepted_of_mem_handovers he hgiven
  · obtain ⟨past, future, hsplit⟩ := List.append_of_mem he
    obtain ⟨xs, -, rfl, hbefore, -⟩ := trace_split hsplit
    obtain ⟨v, hv, hgiven⟩ := unread_run limits xs (hbefore ▸ hheld)
    obtain rfl := List.singleton_inj.mp hv
    obtain ⟨d, hd, hgiven⟩ := List.mem_flatMap.mp hgiven
    rw [hsplit, List.flatMap_append]
    exact List.mem_append_left _ (accepted_of_mem_handovers hd hgiven)

end Scheduler

/-! ### What workers are given -/

namespace Session

variable {settings : Settings} {acts : List (Moment × Act)} {e : Event} {t u : Task}
  {d : Scheduler.Event}

theorem mem_history {events : List Event} (he : e ∈ events) (hd : d ∈ e.calls) :
    d ∈ history events :=
  List.mem_flatMap.mpr ⟨e, he, hd⟩

theorem mem_trace_of_mem_history (hd : d ∈ history ((new settings).trace acts)) :
    ∃ steps, d ∈ (Scheduler.new settings.limits).trace steps ∧
      (Scheduler.new settings.limits).trace steps = history ((new settings).trace acts) := by
  obtain ⟨steps, htrace, -⟩ := history_run (new settings) acts
  exact ⟨steps, htrace ▸ hd, htrace⟩

/-- Workers are given what was accepted. -/
theorem asAccepted_of_mem_served (he : e ∈ (new settings).trace acts) (ht : t ∈ e.served)
    (hu : u ∈ (history ((new settings).trace acts)).flatMap (·.entry.tasks)) (hid : t.id = u.id) :
    t.asAccepted = u := by
  obtain ⟨d, hd, ht⟩ := List.mem_flatMap.mp ht
  obtain ⟨steps, hd, htrace⟩ := mem_trace_of_mem_history (mem_history he hd)
  rw [← htrace] at hu
  exact Scheduler.eq_of_accepted hu (Scheduler.accepted_of_mem_obtained hd ht) hid

/-- What was accepted of a submission comes back. -/
theorem echoed_of_accepted {levels : Nat} {doc : Document} {s : Submission} {r : Request}
    (hu : u ∈ (history ((new settings).trace acts)).flatMap (·.entry.tasks)) (hr : u.Carries r)
    (hs : Submission.decode (levels + 1) doc = .ok s) (hmade : s.toRequest = .ok r) :
    Echoed (levels + 1) doc u.id ((new settings).trace acts) := by
  obtain ⟨submitted, hvalue, hreads⟩ := Submission.exists_reads hs
  refine ⟨submitted, s, r, hvalue, hs, hmade, fun e he t ht hid => hreads.mirrored hmade ?_⟩
  obtain rfl := asAccepted_of_mem_served he ht hu hid
  exact ⟨hr.job, hr.category, hr.payload⟩

/-! ### Batches -/

theorem Event.calls_receive {r : Http.Request} (hact : e.act = .receive r) : e.calls =
    e.before.scheduler.trace
      ((demanded e.before.scheduler e.now (Service.demand r)).map (e.now, ·)) := by
  rw [calls, operations, hact]

/-- A batch is accepted if the request is read as one and the scheduler accepts it. -/
theorem Event.enrolls_iff {r : Http.Request} {ids : List TaskId} (hact : e.act = .receive r)
    (hroute : Service.route? r = some .enqueueRegional) :
    e.Enrolls ids ↔ ∃ requests s', Service.readBatch r = .ok requests ∧
      e.before.scheduler.enqueueBatch e.now requests = .ok (ids, s') := by
  rw [Enrolls, e.calls_receive hact]
  simp only [Service.demand, hroute, Service.demandUnder]
  cases hread : Service.readBatch r with
  | error fault => simp [demanded, Scheduler.trace]
  | ok requests =>
    cases hresult : e.before.scheduler.enqueueBatch e.now requests with
    | error refusal =>
      simp [demanded, Scheduler.trace, Scheduler.Event.outcome, Scheduler.step, hresult]
    | ok result =>
      simp [demanded, Scheduler.trace, Scheduler.Event.outcome, Scheduler.step, hresult,
        Prod.ext_iff]

/-- A batch is answered at once, and told its numbers if it was accepted. -/
theorem answered_batch (e : Event) {r : Http.Request} (hact : e.act = .receive r)
    (hroute : Service.route? r = some .enqueueRegional) :
    ∃ response, (e.before.service.receive e.now r).1 = .answered response ∧
      (response.status = 202 ↔ ∃ ids, e.Enrolls ids) ∧
      ∀ ids, e.Enrolls ids → response.Numbers ids := by
  have hrefused : ∀ fault : Http.Fault, (∀ ids, ¬ e.Enrolls ids) →
      (fault.response.completed.status = 202 ↔ ∃ ids, e.Enrolls ids) ∧
        ∀ ids, e.Enrolls ids → fault.response.completed.Numbers ids := fun fault hnone =>
    ⟨iff_of_false (by simpa using fault.status_ne.2) fun ⟨ids, hids⟩ => hnone ids hids,
      fun ids hids => absurd hids (hnone ids)⟩
  cases hread : Service.readBatch r with
  | error fault =>
    refine ⟨_, Service.receive_batch_fault hroute hread, hrefused fault fun ids hids => ?_⟩
    obtain ⟨requests, s', hrequests, -⟩ := (Event.enrolls_iff hact hroute).mp hids
    cases hread.symm.trans hrequests
  | ok requests =>
    refine ⟨_, Service.receive_batch hroute hread, ?_⟩
    cases hresult : e.before.service.scheduler.enqueueBatch e.now requests with
    | error refusal =>
      refine hrefused (.refused refusal) fun ids hids => ?_
      obtain ⟨requests', s', hrequests, haccepted⟩ := (Event.enrolls_iff hact hroute).mp hids
      cases hread.symm.trans hrequests
      cases hresult.symm.trans haccepted
    | ok result =>
      obtain ⟨ids, s'⟩ := result
      have hids : e.Enrolls ids :=
        (Event.enrolls_iff hact hroute).mpr ⟨requests, s', hread, hresult⟩
      refine ⟨iff_of_true (Http.Response.status_accepted ids) ⟨ids, hids⟩, fun ids' hids' => ?_⟩
      obtain ⟨requests', s', hrequests, haccepted⟩ := (Event.enrolls_iff hact hroute).mp hids'
      cases hread.symm.trans hrequests
      cases hresult.symm.trans haccepted
      exact (Http.Response.numbers_accepted ids).completed

/-- The numbers of a batch that was accepted are those under which its objects come back, in their
order. -/
theorem echoed_batch (he : e ∈ (new settings).trace acts) {r : Http.Request} {ids : List TaskId}
    (hact : e.act = .receive r) (hroute : Service.route? r = some .enqueueRegional)
    (hids : e.Enrolls ids) :
    ∃ items, (Document.ofFront r.body).1 = .array items true ∧ ids.length = items.length ∧
      ∀ (k : Nat) d id, items[k]? = some d → ids[k]? = some id →
        Echoed (Document.depthLimit - 1) d id ((new settings).trace acts) := by
  obtain ⟨requests, s', hread, hresult⟩ := (Event.enrolls_iff hact hroute).mp hids
  let d : Scheduler.Event := ⟨e.before.scheduler, e.now, .enqueueBatch requests⟩
  have hd : d ∈ e.calls := by
    rw [e.calls_receive hact]
    simp only [Service.demand, hroute, Service.demandUnder, hread, demanded]
    exact List.mem_singleton_self _
  have houtcome : d.outcome = .accepted ids := by
    simp only [d, Scheduler.Event.outcome, Scheduler.step, hresult]
  have htasks : d.entry.tasks = Scheduler.batchTasks e.now ids requests := by
    rw [Scheduler.Event.entry, houtcome]
    rfl
  obtain ⟨steps, hmem, -⟩ := mem_trace_of_mem_history (mem_history he hd)
  have hlength := (d.told (Scheduler.sound_of_mem_trace hmem) houtcome).2 requests rfl
  obtain ⟨items, hitems, hcount, heach⟩ := Service.readBatch_eq_ok hread
  refine ⟨items, hitems, hlength.trans hcount, fun k doc id hdoc hid => ?_⟩
  obtain ⟨s, q, hs, hmade, hq⟩ := heach k doc hdoc
  refine echoed_of_accepted (u := .ofRequest id .regional e.now.civil q) ?_ ⟨rfl, rfl, rfl⟩ hs hmade
  refine List.mem_flatMap.mpr ⟨d, mem_history he hd, ?_⟩
  rw [htasks, Scheduler.batchTasks]
  exact List.mem_of_getElem? (List.getElem?_zipWith_eq_some.mpr ⟨id, q, hid, hq, rfl⟩)

/-! ### Single requests -/

theorem echoed_single (he : e ∈ (new settings).trace acts) {r : Http.Request} {held : HeldId}
    (hact : e.act = .receive r) (hroute : Service.route? r = some .enqueueSingle)
    (hheld : (e.before.service.receive e.now r).1 = .held held) :
    ∃ id c, e.after.service.held[held]?.map (·.errand) = some (.result id c) ∧
      Echoed Document.depthLimit (Document.ofFront r.body).1 id ((new settings).trace acts) := by
  cases hread : Service.readSingle r with
  | error fault =>
    rw [Service.receive_submit_fault hroute hread] at hheld
    cases hheld
  | ok q =>
    obtain ⟨s, hs, hmade⟩ := Service.readSingle_eq_ok hread
    let opened : Scheduler.Event := ⟨e.before.scheduler, e.now, .openRequest⟩
    let d : Scheduler.Event := ⟨opened.after, e.now, .submit q ⟨e.before.scheduler.requesters.next⟩⟩
    have hd : d ∈ e.calls := by
      rw [e.calls_receive hact]
      simp only [Service.demand, hroute, Service.demandUnder, hread, demanded]
      exact List.mem_cons_of_mem _ (List.mem_singleton_self _)
    obtain ⟨hreceive, hbegins⟩ :=
      Event.held_of_registers (housed_of_mem he) hact hd (.result (d := d) rfl)
    obtain rfl := Reception.held.inj (hheld.symm.trans hreceive)
    refine ⟨_, _, hbegins.2, echoed_of_accepted (u := .ofRequest e.before.scheduler.nextId .priority
      e.now.civil q) ?_ ⟨rfl, rfl, rfl⟩ hs hmade⟩
    exact List.mem_flatMap.mpr ⟨d, mem_history he hd, List.mem_singleton_self _⟩

/-! ### Answers to workers -/

section

variable {r : Http.Request} {lane : Lane} {tasks : List Task} (hact : e.act = .receive r)

include hact

theorem Event.served_of_nothing (hdemand : Service.demand r = .nothing) : e.served = [] := by
  rw [served, e.calls_receive hact, hdemand]
  rfl

variable (hdemand : Service.demand r = .dequeue lane)

include hdemand

/-- A worker that has to wait is given nothing yet. -/
theorem Event.served_of_parked
    (hpoll : ((e.before.scheduler.step e.now .openPoll).2.poll e.now lane
      ⟨e.before.scheduler.polls.next⟩).1 = .parked) : e.served = [] := by
  rw [served, e.calls_receive hact, hdemand, demanded, hpoll]
  exact (List.append_nil _).trans
    (Scheduler.Event.obtained_of_parked (congrArg Scheduler.Outcome.polled hpoll))

theorem Event.served_of_dispatched
    (hpoll : ((e.before.scheduler.step e.now .openPoll).2.poll e.now lane
      ⟨e.before.scheduler.polls.next⟩).1 = .dispatched tasks) : e.served = tasks := by
  rw [served, e.calls_receive hact, hdemand, demanded, hpoll]
  exact (List.append_nil _).trans
    (Scheduler.Event.obtained_of_dispatched (congrArg Scheduler.Outcome.polled hpoll))

end

/-- A worker that asks for tasks is given some and told them, or it is given none and told nothing
or what it did wrong. -/
theorem served_atOnce (e : Event) {r : Http.Request} {kind : Kind} {graph version : String}
    (hact : e.act = .receive r) (hroute : Service.route? r = some (.dequeue kind graph version)) :
    (e.served ≠ [] ∧ ∃ response, (e.before.service.receive e.now r).1 = .answered response ∧
        response.Gives e.served) ∨
      (e.served = [] ∧ ∀ response, (e.before.service.receive e.now r).1 = .answered response →
        response.status ≠ 200) := by
  cases hread : Category.read graph version with
  | error fault =>
    have hdemand : Service.demand r = .nothing := by
      simp only [Service.demand, hroute, Service.demandUnder, hread]
    refine Or.inr ⟨Event.served_of_nothing hact hdemand, fun response hanswer => ?_⟩
    rw [Service.receive_dequeue_fault hroute hread] at hanswer
    cases hanswer
    simpa using (Service.inputFault fault).status_ne.1
  | ok category =>
    have hdemand : Service.demand r = .dequeue ⟨kind, category⟩ := by
      simp only [Service.demand, hroute, Service.demandUnder, hread]
    have hreceive : (e.before.service.receive e.now r).1 = _ := Service.receive_dequeue hdemand
    cases hpoll : ((e.before.scheduler.step e.now .openPoll).2.poll e.now ⟨kind, category⟩
        ⟨e.before.scheduler.polls.next⟩).1 with
    | parked =>
      refine Or.inr ⟨Event.served_of_parked hact hdemand hpoll, fun response hanswer => ?_⟩
      rw [Session.scheduler] at hpoll
      rw [hpoll] at hreceive
      cases hreceive.symm.trans hanswer
    | dispatched tasks =>
      rw [Event.served_of_dispatched hact hdemand hpoll]
      rw [Session.scheduler] at hpoll
      rw [hpoll] at hreceive
      exact Or.inl ⟨Scheduler.ne_nil_of_dispatched hpoll, _, hreceive,
        (Http.Response.gives_tasks tasks).completed⟩

/-- What a worker has not read is never nothing. -/
theorem unread_ne_nil (he : e ∈ (new settings).trace acts) {c : ConnectionId} {tasks : List Task}
    (h : e.before.scheduler.polls.held? c = some tasks) : tasks ≠ [] := by
  obtain ⟨xs, -, hbefore, -⟩ := exists_runs_of_mem he
  obtain ⟨steps, -, hrun⟩ := history_run (new settings) xs
  rw [← hbefore, ← hrun] at h
  obtain ⟨t, rfl, -⟩ := Scheduler.unread_run settings.limits steps h
  exact List.cons_ne_nil t []

/-- A worker that was held is told what it is given. -/
theorem served_later (he : e ∈ (new settings).trace acts) {id : HeldId} {lane : Lane}
    {c : ConnectionId} {response : Http.Response}
    (hheld : e.before.service.held[id]?.map (·.errand) = some (.work lane c))
    (hend : e.ending? id = some (.answered response)) :
    (e.served ≠ [] ∧ response.completed.Gives e.served) ∨
      (e.served = [] ∧ response.completed.status = 204) := by
  obtain ⟨held, op, hid, -, hops, hends⟩ := Event.ends hend
  obtain herrand : held.errand = .work lane c := by simpa [hid] using hheld
  rw [herrand] at hops hends
  have hserved : e.served = Scheduler.Event.obtained ⟨e.before.scheduler, e.now, op⟩ := by
    rw [Event.served, Event.calls, hops]
    exact List.append_nil _
  generalize hending : Ending.answered response = ending at hends
  cases hends with
  | read hnews =>
    cases hending
    obtain ⟨tasks, hread, rfl⟩ := Option.map_eq_some_iff.mp hnews
    have htasks : e.served = tasks := by
      rw [hserved, Scheduler.Event.obtained_of_tasks rfl, Switchboard.take_fst, hread]
      rfl
    rw [htasks]
    exact Or.inl ⟨unread_ne_nil he hread, (Http.Response.gives_tasks tasks).completed⟩
  | release =>
    cases hending
    have hread : (e.before.scheduler.releasePoll lane c).1 = e.before.scheduler.polls.held? c :=
      Switchboard.take_fst ..
    rw [hserved, Scheduler.Event.obtained_of_tasks rfl, hread, Errand.lastWord]
    cases hcame : e.before.scheduler.polls.held? c with
    | none => exact Or.inr ⟨rfl, Http.Response.status_noTasks⟩
    | some tasks =>
      exact Or.inl ⟨unread_ne_nil he hcame, (Http.Response.gives_tasks tasks).completed⟩
  | clear => cases hending

/-! ### Every session -/

/-- What is submitted comes back to workers, whatever happens. -/
theorem echoes_run (settings : Settings) (acts : List (Moment × Act)) :
    Echoes ((new settings).trace acts) where
  law levels d s r hs hmade := by
    obtain ⟨submitted, hvalue, hreads⟩ := Submission.exists_reads hs
    exact ⟨submitted, hvalue, fun t ht => hreads.mirrored hmade ht⟩
  batch e he r hact hroute := by
    obtain ⟨response, hanswer, hstatus, hnumbers⟩ := answered_batch e hact hroute
    exact ⟨response, hanswer, hstatus, fun ids hids =>
      ⟨hnumbers ids hids, echoed_batch he hact hroute hids⟩⟩
  single e he r held := echoed_single he
  atOnce e he r kind graph version hact hroute := by
    rcases served_atOnce e hact hroute with ⟨hne, response, hanswer, hgives⟩ | ⟨hnil, hother⟩
    · refine ⟨fun _ => ⟨response, hanswer⟩, fun response' hanswer' => ?_⟩
      obtain rfl := Reception.answered.inj (hanswer.symm.trans hanswer')
      exact ⟨iff_of_true hgives.status hne, fun _ => hgives⟩
    · refine ⟨fun hne => absurd hnil hne, fun response hanswer => ⟨?_, fun hne => absurd hnil hne⟩⟩
      exact iff_of_false (hother response hanswer) (not_not_intro hnil)
  later e he id lane c response hheld hend := by
    rcases served_later he hheld hend with ⟨hne, hgives⟩ | ⟨hnil, hstatus⟩
    · exact ⟨iff_of_true hgives.status hne, fun _ => hgives⟩
    · rw [hstatus]
      exact ⟨iff_of_false (by decide) (not_not_intro hnil), fun hne => absurd hnil hne⟩

end Session

end TaskExchange
