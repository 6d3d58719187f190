import TaskExchange.Proofs.Housework
import TaskExchange.Proofs.Members

/-!
Reception: what a request is told at once.  A batch is answered with the numbers of its tasks, a
worker with the tasks that it is given, and whoever has to wait is told nothing and held.  Main
statements: what is told by what is asked for (`receive_batch`, `receive_dequeue`,
`receive_submit`), and that a request by which someone is registered is held from then on
(`Event.held_of_registers`).
-/

namespace TaskExchange

namespace Http

/-- No fault is told with the status of something that went well. -/
theorem Fault.status_ne (f : Fault) : f.status ≠ 200 ∧ f.status ≠ 202 := by
  cases f with
  | refused refusal => cases refusal <;> simp [status, refusalStatus]
  | _ => simp [status]

/-- A route is asked for with the same methods when its texts are decoded. -/
theorem Route.methods_of_decode {raw route : Route} (h : raw.decode = .ok route) :
    route.methods = raw.methods := by
  cases raw with
  | dequeue kind graph version =>
    obtain ⟨graph', -, h⟩ := bind_eq_ok_iff.mp h
    obtain ⟨version', -, h⟩ := bind_eq_ok_iff.mp h
    cases h
    rfl
  | complete task | acknowledge task | deleteJob job =>
    obtain ⟨text, -, rfl⟩ := map_eq_ok_iff.mp h
    rfl
  | _ =>
    cases h
    rfl

end Http

namespace Service

open Http

variable {s : Service} {now : Moment} {r : Http.Request} {route : Route} {lane : Lane}
  {requests : List TaskExchange.Request} {request : TaskExchange.Request} {response : Response}
  {fault : Fault} {id : HeldId}

theorem method_of_route? (h : route? r = some route) : r.method ∈ route.methods := by
  rw [route?] at h
  split at h
  · cases h
  · obtain ⟨raw, -, h⟩ := Option.bind_eq_some_iff.mp h
    split at h
    · next hin =>
      cases hdecode : raw.decode with
      | error name =>
        rw [hdecode] at h
        cases h
      | ok decoded =>
        rw [hdecode] at h
        cases h
        exact Route.methods_of_decode hdecode ▸ hin
    · cases h

theorem status_sent (method : String) (response : Response) :
    (sent method response).status = response.status := by
  rw [sent]
  split <;> rfl

theorem sent_post (h : r.method ∈ ["POST"]) (response : Response) :
    sent r.method response = response.completed := by
  rw [List.mem_singleton.mp h, sent]
  exact if_neg (by decide)

/-- What is asked for with a post is told as the route has it. -/
theorem receive_fst_of_answered (hroute : route? r = some route) (hpost : route.methods = ["POST"])
    (h : (s.serve now r route).1 = .answered response) :
    (s.receive now r).1 = .answered response.completed := by
  rw [receive, dispatch_of_route? hroute, ← Prod.eta (s.serve now r route), h]
  exact congrArg Reception.answered (sent_post (hpost ▸ method_of_route? hroute) response)

theorem receive_fst_of_held (hroute : route? r = some route)
    (h : (s.serve now r route).1 = .held id) : (s.receive now r).1 = .held id := by
  rw [receive, dispatch_of_route? hroute, ← Prod.eta (s.serve now r route), h]

/-! ### What demands are read from -/

theorem route_of_dequeue (h : demand r = .dequeue lane) : ∃ graph version,
    route? r = some (.dequeue lane.kind graph version) ∧
      Category.read graph version = .ok lane.category := by
  obtain ⟨route, hroute, hdemands⟩ := demands_of_demand h nofun
  cases hdemands with
  | dequeue hread => exact ⟨_, _, hroute, hread⟩

theorem route_of_submit (h : demand r = .submit request) :
    route? r = some .enqueueSingle ∧ readSingle r = .ok request := by
  obtain ⟨route, hroute, hdemands⟩ := demands_of_demand h nofun
  cases hdemands with
  | submit hread => exact ⟨hroute, hread⟩

/-! ### What is told -/

/-- A batch is told its numbers, or why it is refused. -/
theorem receive_batch (hroute : route? r = some .enqueueRegional)
    (hread : readBatch r = .ok requests) :
    (s.receive now r).1 = .answered (match s.scheduler.enqueueBatch now requests with
      | .ok (ids, _) => (Response.accepted ids).completed
      | .error refusal => (Fault.refused refusal).response.completed) := by
  cases hresult : s.scheduler.enqueueBatch now requests with
  | ok result =>
    refine receive_fst_of_answered hroute rfl ?_
    simp only [serve, enqueueBatch, hread, Exchange.enqueueBatch, bind, Except.bind]
    rw [scheduler] at hresult
    rw [hresult]
    rfl
  | error refusal =>
    refine receive_fst_of_answered hroute rfl ?_
    simp only [serve, enqueueBatch, hread, Exchange.enqueueBatch, bind, Except.bind]
    rw [scheduler] at hresult
    rw [hresult]
    rfl

/-- A body that is not a batch is answered with a fault. -/
theorem receive_batch_fault (hroute : route? r = some .enqueueRegional)
    (hread : readBatch r = .error fault) :
    (s.receive now r).1 = .answered fault.response.completed := by
  refine receive_fst_of_answered hroute rfl ?_
  simp only [serve, enqueueBatch, hread]
  rfl

/-- A worker is told the tasks that it is given, or it is held. -/
theorem receive_dequeue (h : demand r = .dequeue lane) : (s.receive now r).1 =
    match ((s.scheduler.step now .openPoll).2.poll now lane ⟨s.scheduler.polls.next⟩).1 with
    | .dispatched tasks => .answered (Response.tasks tasks).completed
    | .parked => .held s.nextHeld := by
  obtain ⟨graph, version, hroute, hread⟩ := route_of_dequeue h
  obtain ⟨catalog, hcatalog⟩ := Session.observe_eq s now r.headers lane.category
  obtain ⟨outcome, s', hpoll⟩ : ∃ outcome s', (s.scheduler.step now .openPoll).2.poll now lane
      ⟨s.scheduler.polls.next⟩ = (outcome, s') := ⟨_, _, rfl⟩
  have hserve : (s.serve now r (.dequeue lane.kind graph version)).1 = match outcome with
      | .dispatched tasks => .answered (.tasks tasks)
      | .parked => .held s.nextHeld := by
    simp only [serve, hread, hcatalog, dequeue, Exchange.openPoll, Exchange.poll,
      Switchboard.connect, Scheduler.step, scheduler] at hpoll ⊢
    simp only [hpoll]
    cases outcome <;> rfl
  rw [hpoll]
  cases outcome with
  | dispatched tasks => exact receive_fst_of_answered hroute rfl hserve
  | parked => exact receive_fst_of_held hroute hserve

/-- A poll for what is no category is answered with a fault. -/
theorem receive_dequeue_fault {kind : Kind} {graph version : String} {f : InputFault}
    (hroute : route? r = some (.dequeue kind graph version))
    (hread : Category.read graph version = .error f) :
    (s.receive now r).1 = .answered (inputFault f).response.completed := by
  refine receive_fst_of_answered hroute rfl ?_
  simp only [serve, hread]

/-- A requester is held. -/
theorem receive_submit (h : demand r = .submit request) :
    (s.receive now r).1 = .held s.nextHeld := by
  obtain ⟨hroute, hread⟩ := route_of_submit h
  refine receive_fst_of_held hroute ?_
  simp only [serve, submit, hread]
  rfl

/-- A body that is not a request is answered with a fault. -/
theorem receive_submit_fault (hroute : route? r = some .enqueueSingle)
    (hread : readSingle r = .error fault) :
    (s.receive now r).1 = .answered fault.response.completed := by
  refine receive_fst_of_answered hroute rfl ?_
  simp only [serve, submit, hread]

end Service

namespace Session

variable {e : Event} {d : Scheduler.Event} {errand : Errand} {r : Http.Request}

/-- A request that has a waiting side opened and kept open is told nothing. -/
theorem Event.receive_of_opening (hact : e.act = .receive r)
    (h : errand.Opening e.before.scheduler e.operations) :
    (e.before.service.receive e.now r).1 = .held e.before.service.nextHeld := by
  obtain ⟨x, now, a⟩ := e
  obtain rfl : a = .receive r := hact
  change errand.Opening x.scheduler (demanded x.scheduler now (Service.demand r)) at h
  cases hdemand : Service.demand r with
  | nothing =>
    rw [hdemand] at h
    cases h
  | carryOut op =>
    rw [hdemand] at h
    cases h
  | submit request => exact Service.receive_submit hdemand
  | dequeue lane =>
    rw [hdemand, demanded] at h
    split at h
    · next hparked =>
      refine (Service.receive_dequeue hdemand).trans ?_
      rw [Session.scheduler] at hparked
      rw [Service.scheduler] at hparked ⊢
      rw [hparked]
    · cases h

/-- A request by which someone is registered is held from then on. -/
theorem Event.held_of_registers (hx : Housed e.before) (hact : e.act = .receive r)
    (hd : d ∈ e.calls) (hregisters : errand.RegistersAt d) :
    (e.before.service.receive e.now r).1 = .held e.before.service.nextHeld ∧
      e.Begins e.before.service.nextHeld errand := by
  have hhouse : e.act.OfHouse := by
    rw [hact]
    trivial
  have hopening := e.opening_of_registers hhouse hd hregisters
  exact ⟨Event.receive_of_opening hact hopening, e.begins_of_opening hx hopening⟩

end Session

end TaskExchange
