import TaskExchange.Proofs.Facade
import TaskExchange.Proofs.Members
import TaskExchange.Proofs.Result

/-!
Refused requests: a request that is turned down leaves no trace.  Whatever has happened before,
be it in a session, by callers that use the exchange as they like, or on the service's own clock,
the service is after such a request what it was before.  Main statement: `noTrace_run`.
-/

namespace TaskExchange

namespace Http.Response

/-- Holds of the responses to requests that are turned down: something is wrong with them, what they
name is not there, or there is no room for what they bring. -/
def Refuses (response : Response) : Prop := response.status ∈ [400, 404, 405, 413, 503]

variable {response : Response}

/-- The other statuses: something was done, was accepted, came to nothing, or took too long. -/
theorem not_refuses (status : Nat) (h : response.status = status)
    (hstatus : status ∈ [200, 202, 204, 504]) : ¬ response.Refuses := by
  rw [Refuses, h]
  clear h
  revert status
  decide

/-- How a response is sent does not change its status. -/
theorem refuses_sent (method : String) (response : Response) :
    (Service.sent method response).Refuses ↔ response.Refuses := by
  rw [Service.sent]
  split <;> exact Iff.rfl

end Http.Response

namespace Service

open Http

variable {s : Service} {now : Moment} {r : Http.Request} {response : Response}

/-- What comes of a request is clean when a refusal leaves the service as it was. -/
def Clean (s : Service) (result : Reception × Service) : Prop :=
  ∀ response, result.1 = .answered response → response.Refuses → result.2 = s

theorem clean_same (s : Service) (reception : Reception) : s.Clean (reception, s) :=
  fun _ _ _ => rfl

/-- A request that is held is not refused. -/
theorem clean_held (s s' : Service) (id : HeldId) : s.Clean (.held id, s') := by
  intro response h
  cases h

theorem clean_of_not_refuses (s' : Service) (h : ¬ response.Refuses) :
    s.Clean (.answered response, s') := by
  intro other hother href
  cases hother
  exact absurd href h

/-- A fault leaves the service as it was. -/
theorem clean_answer {result : Except Fault (Response × Service)}
    (h : ∀ response s', result = .ok (response, s') → ¬ response.Refuses) :
    s.Clean (s.answer result) := by
  cases result with
  | error fault => exact s.clean_same _
  | ok pair => exact clean_of_not_refuses _ (h pair.1 pair.2 rfl)

/-! ### The routes, one by one -/

theorem clean_enqueueBatch (s : Service) (now : Moment) (r : Http.Request) :
    s.Clean (s.answer (s.enqueueBatch now r)) := by
  refine clean_answer fun response s' h => ?_
  obtain ⟨requests, -, hrest⟩ := bind_eq_ok_iff.mp h
  obtain ⟨accepted, -, hmade⟩ := bind_eq_ok_iff.mp hrest
  cases hmade
  exact Response.not_refuses 202 rfl (by decide)

theorem clean_submit (s : Service) (now : Moment) (r : Http.Request) :
    s.Clean (s.submit now r) := by
  rw [submit]
  split
  · exact s.clean_same _
  · exact s.clean_held _ _

/-- A poll is observed before it is served, and then it is not refused. -/
theorem clean_dequeue (s s' : Service) (now : Moment) (lane : Lane) :
    s.Clean (s'.dequeue now lane) := by
  simp only [dequeue]
  split
  · exact clean_of_not_refuses _ (Response.not_refuses 200 rfl (by decide))
  · exact s.clean_held _ _

/-- A result for which nobody waits changes nothing: only requests that are awaited are there to be
forgotten. -/
theorem clean_complete (hs : Scheduler.Sound s.scheduler ∅) (text : String) (result : ByteArray) :
    s.Clean (s.complete text result) := by
  rw [complete]
  split
  · exact s.clean_same _
  · split
    · exact s.clean_same _
    · next id _ =>
      cases hc : s.scheduler.producers[id]? with
      | some c =>
        have hdone : (s.exchange.complete id result).1 = _ := hs.complete_fst hc result
        rw [← Prod.eta (s.exchange.complete id result), hdone]
        exact clean_of_not_refuses _ (Response.not_refuses 200 rfl (by decide))
      | none =>
        have hid : id ∉ s.scheduler.producers := by
          simp [Std.ExtTreeMap.mem_iff_isSome_getElem?, hc]
        have hnone : s.exchange.scheduler.complete id result = _ := hs.complete_of_notMem hid result
        rw [Exchange.complete, hnone]
        exact s.clean_same _

theorem clean_acknowledge (s : Service) (text : String) :
    s.Clean (s.answer (s.acknowledge text)) := by
  refine clean_answer fun response s' h => ?_
  obtain ⟨id, -, hrest⟩ := bind_eq_ok_iff.mp h
  obtain ⟨exchange, -, hmade⟩ := bind_eq_ok_iff.mp hrest
  cases hmade
  exact Response.not_refuses 200 rfl (by decide)

theorem clean_deleteJob (s : Service) (job : String) :
    s.Clean (s.answer (s.deleteJob job)) := by
  refine clean_answer fun response s' h => ?_
  obtain ⟨exchange, -, hmade⟩ := bind_eq_ok_iff.mp h
  cases hmade
  exact Response.not_refuses 200 rfl (by decide)

theorem clean_serve (hs : Scheduler.Sound s.scheduler ∅) (now : Moment) (r : Http.Request)
    (route : Route) : s.Clean (s.serve now r route) := by
  cases route with
  | enqueueRegional => exact s.clean_enqueueBatch now r
  | enqueueSingle => exact s.clean_submit now r
  | dequeue kind graph version =>
    rw [serve]
    split
    · exact s.clean_same _
    · exact s.clean_dequeue _ now _
  | complete text => exact clean_complete hs text r.body
  | acknowledge text => exact s.clean_acknowledge text
  | deleteJob job => exact s.clean_deleteJob job
  | _ => exact s.clean_same _

theorem clean_dispatch (hs : Scheduler.Sound s.scheduler ∅) (now : Moment) (r : Http.Request) :
    s.Clean (s.dispatch now r) := by
  cases h : route? r with
  | some route => exact dispatch_of_route? h ▸ clean_serve hs now r route
  | none => exact fun _ _ _ => dispatch_of_route?_none h

/-- A request that is refused leaves the service as it was. -/
theorem clean_receive (hs : Scheduler.Sound s.scheduler ∅) (now : Moment) (r : Http.Request) :
    s.Clean (s.receive now r) := by
  have hclean := clean_dispatch hs now r
  rw [receive]
  split
  · next response s' h =>
    rw [h] at hclean
    intro _ hsent href
    cases hsent
    exact hclean response rfl (response.refuses_sent r.method |>.mp href)
  · exact s.clean_held _ _

/-! ### Requests that were held -/

/-- A request that was held is answered in the end, be it with nothing, or too late. -/
theorem not_refuses_news {s : Scheduler} {errand : Errand} (h : errand.news? s = some response) :
    ¬ response.Refuses := by
  cases errand with
  | work lane c =>
    obtain ⟨tasks, -, rfl⟩ := Option.map_eq_some_iff.mp h
    exact Response.not_refuses 200 rfl (by decide)
  | result task c =>
    obtain ⟨body, -, rfl⟩ := Option.map_eq_some_iff.mp h
    exact Response.not_refuses 200 rfl (by decide)

theorem not_refuses_lastWord (s : Scheduler) (errand : Errand) :
    ¬ (errand.lastWord s).Refuses := by
  cases errand with
  | work lane c =>
    rw [Errand.lastWord]
    cases s.polls.held? c with
    | none => exact Response.not_refuses 204 rfl (by decide)
    | some tasks => exact Response.not_refuses 200 rfl (by decide)
  | result task c =>
    rw [Errand.lastWord]
    cases s.requesters.held? c with
    | none => exact Response.not_refuses 504 rfl (by decide)
    | some body => exact Response.not_refuses 200 rfl (by decide)

end Service

namespace Session

/-- What happens to a service, whoever brings it about. -/
inductive Happening where
  /-- What happens in a session. -/
  | act (a : Act)
  /-- A caller carries out an operation of the exchange, with any waiting side. -/
  | operate (op : Exchange.Operation)
  /-- The next sweep is due then, or there are no more sweeps. -/
  | schedule (due : Option Nat)

/-- The session after something has happened. -/
def happen (x : Session) (now : Moment) : Happening → Session
  | .act a => x.act now a
  | .operate op =>
    { x with service := { x.service with exchange := x.service.exchange.step now op } }
  | .schedule due => { x with service := { x.service with nextSweep := due } }

/-- Things happen one after the other. -/
def live (x : Session) (happenings : List (Moment × Happening)) : Session :=
  happenings.foldl (fun x h => x.happen h.1 h.2) x

variable {x : Session}

theorem sound_happen (hs : Scheduler.Sound x.scheduler ∅) (now : Moment) (h : Happening) :
    Scheduler.Sound (x.happen now h).scheduler ∅ := by
  cases h with
  | act a =>
    have hmoves := Event.moves ⟨x, now, a⟩
    exact hmoves.scheduler ▸ hs.run _
  | operate op =>
    have hstep := Exchange.step_scheduler x.service.exchange now op
    change Scheduler.Sound (x.service.exchange.step now op).scheduler ∅
    rw [hstep]
    cases op.scheduling? now with
    | none => exact hs
    | some op => exact Scheduler.Event.sound_after ⟨x.scheduler, now, op⟩ hs
  | schedule due => exact hs

theorem sound_live (settings : Settings) (happenings : List (Moment × Happening)) :
    Scheduler.Sound ((new settings).live happenings).scheduler ∅ := by
  induction happenings using List.reverseRecOn with
  | nil => exact .new settings.limits
  | append_singleton happenings h ih =>
    rw [live, List.foldl_append]
    exact sound_happen ih h.1 h.2

theorem not_refuses_of_ends {s : Scheduler} {errand : Errand} {op : Scheduler.Operation}
    {response : Http.Response} (h : Ends s errand (.answered response) op) :
    ¬ response.Refuses := by
  generalize hending : Ending.answered response = ending at h
  cases h with
  | read hnews =>
    cases hending
    exact Service.not_refuses_news hnews
  | release =>
    cases hending
    exact Service.not_refuses_lastWord s errand
  | clear => cases errand <;> cases hending

/-- Requests that are refused leave no trace, as things stand in a session. -/
structure NoTrace (x : Session) : Prop where
  /-- After a request that is refused, everything is as it was before. -/
  unchanged : ∀ now r response service, x.service.receive now r = (.answered response, service) →
    response.Refuses → service = x.service
  /-- Whatever happens after such a request happens as if it had not been sent. -/
  later : ∀ now r response, (x.service.receive now r).1 = .answered response →
    response.Refuses → ∀ more, x.live ((now, .act (.receive r)) :: more) = x.live more
  /-- A request that is held is not refused when it is answered in the end. -/
  held : ∀ now a id response, Event.ending? ⟨x, now, a⟩ id = some (.answered response) →
    ¬ response.Refuses

/-- A request that is refused leaves no trace, whatever has happened before. -/
theorem noTrace_run (settings : Settings) (happenings : List (Moment × Happening)) :
    NoTrace ((new settings).live happenings) := by
  have hs := sound_live settings happenings
  generalize (new settings).live happenings = x at hs
  have hclean := fun now r => Service.clean_receive hs now r
  refine ⟨?_, ?_, ?_⟩
  · intro now r response service hreceive href
    have hstate := hclean now r response (by rw [hreceive]) href
    rwa [hreceive] at hstate
  · intro now r response hanswer href more
    have hstate : x.happen now (.act (.receive r)) = x := by
      rw [happen, act, hclean now r response hanswer href]
    rw [live, List.foldl_cons, hstate, live]
  · intro now a id response hend
    obtain ⟨held, op, -, -, -, hends⟩ := Event.ends hend
    exact not_refuses_of_ends hends

end Session

end TaskExchange
