import TaskExchange.Proofs.Session

/-!
Conduct: what the events of a session do.  Main statements: every event is one of a few moves
(`Event.moves`), and a held request ends in one of three ways (`Event.ends`).
-/

namespace TaskExchange

open Scheduler (Operation)

namespace Service

open Http

theorem receive_snd (s : Service) (now : Moment) (r : Http.Request) :
    (s.receive now r).2 = (s.dispatch now r).2 := by
  rw [receive]
  split <;> simp [*]

theorem dispatch_of_route? {s : Service} {now : Moment} {r : Http.Request} {route : Route}
    (h : route? r = some route) : s.dispatch now r = s.serve now r route := by
  rw [route?] at h
  rw [dispatch]
  split at h
  · cases h
  · next hmethod =>
    rw [if_neg hmethod]
    obtain ⟨raw, hraw, h⟩ := Option.bind_eq_some_iff.mp h
    split at h
    · next hin =>
      rw [hraw]
      simp only [hin, not_true_eq_false, if_false]
      cases hdecode : raw.decode with
      | error name => rw [hdecode] at h; cases h
      | ok decoded =>
        rw [hdecode] at h
        cases h
        rfl
    · cases h

theorem dispatch_of_route?_none {s : Service} {now : Moment} {r : Http.Request}
    (h : route? r = none) : (s.dispatch now r).2 = s := by
  rw [route?] at h
  rw [dispatch]
  split at h
  · next hmethod => rw [if_pos hmethod]
  · next hmethod =>
    rw [if_neg hmethod]
    cases hraw : Route.ofPath? r.path with
    | none => rfl
    | some raw =>
      rw [hraw, Option.bind_some] at h
      split at h
      · next hin =>
        simp only [hin, not_true_eq_false, if_false]
        cases hdecode : raw.decode with
        | error name => rfl
        | ok decoded => rw [hdecode] at h; cases h
      · next hin => simp only [hin, not_false_eq_true, if_true]

/-- What the service does when something is demanded of it. -/
def meet (s : Service) (now : Moment) (r : Http.Request) : Demand → Service
  | .nothing => s
  | .carryOut op => s.withScheduler (s.scheduler.step now op).2
  | .dequeue lane => ((s.observe now r.headers lane.category).dequeue now lane).2
  | .submit request =>
    let (c, exchange) := s.exchange.openRequest
    let (id, exchange) := exchange.submit now request c
    ({ s with exchange }.hold (.result id c)).2

theorem serve_snd (s : Service) (now : Moment) (r : Http.Request) (route : Route) :
    (s.serve now r route).2 = s.meet now r (demandUnder r route) := by
  cases route with
  | enqueueRegional =>
    simp only [serve, demandUnder, enqueueBatch]
    cases readBatch r with
    | error f => rfl
    | ok requests =>
      simp only [meet, Scheduler.step, scheduler, Exchange.enqueueBatch, bind, Except.bind]
      cases s.exchange.scheduler.enqueueBatch now requests <;> rfl
  | enqueueSingle =>
    simp only [serve, demandUnder, submit]
    cases readSingle r <;> rfl
  | dequeue kind graph version =>
    simp only [serve, demandUnder]
    cases Category.read graph version <;> rfl
  | complete text =>
    simp only [serve, demandUnder, complete]
    split
    · rfl
    · cases TaskId.read text with
      | error f => rfl
      | ok id =>
        simp only [meet, Scheduler.step, scheduler, Exchange.complete]
        cases (s.exchange.scheduler.complete id r.body).1 <;> rfl
  | acknowledge text =>
    simp only [serve, demandUnder, acknowledge]
    cases TaskId.read text with
    | error f => rfl
    | ok id =>
      simp only [meet, Scheduler.step, scheduler, Exchange.acknowledge, Except.mapError, bind,
        Except.bind]
      cases s.exchange.scheduler.acknowledge? id <;> rfl
  | deleteJob job =>
    simp only [serve, demandUnder, deleteJob]
    simp only [meet, Scheduler.step, scheduler, Exchange.deleteJob]
    cases s.exchange.scheduler.deleteJob? ⟨job⟩ <;> rfl
  | _ => rfl

/-- A request has the service do what it demands. -/
theorem receive_snd_eq (s : Service) (now : Moment) (r : Http.Request) :
    (s.receive now r).2 = s.meet now r (demand r) := by
  rw [receive_snd, demand]
  cases h : route? r with
  | none => exact dispatch_of_route?_none h
  | some route => rw [dispatch_of_route? h, serve_snd]

/-- What can be demanded under a route, and what it is read from. -/
inductive Demands (r : Http.Request) : Route → Demand → Prop where
  | nothing {route : Route} : Demands r route .nothing
  /-- The operations that are carried out need no waiting side and withdraw no request. -/
  | carryOut {route : Route} {op : Operation} : op.side? = none → (∀ s, op.opened? s = none) →
      op.withdrawn? = none → Demands r route (.carryOut op)
  | dequeue {kind : Kind} {graph version : String} {category : Category} :
      Category.read graph version = .ok category →
      Demands r (.dequeue kind graph version) (.dequeue ⟨kind, category⟩)
  | submit {request : TaskExchange.Request} : readSingle r = .ok request →
      Demands r .enqueueSingle (.submit request)

theorem demands_demandUnder (r : Http.Request) (route : Route) :
    Demands r route (demandUnder r route) := by
  cases route with
  | enqueueRegional =>
    simp only [demandUnder]
    split
    · exact .carryOut rfl (fun _ => rfl) rfl
    · exact .nothing
  | enqueueSingle =>
    simp only [demandUnder]
    split
    · next hread => exact .submit hread
    · exact .nothing
  | dequeue kind graph version =>
    simp only [demandUnder]
    split
    · next hread => exact .dequeue hread
    · exact .nothing
  | complete text =>
    simp only [demandUnder]
    split
    · exact .nothing
    · split
      · exact .carryOut rfl (fun _ => rfl) rfl
      · exact .nothing
  | acknowledge text =>
    simp only [demandUnder]
    split
    · exact .carryOut rfl (fun _ => rfl) rfl
    · exact .nothing
  | deleteJob job => exact .carryOut rfl (fun _ => rfl) rfl
  | _ => exact .nothing

/-- What a request demands it demands under its route. -/
theorem demands_of_demand {r : Http.Request} {d : Demand} (h : demand r = d) (hd : d ≠ .nothing) :
    ∃ route, route? r = some route ∧ Demands r route d := by
  rw [demand] at h
  split at h
  · next route hroute => exact ⟨route, hroute, h ▸ demands_demandUnder r route⟩
  · exact absurd h.symm hd

/-- Requests have operations carried out that need no waiting side and withdraw no request. -/
theorem side?_of_demand {r : Http.Request} {op : Operation} (h : demand r = .carryOut op) :
    op.side? = none ∧ (∀ s, op.opened? s = none) ∧ op.withdrawn? = none := by
  obtain ⟨route, -, hdemands⟩ := demands_of_demand h nofun
  cases hdemands with
  | carryOut hside hopened hwithdrawn => exact ⟨hside, hopened, hwithdrawn⟩

theorem held_of_heldAt {s : Service} {id : HeldId} {stage : Stage} {errand : Errand}
    (h : s.heldAt id stage = some errand) :
    ∃ deadline, s.held[id]? = some ⟨errand, deadline, stage⟩ := by
  obtain ⟨⟨errand', deadline, stage'⟩, hfilter, rfl⟩ := Option.map_eq_some_iff.mp h
  obtain ⟨hheld, hstage⟩ := Option.filter_eq_some_iff.mp hfilter
  obtain rfl : stage' = stage := by simpa using hstage
  exact ⟨deadline, hheld⟩

/-- A held request reads what has come to it, if something has, and then it is over. -/
theorem read?_eq (s : Service) (id : HeldId) (now : Moment) :
    s.read? id = (s.heldAt id .waiting).bind fun errand =>
      (errand.news? s.scheduler).map fun response =>
        (response, (s.withScheduler (s.scheduler.step now errand.reading).2).finish id errand) := by
  rw [read?, heldAt]
  cases s.held[id]? with
  | none => rfl
  | some h =>
    obtain ⟨errand, deadline, stage⟩ := h
    cases stage with
    | waiting =>
      cases errand with
      | work lane c =>
        have hread : (s.exchange.readPoll c).1 = s.scheduler.polls.held? c :=
          s.scheduler.polls.take_fst c
        simp only [Option.filter_some, decide_true, if_true, Option.map_some, Option.bind_some,
          Errand.news?, ← hread]
        rw [← Prod.eta (s.exchange.readPoll c)]
        cases (s.exchange.readPoll c).1 <;> rfl
      | result task c =>
        have hread : (s.exchange.readRequest c).1 = s.scheduler.requesters.held? c :=
          s.scheduler.requesters.take_fst c
        simp only [Option.filter_some, decide_true, if_true, Option.map_some, Option.bind_some,
          Errand.news?, ← hread]
        rw [← Prod.eta (s.exchange.readRequest c)]
        cases (s.exchange.readRequest c).1 <;> rfl
    | timedOut => cases errand <;> rfl
    | deserted => cases errand <;> rfl

/-- A held request whose timer has fired stops waiting, and then it is over. -/
theorem release?_eq (s : Service) (id : HeldId) (now : Moment) :
    s.release? id = (s.heldAt id .timedOut).map fun errand =>
      (errand.lastWord s.scheduler,
        (s.withScheduler (s.scheduler.step now errand.releasing).2).finish id errand) := by
  rw [release?, heldAt]
  cases s.held[id]? with
  | none => rfl
  | some h =>
    obtain ⟨errand, deadline, stage⟩ := h
    cases stage with
    | timedOut =>
      cases errand with
      | work lane c =>
        have hread : (s.exchange.releasePoll lane c).1 = s.scheduler.polls.held? c :=
          s.scheduler.polls.take_fst c
        simp only [Option.filter_some, decide_true, if_true, Option.map_some, Errand.lastWord,
          ← hread]
        rfl
      | result task c =>
        have hsame := (s.scheduler.withdraw_connections task).2.2
        have hread : (s.exchange.releaseRequest task c).1 = s.scheduler.requesters.held? c :=
          (Switchboard.take_fst _ c).trans (congrArg (·.held? c) hsame)
        simp only [Option.filter_some, decide_true, if_true, Option.map_some, Errand.lastWord,
          ← hread]
        rfl
    | waiting => cases errand <;> rfl
    | deserted => cases errand <;> rfl

/-- What a request left whose peer is gone is taken away, and then it is over. -/
theorem clear_eq (s : Service) (id : HeldId) (now : Moment) :
    s.clear now id = ((s.heldAt id .deserted).map fun errand =>
      (s.withScheduler (s.scheduler.step now errand.clearing).2).finish id errand).getD s := by
  rw [clear, heldAt]
  cases s.held[id]? with
  | none => rfl
  | some h =>
    obtain ⟨errand, deadline, stage⟩ := h
    cases stage <;> cases errand <;> rfl

end Service

/-- The operations that open a request's waiting side and have it wait there. -/
inductive Errand.Opening (s : Scheduler) : Errand → List Operation → Prop where
  | work (lane : Lane) :
      Opening s (.work lane ⟨s.polls.next⟩) [.openPoll, .poll lane ⟨s.polls.next⟩]
  | result (r : Request) :
      Opening s (.result s.nextId ⟨s.requesters.next⟩)
        [.openRequest, .submit r ⟨s.requesters.next⟩]

/-- The operations with which a held request can stop waiting. -/
def Errand.stops (errand : Errand) : List Operation :=
  [errand.reading, errand.releasing, errand.clearing]

namespace Session

/-- What a session has come to: its scheduler, what is held, the number of the next held request
and the waiting sides of callers. -/
structure Comes (x : Session) (s : Scheduler) (held : Std.ExtTreeMap HeldId Held) (next : HeldId)
    (callers : List Side) : Prop where
  scheduler : x.scheduler = s
  held : x.service.held = held
  next : x.service.nextHeld = next
  callers : x.callers = callers

/-- The scheduler after some operations at a moment. -/
def carriedOut (s : Scheduler) (now : Moment) (ops : List Operation) : Scheduler :=
  s.run (ops.map (now, ·))

/-- What an event does, with its operations and the held request that it ends, if it ends one. -/
inductive Moves (now : Moment) (x : Session) : List Operation → Option HeldId → Session → Prop where
  /-- Neither the scheduler nor what is held changes. -/
  | nothing {x' : Session} :
      Comes x' x.scheduler x.service.held x.service.nextHeld x.callers → Moves now x [] none x'
  /-- A held request comes to another stage. -/
  | stage (id : HeldId) (stage : Stage) :
      Moves now x [] none { x with service := x.service.setStage id stage }
  | call {op : Operation} : x.mayCall op = true → Moves now x [op] none (x.call now op)
  /-- A request has an operation carried out that needs no waiting side. -/
  | serve {op : Operation} : op.side? = none → (∀ s, op.opened? s = none) →
      Moves now x [op] none
        { x with service := x.service.withScheduler (x.scheduler.step now op).2 }
  /-- A worker is given tasks at once. -/
  | give {lane : Lane} {ops : List Operation} {x' : Session} :
      ops = [.openPoll, .poll lane ⟨x.scheduler.polls.next⟩, .leavePoll ⟨x.scheduler.polls.next⟩] →
      Comes x' (carriedOut x.scheduler now ops) x.service.held x.service.nextHeld x.callers →
      Moves now x ops none x'
  /-- From now on a request is held. -/
  | hold {errand : Errand} {ops : List Operation} {deadline : Nat} {x' : Session} :
      errand.Opening x.scheduler ops →
      Comes x' (carriedOut x.scheduler now ops)
        (x.service.held.insert x.service.nextHeld ⟨errand, deadline, .waiting⟩)
        ⟨x.service.nextHeld.value + 1⟩ x.callers →
      Moves now x ops none x'
  /-- A held request is over. -/
  | stop {id : HeldId} {h : Held} {op : Operation} {x' : Session} :
      x.service.held[id]? = some h → op ∈ h.errand.stops →
      Comes x' (carriedOut x.scheduler now [op, h.errand.leaving]) (x.service.held.erase id)
        x.service.nextHeld x.callers →
      Moves now x [op, h.errand.leaving] (some id) x'

variable {now : Moment} {x x' : Session} {a : Act} {id : HeldId}

/-- It may be that nothing happens. -/
theorem Moves.idle (now : Moment) (x : Session) : Moves now x [] none x :=
  .nothing ⟨rfl, rfl, rfl, rfl⟩

theorem observe_eq (s : Service) (now : Moment) (headers : Http.Headers) (category : Category) :
    ∃ catalog, s.observe now headers category =
      { s with exchange := { s.exchange with catalog } } := by
  rw [Service.observe]
  split
  · exact ⟨_, rfl⟩
  · exact ⟨_, rfl⟩

theorem moves_dequeue (x : Session) (now : Moment) (lane : Lane) (catalog : Catalog) :
    Moves now x (demanded x.scheduler now (.dequeue lane)) none { x with
      service := (Service.dequeue
        { x.service with exchange := { x.service.exchange with catalog } } now lane).2 } := by
  obtain ⟨outcome, s', hpoll⟩ : ∃ outcome s', (x.scheduler.step now .openPoll).2.poll now lane
      ⟨x.scheduler.polls.next⟩ = (outcome, s') := ⟨_, _, rfl⟩
  have hs' : carriedOut x.scheduler now [.openPoll, .poll lane ⟨x.scheduler.polls.next⟩] = s' :=
    congrArg Prod.snd hpoll
  simp only [demanded, Service.dequeue, Exchange.openPoll, Exchange.poll, Switchboard.connect,
    Scheduler.step, scheduler, Service.scheduler] at hpoll ⊢
  simp only [hpoll]
  cases outcome with
  | parked => exact .hold (.work lane) ⟨hs'.symm, rfl, rfl, rfl⟩
  | dispatched tasks =>
    subst hs'
    exact .give rfl ⟨rfl, rfl, rfl, rfl⟩

theorem moves_receive (x : Session) (now : Moment) (r : Http.Request) :
    Moves now x (demanded x.scheduler now (Service.demand r)) none (x.act now (.receive r)) := by
  rw [act, Service.receive_snd_eq]
  cases hdemand : Service.demand r with
  | nothing => exact .idle now x
  | carryOut op =>
    obtain ⟨hside, hopened, -⟩ := Service.side?_of_demand hdemand
    exact .serve hside hopened
  | submit request => exact .hold (.result request) ⟨rfl, rfl, rfl, rfl⟩
  | dequeue lane =>
    obtain ⟨catalog, hcatalog⟩ := observe_eq x.service now r.headers lane.category
    simp only [Service.meet, hcatalog]
    exact moves_dequeue x now lane catalog

/-- A held request is over when it has stopped waiting and its waiting side has left. -/
theorem comes_finish (x : Session) (now : Moment) (id : HeldId) (errand : Errand)
    (op : Operation) :
    Comes { x with
      service := (x.service.withScheduler (x.scheduler.step now op).2).finish id errand }
      (carriedOut x.scheduler now [op, errand.leaving]) (x.service.held.erase id)
      x.service.nextHeld x.callers := by
  cases errand <;> exact ⟨rfl, rfl, rfl, rfl⟩

theorem moves_read (x : Session) (now : Moment) (id : HeldId) :
    Moves now x (concluding (x.stopping? (.read id))) ((x.stopping? (.read id)).map (·.1))
      (x.act now (.read id)) := by
  rw [act, stopping?, Service.read?_eq x.service id now, ← scheduler]
  cases hheld : x.service.heldAt id .waiting with
  | none => exact .idle now x
  | some errand =>
    obtain ⟨deadline, hheld⟩ := Service.held_of_heldAt hheld
    rw [Option.bind_some, Option.bind_some]
    cases errand.news? x.scheduler with
    | none => exact .idle now x
    | some response => exact .stop hheld (by simp [Errand.stops]) (comes_finish ..)

theorem moves_release (x : Session) (now : Moment) (id : HeldId) :
    Moves now x (concluding (x.stopping? (.release id))) ((x.stopping? (.release id)).map (·.1))
      (x.act now (.release id)) := by
  rw [act, stopping?, Service.release?_eq x.service id now]
  cases hheld : x.service.heldAt id .timedOut with
  | none => exact .idle now x
  | some errand =>
    obtain ⟨deadline, hheld⟩ := Service.held_of_heldAt hheld
    exact .stop hheld (by simp [Errand.stops]) (comes_finish ..)

theorem moves_clear (x : Session) (now : Moment) (id : HeldId) :
    Moves now x (concluding (x.stopping? (.clear id))) ((x.stopping? (.clear id)).map (·.1))
      (x.act now (.clear id)) := by
  rw [act, stopping?, Service.clear_eq]
  cases hheld : x.service.heldAt id .deserted with
  | none => exact .idle now x
  | some errand =>
    obtain ⟨deadline, hheld⟩ := Service.held_of_heldAt hheld
    exact .stop hheld (by simp [Errand.stops]) (comes_finish ..)

theorem moves_fire (x : Session) (now : Moment) (id : HeldId) :
    Moves now x [] none (x.act now (.fire id)) := by
  simp only [act, Service.fire]
  split
  · split
    · exact .stage id .timedOut
    · exact .idle now x
  · exact .idle now x

theorem moves_call (x : Session) (now : Moment) (op : Operation) :
    Moves now x (if x.mayCall op then [op] else []) none (x.act now (.call op)) := by
  rw [act]
  by_cases h : x.mayCall op
  · rw [if_pos h]
    exact .call h
  · rw [if_neg h, call, if_neg h]
    exact .idle now x

/-- Every event is one of the moves. -/
theorem Event.moves (e : Event) : Moves e.now e.before e.operations e.ended? e.after := by
  obtain ⟨x, now, a⟩ := e
  cases a with
  | receive r => exact moves_receive x now r
  | call op => exact moves_call x now op
  | read id => exact moves_read x now id
  | release id => exact moves_release x now id
  | clear id => exact moves_clear x now id
  | fire id => exact moves_fire x now id
  | desert id => exact .stage id .deserted
  | wait ms => exact .nothing ⟨rfl, rfl, rfl, rfl⟩

/-- A request that is held from now on has its waiting side opened, and waits there. -/
theorem Moves.opening {errand : Errand} {ops : List Operation} {stopped : Option HeldId}
    (hm : Moves now x ops stopped x')
    (hnone : x.service.held[id]? = none)
    (hafter : x'.service.held[id]?.map (·.errand) = some errand) :
    errand.Opening x.scheduler ops := by
  have hsame : x'.service.held[id]? = none → errand.Opening x.scheduler ops := fun h => by
    rw [h] at hafter
    cases hafter
  cases hm with
  | nothing hx' => exact hsame (hx'.held ▸ hnone)
  | stage i stage =>
    refine hsame ?_
    simp only [Service.setStage, Std.ExtTreeMap.getElem?_modify]
    split
    · next hi =>
      rw [Std.LawfulEqOrd.compare_eq_iff_eq] at hi
      rw [hi, hnone, Option.map_none]
    · exact hnone
  | call hmay =>
    rw [Session.call, if_pos hmay] at hsame
    exact hsame hnone
  | serve => exact hsame hnone
  | give _ hx' => exact hsame (hx'.held ▸ hnone)
  | hold hopening hx' =>
    rw [hx'.held, Std.ExtTreeMap.getElem?_insert] at hafter
    split at hafter
    · cases hafter
      exact hopening
    · rw [hnone] at hafter
      cases hafter
  | stop _ _ hx' =>
    refine hsame ?_
    rw [hx'.held, Std.ExtTreeMap.getElem?_erase]
    split
    · rfl
    · exact hnone

/-! ### How held requests end -/

/-- How a request that is held for an errand can end, and the operation with which it stops
waiting. -/
inductive Ends (s : Scheduler) (errand : Errand) : Ending → Operation → Prop where
  | read {response : Http.Response} :
      errand.news? s = some response → Ends s errand (.answered response) errand.reading
  | release : Ends s errand (.answered (errand.lastWord s)) errand.releasing
  | clear : Ends s errand (errand.left s) errand.clearing

/-- A held request that ends does so in one of these ways. -/
theorem Event.ends {e : Event} {ending : Ending} (h : e.ending? id = some ending) :
    ∃ held op, e.before.service.held[id]? = some held ∧
      e.before.stopping? e.act = some (id, held.errand, op) ∧
      e.operations = [op, held.errand.leaving] ∧
      Ends e.before.scheduler held.errand ending op := by
  obtain ⟨x, now, a⟩ := e
  cases a with
  | read i =>
    obtain ⟨rfl, h⟩ := Option.ite_none_right_eq_some.mp h
    rw [Service.read?_eq x.service i now, ← scheduler] at h
    obtain ⟨⟨_, _⟩, hread, rfl⟩ := Option.map_eq_some_iff.mp h
    obtain ⟨errand, hheld, hread⟩ := Option.bind_eq_some_iff.mp hread
    obtain ⟨response, hnews, hread⟩ := Option.map_eq_some_iff.mp hread
    cases hread
    obtain ⟨deadline, hid⟩ := Service.held_of_heldAt hheld
    have hstop : x.stopping? (.read i) = some (i, errand, errand.reading) := by
      simp [stopping?, hheld, hnews]
    exact ⟨_, _, hid, hstop, by simp [operations, hstop, concluding], .read hnews⟩
  | release i =>
    obtain ⟨rfl, h⟩ := Option.ite_none_right_eq_some.mp h
    rw [Service.release?_eq x.service i now, ← scheduler, Option.map_map] at h
    obtain ⟨errand, hheld, rfl⟩ := Option.map_eq_some_iff.mp h
    obtain ⟨deadline, hid⟩ := Service.held_of_heldAt hheld
    have hstop : x.stopping? (.release i) = some (i, errand, errand.releasing) := by
      simp [stopping?, hheld]
    exact ⟨_, _, hid, hstop, by simp [operations, hstop, concluding], .release⟩
  | clear i =>
    obtain ⟨rfl, h⟩ := Option.ite_none_right_eq_some.mp h
    obtain ⟨errand, hheld, rfl⟩ := Option.map_eq_some_iff.mp h
    obtain ⟨deadline, hid⟩ := Service.held_of_heldAt hheld
    have hstop : x.stopping? (.clear i) = some (i, errand, errand.clearing) := by
      simp [stopping?, hheld]
    exact ⟨_, _, hid, hstop, by simp [operations, hstop, concluding], .clear⟩
  | _ => cases h

theorem Event.ended?_of_ending? {e : Event} {ending : Ending} (h : e.ending? id = some ending) :
    e.ended? = some id := by
  obtain ⟨held, op, -, hstop, -, -⟩ := Event.ends h
  rw [ended?, hstop, Option.map_some]

/-- A held request that is over has ended. -/
theorem Event.exists_ending {e : Event} (h : e.ended? = some id) :
    ∃ ending, e.ending? id = some ending := by
  obtain ⟨x, now, a⟩ := e
  obtain ⟨stop, hstop, rfl⟩ := Option.map_eq_some_iff.mp h
  cases a with
  | read i =>
    obtain ⟨errand, hheld, hread⟩ := Option.bind_eq_some_iff.mp hstop
    obtain ⟨response, hnews, rfl⟩ := Option.map_eq_some_iff.mp hread
    refine ⟨.answered response, (if_pos rfl).trans ?_⟩
    rw [Service.read?_eq x.service i now, hheld, Option.bind_some, ← scheduler, hnews]
    rfl
  | release i =>
    obtain ⟨errand, hheld, rfl⟩ := Option.map_eq_some_iff.mp hstop
    refine ⟨.answered (errand.lastWord x.scheduler), (if_pos rfl).trans ?_⟩
    rw [Service.release?_eq x.service i now, hheld]
    rfl
  | clear i =>
    obtain ⟨errand, hheld, rfl⟩ := Option.map_eq_some_iff.mp hstop
    exact ⟨errand.left x.scheduler, (if_pos rfl).trans (by rw [hheld, Option.map_some])⟩
  | _ => cases hstop

end Session

end TaskExchange
