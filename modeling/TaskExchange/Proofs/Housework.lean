import TaskExchange.Proofs.Tenure

/-!
Housework: what the events of a session do while callers keep to the work of the house, which is to
accept batches, to take completions, to give tasks out again and to delete jobs.  Main statements:
such an event does one of a few things (`Event.deeds`); by it someone is registered with the
scheduler only if a request begins to be held (`Event.opening_of_registers`), and a request is
withdrawn only if it ends (`Event.ended_of_withdrawn`).
-/

namespace TaskExchange

open Scheduler (Operation)

namespace Errand

/-- An event of the scheduler by which someone is registered. -/
inductive RegistersAt (d : Scheduler.Event) : Errand → Prop where
  | work {lane : Lane} {c : ConnectionId} :
      d.op = .poll lane c → d.outcome = .polled .parked → RegistersAt d (.work lane c)
  | result {r : Request} {c : ConnectionId} :
      d.op = .submit r c → RegistersAt d (.result d.before.nextId c)

/-- Who stops waiting withdraws no request but its own. -/
theorem result_of_withdrawn {errand : Errand} {op stop : Operation} {task : TaskId}
    (hstops : stop ∈ errand.stops) (hop : op ∈ [stop, errand.leaving])
    (htask : op.withdrawn? = some task) : ∃ c, errand = .result task c := by
  simp only [List.mem_cons, List.not_mem_nil, or_false] at hop
  cases errand with
  | work lane c =>
    simp only [stops, List.mem_cons, List.not_mem_nil, or_false] at hstops
    rcases hop with rfl | rfl
    · rcases hstops with rfl | rfl | rfl <;> cases htask
    · cases htask
  | result task' c =>
    simp only [stops, List.mem_cons, List.not_mem_nil, or_false] at hstops
    rcases hop with rfl | rfl
    · rcases hstops with rfl | rfl | rfl <;> cases htask <;> exact ⟨c, rfl⟩
    · cases htask

theorem ne_open_of_mem_stops {errand : Errand} {op : Operation} (h : op ∈ errand.stops) :
    op ≠ .openPoll ∧ op ≠ .openRequest := by
  cases errand <;> simp [stops, reading, releasing, clearing] at h <;>
    rcases h with rfl | rfl | rfl <;> simp

theorem RegistersAt.side?_ne {d : Scheduler.Event} {errand : Errand} (h : errand.RegistersAt d) :
    d.op.side? ≠ none := by
  cases h with
  | work hop => simp [hop, Operation.side?]
  | result hop => simp [hop, Operation.side?]

/-- Nobody is registered by an operation of one who stops waiting. -/
theorem RegistersAt.ne_stop {d : Scheduler.Event} {errand other : Errand} {op : Operation}
    (h : errand.RegistersAt d) (hstops : op ∈ other.stops) :
    ¬ (d.op = op ∨ d.op = other.leaving) := by
  rintro (rfl | hleaving)
  · cases h with
    | work hop => cases other <;> simp [hop, stops, reading, releasing, clearing] at hstops
    | result hop => cases other <;> simp [hop, stops, reading, releasing, clearing] at hstops
  · cases h with
    | work hop => cases other <;> simp [hop, leaving] at hleaving
    | result hop => cases other <;> simp [hop, leaving] at hleaving

end Errand

namespace Session

/-- Holds unless a caller waits itself or withdraws a request: the work of the house is to accept
batches, to take completions, to give tasks out again and to delete jobs. -/
def Act.OfHouse : Act → Prop
  | .call op => op.side? = none ∧ op.withdrawn? = none
  | _ => True

instance : DecidablePred Act.OfHouse
  | .call op => inferInstanceAs (Decidable (op.side? = none ∧ op.withdrawn? = none))
  | .receive _ | .read _ | .fire _ | .release _ | .desert _ | .clear _ | .wait _ => .isTrue trivial

/-- What a request is held for, if it is held. -/
def errandOf? (x : Session) (id : HeldId) : Option Errand := x.service.held[id]?.map (·.errand)

variable {acts : List (Moment × Act)} {now : Moment} {x x' : Session} {e : Event}
  {d : Scheduler.Event} {id : HeldId} {errand : Errand} {ops : List Operation}
  {stopped : Option HeldId} {lane : Lane} {task : TaskId} {c : ConnectionId}

/-- The operations of an event of the house, and the held request that it ends, if it ends one. -/
inductive Deeds (now : Moment) (x : Session) : List Operation → Option HeldId → Prop where
  | nothing : Deeds now x [] none
  | one {op : Operation} : op.side? = none → op.withdrawn? = none → Deeds now x [op] none
  | give {lane : Lane} {tasks : List Task} :
      ((x.scheduler.step now .openPoll).2.poll now lane ⟨x.scheduler.polls.next⟩).1 =
        .dispatched tasks →
      Deeds now x [.openPoll, .poll lane ⟨x.scheduler.polls.next⟩,
        .leavePoll ⟨x.scheduler.polls.next⟩] none
  | park {lane : Lane} :
      ((x.scheduler.step now .openPoll).2.poll now lane ⟨x.scheduler.polls.next⟩).1 = .parked →
      Deeds now x [.openPoll, .poll lane ⟨x.scheduler.polls.next⟩] none
  | submit {r : Request} :
      Deeds now x [.openRequest, .submit r ⟨x.scheduler.requesters.next⟩] none
  | stop {id : HeldId} {errand : Errand} {op : Operation} :
      x.errandOf? id = some errand → op ∈ errand.stops →
      Deeds now x [op, errand.leaving] (some id)

/-- A held request that stops waiting does so with an operation of its own. -/
theorem stops_of_stopping? {a : Act} {op : Operation} (h : x.stopping? a = some (id, errand, op)) :
    x.errandOf? id = some errand ∧ op ∈ errand.stops := by
  have hheld : ∀ {i stage}, x.service.heldAt i stage = some errand →
      x.errandOf? i = some errand := by
    intro i stage h
    obtain ⟨deadline, hid⟩ := Service.held_of_heldAt h
    rw [errandOf?, hid, Option.map_some]
  cases a with
  | read i =>
    obtain ⟨errand', hat, h⟩ := Option.bind_eq_some_iff.mp h
    obtain ⟨response, -, h⟩ := Option.map_eq_some_iff.mp h
    cases h
    exact ⟨hheld hat, by simp [Errand.stops]⟩
  | release i =>
    obtain ⟨errand', hat, h⟩ := Option.map_eq_some_iff.mp h
    cases h
    exact ⟨hheld hat, by simp [Errand.stops]⟩
  | clear i =>
    obtain ⟨errand', hat, h⟩ := Option.map_eq_some_iff.mp h
    cases h
    exact ⟨hheld hat, by simp [Errand.stops]⟩
  | _ => cases h

theorem Event.deeds (e : Event) (h : e.act.OfHouse) :
    Deeds e.now e.before e.operations e.ended? := by
  obtain ⟨x, now, a⟩ := e
  have hstop : Deeds now x (concluding (x.stopping? a)) ((x.stopping? a).map (·.1)) := by
    cases hstopping : x.stopping? a with
    | none => exact .nothing
    | some stop =>
      obtain ⟨hid, hstops⟩ := stops_of_stopping? hstopping
      exact .stop hid hstops
  cases a with
  | receive r =>
    change Deeds now x (demanded x.scheduler now (Service.demand r)) none
    cases hdemand : Service.demand r with
    | nothing => exact .nothing
    | carryOut op =>
      obtain ⟨hside, -, hwithdrawn⟩ := Service.side?_of_demand hdemand
      exact .one hside hwithdrawn
    | dequeue lane =>
      rw [demanded]
      split
      · next hparked => exact .park hparked
      · next hgiven => exact .give hgiven
    | submit request => exact .submit
  | call op =>
    change Deeds now x (if x.mayCall op then [op] else []) none
    split
    · exact .one h.1 h.2
    · exact .nothing
  | _ => exact hstop

/-- An event of the house that registers someone opens a waiting side for this errand. -/
theorem Event.opening_of_registers (h : e.act.OfHouse) (hd : d ∈ e.calls)
    (hregisters : errand.RegistersAt d) : errand.Opening e.before.scheduler e.operations := by
  have hdeeds := e.deeds h
  rw [calls] at hd
  have hmem := mem_of_mem_trace hd
  generalize e.operations = ops at *
  generalize e.ended? = stopped at *
  cases hdeeds with
  | nothing => cases hmem
  | one hside =>
    rw [← List.mem_singleton.mp hmem] at hside
    exact absurd hside hregisters.side?_ne
  | give hgiven =>
    simp only [List.map_cons, List.map_nil, Scheduler.trace, List.mem_cons, List.not_mem_nil,
      or_false] at hd
    rcases hd with rfl | rfl | rfl
    · exact absurd rfl hregisters.side?_ne
    · cases hregisters with
      | work _ hparked =>
        have hdispatched := congrArg Scheduler.Outcome.polled hgiven
        cases hparked.symm.trans hdispatched
      | result hop => cases hop
    · cases hregisters with
      | work hop => cases hop
      | result hop => cases hop
  | park =>
    simp only [List.map_cons, List.map_nil, Scheduler.trace, List.mem_cons, List.not_mem_nil,
      or_false] at hd
    rcases hd with rfl | rfl
    · exact absurd rfl hregisters.side?_ne
    · cases hregisters with
      | work hop =>
        cases hop
        exact .work _
      | result hop => cases hop
  | submit =>
    simp only [List.map_cons, List.map_nil, Scheduler.trace, List.mem_cons, List.not_mem_nil,
      or_false] at hd
    rcases hd with rfl | rfl
    · exact absurd rfl hregisters.side?_ne
    · cases hregisters with
      | work hop => cases hop
      | result hop =>
        cases hop
        exact .result _
  | stop _ hstops =>
    simp only [List.mem_cons, List.not_mem_nil, or_false] at hmem
    exact absurd hmem (hregisters.ne_stop hstops)

/-- An event that opens a waiting side for an errand, and keeps it, holds a request for it. -/
theorem Moves.errand_of_opening (hm : Moves now x ops stopped x')
    (hopening : errand.Opening x.scheduler ops) :
    x'.errandOf? x.service.nextHeld = some errand := by
  cases hm with
  | nothing => cases hopening
  | stage => cases hopening
  | call => cases hopening
  | serve => cases hopening
  | give hops =>
    subst hops
    cases hopening
  | hold hopening' hx' =>
    rw [errandOf?, hx'.held, Std.ExtTreeMap.getElem?_insert_self, Option.map_some]
    cases hopening with
    | work => cases hopening'; rfl
    | result => cases hopening'; rfl
  | @stop _ h op _ _ hstops =>
    generalize h.errand.leaving = op' at hopening
    cases hopening with
    | work => exact absurd rfl (Errand.ne_open_of_mem_stops hstops).1
    | result => exact absurd rfl (Errand.ne_open_of_mem_stops hstops).2

theorem Event.begins_of_opening (hx : Housed e.before)
    (hopening : errand.Opening e.before.scheduler e.operations) :
    e.Begins e.before.service.nextHeld errand :=
  ⟨hx.held_nextHeld, e.moves.errand_of_opening hopening⟩

/-- What is held after an event was held before, or it has just begun to be. -/
theorem Event.errand_cases (hx : Housed e.before) (h : e.after.errandOf? id = some errand) :
    e.before.errandOf? id = some errand ∨
      (id = e.before.service.nextHeld ∧ errand.Opening e.before.scheduler e.operations) := by
  obtain ⟨held, hheld, rfl⟩ := Option.map_eq_some_iff.mp h
  rcases e.moves.held hx.sound hheld with ⟨held', hheld', herrand⟩ | ⟨rfl, -⟩
  · exact Or.inl (by rw [errandOf?, hheld', Option.map_some, herrand])
  · exact Or.inr ⟨rfl, e.moves.opening hx.held_nextHeld h⟩

theorem mem_acts_of_mem_trace : ∀ {acts : List (Moment × Act)} {x : Session},
    e ∈ x.trace acts → (e.now, e.act) ∈ acts
  | [], _, he => by cases he
  | (now, a) :: acts, x, he => by
    rcases List.mem_cons.mp he with rfl | he
    · exact List.mem_cons_self ..
    · exact List.mem_cons_of_mem _ (mem_acts_of_mem_trace he)

/-- A request that is withdrawn is that of a held request that ends. -/
theorem Event.ended_of_withdrawn (h : e.act.OfHouse) {op : Operation} (hop : op ∈ e.operations)
    (htask : op.withdrawn? = some task) :
    ∃ id c, e.ended? = some id ∧ e.before.errandOf? id = some (.result task c) := by
  have hdeeds := e.deeds h
  generalize e.operations = ops at *
  generalize e.ended? = stopped at *
  cases hdeeds with
  | nothing => cases hop
  | one _ hwithdrawn =>
    rw [← List.mem_singleton.mp hop, htask] at hwithdrawn
    cases hwithdrawn
  | give =>
    simp only [List.mem_cons, List.not_mem_nil, or_false] at hop
    rcases hop with rfl | rfl | rfl <;> cases htask
  | park =>
    simp only [List.mem_cons, List.not_mem_nil, or_false] at hop
    rcases hop with rfl | rfl <;> cases htask
  | submit =>
    simp only [List.mem_cons, List.not_mem_nil, or_false] at hop
    rcases hop with rfl | rfl <;> cases htask
  | @stop id errand op' hid hstops =>
    obtain ⟨c, rfl⟩ := errand.result_of_withdrawn hstops hop htask
    exact ⟨id, c, rfl, hid⟩

/-- A worker waits on the connection on which it polled if there was nothing for it. -/
theorem Deeds.parked (h : Deeds now x ops stopped) (hops : ops = [.openPoll, .poll lane c]) :
    ((x.scheduler.step now .openPoll).2.poll now lane c).1 = .parked := by
  cases h with
  | nothing => cases hops
  | one => cases hops
  | give => cases hops
  | park hparked =>
    cases hops
    exact hparked
  | submit => cases hops
  | stop _ hstops => exact absurd (List.cons.inj hops).1 (Errand.ne_open_of_mem_stops hstops).1

end Session

end TaskExchange
