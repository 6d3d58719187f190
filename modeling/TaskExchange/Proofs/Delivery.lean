import TaskExchange.Proofs.Attendance
import TaskExchange.Proofs.Reception
import TaskExchange.Proofs.Tenure

/-!
Delivery: what becomes of the tasks that come to a request for work while it is held.  Main
statement: `deliveries_run`.  Every request for work that is given no task at once is held.
Whatever steps the requests take, and whatever else happens between them, such a request is given
tasks once at most, and these are in its response or, when its peer is gone, go back; it is told
that there are none only if none came; and once it is over no task comes to it.
-/

namespace TaskExchange.Session

open Scheduler (Operation handoversOf)

/-- What was given in these events to a worker that waited on a connection. -/
def given (c : ConnectionId) (events : List Event) : List Task :=
  handedTo c (handoversOf (history events))

/-- How a request for work ends to which these tasks were given while it was held. -/
inductive Fate : List Task → Ending → Prop where
  /-- They are in its response, as it is sent. -/
  | served {tasks : List Task} {response : Http.Response} : tasks ≠ [] →
    response.completed.Gives tasks → Fate tasks (.answered response)
  /-- Its peer is gone, and they go back. -/
  | returned {tasks : List Task} : tasks ≠ [] → Fate tasks (.abandoned (some tasks))
  /-- Its time is up, and nothing has come. -/
  | unserved {response : Http.Response} : response.completed.status = 204 →
    response.completed.body = .empty → Fate [] (.answered response)
  | left : Fate [] (.abandoned none)

/-- These tasks go back: each that is still in flight is given to another worker that waits, or
stands at the head of its line. -/
def GoBack (e : Event) (c : ConnectionId) (tasks : List Task) : Prop :=
  ∀ t ∈ tasks, t.id ∈ e.before.scheduler.inFlight →
    (∃ d u, d ≠ c ∧ ⟨u, some d⟩ ∈ handoversOf e.calls ∧ u.id = t.id) ∨
      ∃ u, e.after.scheduler.tasks[t.id]? = some u ∧ u.state = .queued ∧
        (e.after.scheduler.queues.line u.lane).head? = some t.id

/-- What becomes of a request for work that is held from an event on, in the events before, from
that one on, and in the session that is reached. -/
structure Delivery (id : HeldId) (c : ConnectionId) (lane : Lane) (past : List Event) (e : Event)
    (future : List Event) (last : Session) : Prop where
  /-- What was given on its connection came while it was held. -/
  fresh : given c (past ++ [e]) = []
  /-- It is given tasks once. -/
  once : (given c future).length ≤ 1
  /-- It ends once, and what it was given is there. -/
  fate : endings id future = [] ∨
    ∃ ending, endings id future = [ending] ∧ Fate (given c future) ending
  /-- Until then it is held, and what it was given is unread. -/
  held : endings id future = [] → last.scheduler.polls.held? c = Scheduler.came (given c future) ∧
    ∃ h, last.service.held[id]? = some h ∧ h.errand = .work lane c
  /-- Once it was given tasks, a step of its own ends it, whatever its stage. -/
  next : endings id future = [] → given c future ≠ [] → ∀ now,
    ∃ a, (a = .read id ∨ a = .release id ∨ a = .clear id) ∧
      ∃ ending, (⟨last, now, a⟩ : Event).ending? id = some ending
  /-- It is told that there is no content if nothing came, and only then. -/
  status : ∀ response, .answered response ∈ endings id future →
    (response.completed.status = 204 ↔ given c future = [])
  /-- From its end on, nothing is given to it, and it stands in no line. -/
  closed : ∀ mid y rest, future = mid ++ y :: rest → (∃ ending, y.ending? id = some ending) →
    given c (y :: rest) = [] ∧ last.service.held[id]? = none ∧
      ∀ other, c ∉ last.scheduler.pool.line other
  /-- What it has not read when its peer is gone goes back. -/
  back : ∀ mid y rest, future = mid ++ y :: rest → ∀ tasks,
    y.ending? id = some (.abandoned (some tasks)) → GoBack y c tasks

/-- Every request that is held for work is held from an event on, and what comes to it is neither
lost nor doubled, in a session with these events. -/
structure Deliveries (trace : List Event) (last : Session) : Prop where
  begun : ∀ id h, last.service.held[id]? = some h → ∃ e ∈ trace, e.Begins id h.errand
  /-- A request whose poll finds no task is told nothing, and is held from then on. -/
  parked : ∀ e ∈ trace, ∀ r, e.act = .receive r → ∀ d ∈ e.calls, ∀ lane c, d.op = .poll lane c →
    d.outcome = .polled .parked →
      ∃ id, (e.before.service.receive e.now r).1 = .held id ∧ e.Begins id (.work lane c)
  each : ∀ past e future, trace = past ++ e :: future → ∀ id lane c, e.Begins id (.work lane c) →
    Delivery id c lane past e future last

variable {settings : Settings} {acts : List (Moment × Act)} {x : Session} {e : Event} {id : HeldId}
  {lane : Lane} {c : ConnectionId} {tasks : List Task} {ending : Ending}

@[simp] theorem given_append (c : ConnectionId) (events more : List Event) :
    given c (events ++ more) = given c events ++ given c more := by
  simp [given]

theorem given_singleton (c : ConnectionId) (e : Event) :
    given c [e] = handedTo c (handoversOf e.calls) := by
  rw [given, history_singleton]

/-! ### How a request begins to wait -/

/-- A worker whose connection was never opened has been given nothing. -/
theorem absent_run (hx : (new settings).run acts = x) (hnew : ¬ (Side.poll c).Known x.scheduler) :
    given c ((new settings).trace acts) = [] ∧ ∀ lane, c ∉ x.scheduler.pool.line lane := by
  subst hx
  obtain ⟨steps, htrace, hrun⟩ := history_run (new settings) acts
  have hops : ∀ d ∈ (new settings).scheduler.trace steps, ∀ lane, d.op ≠ .poll lane c := by
    intro d hd lane hop
    exact hnew (used_run settings acts d (htrace ▸ hd) (.poll c) (hop ▸ rfl))
  have hsound : Scheduler.Sound (new settings).scheduler ∅ := .new settings.limits
  have hnobody : ∀ lane, c ∉ (new settings).scheduler.pool.line lane := fun lane => by
    simp [Session.scheduler, Session.new, Service.scheduler, Service.new, Exchange.new,
      Scheduler.new]
  rw [given, ← htrace, ← hrun]
  exact Scheduler.absent_trace hsound hops hnobody

/-- A request begins to wait on a connection that was never used. -/
theorem Event.Begins.attends (hb : e.Begins id (.work lane c))
    (hx : (new settings).run acts = e.before) :
    given c ((new settings).trace acts ++ [e]) = [] ∧
      Scheduler.Attends e.after.scheduler lane c [] := by
  have hhoused : Housed e.before := hx ▸ housed_run settings acts
  have hopening := e.moves.opening hb.1 hb.2
  obtain ⟨hpast, habsent⟩ := absent_run hx (hopening.known hhoused.sound e.now).1
  obtain ⟨hops, rfl⟩ : e.operations = [.openPoll, .poll lane c] ∧
      c = ⟨e.before.scheduler.polls.next⟩ := by
    generalize e.operations = ops at hopening
    cases hopening
    exact ⟨rfl, rfl⟩
  let opened : Scheduler.Event := ⟨e.before.scheduler, e.now, .openPoll⟩
  let polled : Scheduler.Event :=
    ⟨opened.after, e.now, .poll lane ⟨e.before.scheduler.polls.next⟩⟩
  have hopen : opened.after.polls.isOpen ⟨e.before.scheduler.polls.next⟩ = true := by
    simp [opened, Scheduler.Event.after, Scheduler.step, Switchboard.connect, Switchboard.isOpen]
  obtain ⟨hnothing, hattends⟩ := Scheduler.Event.attends (e := polled)
    (opened.sound_after hhoused.sound) rfl (Side.known_opened opened rfl).2 hopen habsent
  constructor
  · have hcalls : e.calls = [opened, polled] := by
      rw [Event.calls, hops]
      rfl
    have hnone : opened.handovers = [] := Scheduler.givenAgain_nil ..
    rw [given_append, hpast, given_singleton, hcalls, List.nil_append]
    simp [hnone, hnothing]
  · rw [e.moves.scheduler, hops]
    exact hattends

/-- A request that is held goes on waiting, and may be given a task. -/
theorem attends_run (hs : Scheduler.Sound x.scheduler ∅)
    (h : Scheduler.Attends x.scheduler lane c [])
    (hspares : Spares (.poll c) (history (x.trace acts))) :
    Scheduler.Attends (x.run acts).scheduler lane c (given c (x.trace acts)) := by
  obtain ⟨steps, htrace, hrun⟩ := history_run x acts
  rw [given, ← hrun, ← htrace]
  rw [← htrace] at hspares
  exact h.run hs hspares

/-! ### How it ends -/

/-- A request for work ends as it must, and with an operation after which it stands in no line. -/
theorem Fate.of_ends {s : Scheduler} {op : Operation}
    (h : Scheduler.Attends s lane c tasks) (hends : Ends s (.work lane c) ending op) :
    Fate tasks ending ∧
      (op = .releasePoll lane c ∨ op = .abandonPoll lane c ∨ op = .readPoll c ∧ tasks ≠ []) := by
  have hcame := h.held?
  cases hends with
  | read hnews =>
    rw [Errand.news?, hcame] at hnews
    cases tasks with
    | nil => cases hnews
    | cons t ts =>
      cases hnews
      exact ⟨.served (List.cons_ne_nil _ _) (Http.Response.gives_tasks _).completed,
        Or.inr (Or.inr ⟨rfl, List.cons_ne_nil _ _⟩)⟩
  | release =>
    refine ⟨?_, Or.inl rfl⟩
    rw [Errand.lastWord, hcame]
    cases tasks with
    | nil => exact .unserved Http.Response.status_noTasks Http.Response.body_noTasks
    | cons t ts => exact .served (List.cons_ne_nil _ _) (Http.Response.gives_tasks _).completed
  | clear =>
    refine ⟨?_, Or.inr (Or.inl rfl)⟩
    rw [Errand.left, hcame]
    cases tasks with
    | nil => exact .left
    | cons t ts => exact .returned (List.cons_ne_nil _ _)

/-- The event that ends a request for work gives it nothing, and it stands in no line
afterwards. -/
theorem Holds.closes (h : Holds e.before id (.work lane c))
    (hattends : Scheduler.Attends e.before.scheduler lane c tasks)
    (hend : e.ending? id = some ending) : Fate tasks ending ∧ given c [e] = [] ∧
      ∀ other, c ∉ e.after.scheduler.pool.line other := by
  obtain ⟨op, hops, hends⟩ := h.ends hend
  obtain ⟨hfate, hstops⟩ := Fate.of_ends hattends hends
  let d : Scheduler.Event := ⟨e.before.scheduler, e.now, op⟩
  obtain ⟨hnothing, habsent⟩ :=
    Scheduler.Attends.stop (e := d) hattends h.housed.sound hstops
  refine ⟨hfate, ?_, ?_⟩
  · have hcalls : e.calls = [d, ⟨d.after, e.now, .leavePoll c⟩] := by
      rw [Event.calls, hops]
      rfl
    have hnone : Scheduler.Event.handovers ⟨d.after, e.now, .leavePoll c⟩ = [] :=
      Scheduler.givenAgain_nil ..
    rw [given_singleton, hcalls]
    simp [hnothing, hnone]
  · rw [e.moves.scheduler, hops]
    exact habsent

/-- A request that is over is given nothing. -/
theorem Ended.absent_run (h : Ended x id (.poll c))
    (habsent : ∀ other, c ∉ x.scheduler.pool.line other) (acts : List (Moment × Act)) :
    given c (x.trace acts) = [] ∧ ∀ other, c ∉ (x.run acts).scheduler.pool.line other := by
  obtain ⟨-, -, hspares⟩ := h.run acts
  obtain ⟨steps, htrace, hrun⟩ := history_run x acts
  rw [given, ← hrun, ← htrace]
  rw [← htrace] at hspares
  exact Scheduler.absent_trace h.housed.sound
    (fun d hd lane hop => hspares d hd (hop ▸ rfl)) habsent

/-- What a request has not read whose peer is gone goes back. -/
theorem Holds.goBack (h : Holds e.before id (.work lane c))
    (hattends : Scheduler.Attends e.before.scheduler lane c tasks) {unread : List Task}
    (hend : e.ending? id = some (.abandoned (some unread))) : GoBack e c unread := by
  obtain ⟨op, hops, hends⟩ := h.ends hend
  generalize hending : Ending.abandoned (some unread) = ending at hends
  cases hends with
  | read => cases hending
  | release => cases hending
  | clear =>
    have hunread : e.before.scheduler.polls.held? c = some unread :=
      (Ending.abandoned.inj hending).symm
    rcases hattends.side with ⟨-, hopen⟩ | ⟨t, -, ht, -⟩
    · rw [Switchboard.held?_of_isOpen hopen] at hunread
      cases hunread
    · rw [ht] at hunread
      cases hunread
      let d : Scheduler.Event := ⟨e.before.scheduler, e.now, .abandonPoll lane c⟩
      intro u hu hflight
      obtain rfl := List.mem_singleton.mp hu
      have hrequeued : u.id ∈ d.requeued := by
        rw [Scheduler.Event.requeued, Scheduler.Event.listed_of_abandonPoll (e := d) rfl, ht]
        simpa using hflight
      have hback := Scheduler.Event.back_of_abandonPoll (e := d) h.housed.sound rfl hrequeued ht rfl
      rw [Event.calls, e.moves.scheduler, hops]
      refine hback.imp_left ?_
      rintro ⟨c', v, hne, hmem, hv⟩
      exact ⟨c', v, hne, List.mem_append_left _ hmem, hv⟩

/-- A response tells of no content if no tasks were given. -/
theorem Fate.status {response : Http.Response} (h : Fate tasks (.answered response)) :
    response.completed.status = 204 ↔ tasks = [] := by
  generalize hending : Ending.answered response = ending at h
  cases h with
  | served hne hgives =>
    cases hending
    rw [hgives.status]
    exact iff_of_false (by decide) hne
  | unserved hstatus =>
    cases hending
    exact iff_of_true hstatus rfl
  | returned => cases hending
  | left => cases hending

/-! ### All requests -/

/-- The event that ends a request for work finds it waiting, and nothing comes to it from then
on. -/
theorem Holds.finish (h : Holds x id (.work lane c))
    (hattends : Scheduler.Attends x.scheduler lane c []) {mid rest : List Event} {y : Event}
    (hsplit : x.trace acts = mid ++ y :: rest) (hend : y.ending? id = some ending) :
    Holds y.before id (.work lane c) ∧
      Scheduler.Attends y.before.scheduler lane c (given c mid) ∧ given c (y :: rest) = [] ∧
      ∀ other, c ∉ (x.run acts).scheduler.pool.line other := by
  obtain ⟨-, hholds, hspares, -, -⟩ := h.split hsplit hend
  obtain ⟨us, vs, rfl, hbefore, rfl, hlast⟩ := trace_split hsplit
  have hmid := attends_run h.housed.sound hattends hspares
  rw [hbefore] at hmid
  obtain ⟨-, hnothing, habsent⟩ := hholds.closes hmid hend
  obtain ⟨hrest, habsent'⟩ := (hholds.ended hend).absent_run habsent vs
  refine ⟨hholds, hmid, ?_, hlast ▸ habsent'⟩
  rw [← List.singleton_append, given_append, hnothing, hrest, List.append_nil]

/-- A request for work is given tasks once at most; it waits on, or it has ended as these say. -/
theorem Holds.fate (h : Holds x id (.work lane c))
    (hattends : Scheduler.Attends x.scheduler lane c []) (acts : List (Moment × Act)) :
    (given c (x.trace acts)).length ≤ 1 ∧
      ((endings id (x.trace acts) = [] ∧ Holds (x.run acts) id (.work lane c) ∧
          Scheduler.Attends (x.run acts).scheduler lane c (given c (x.trace acts))) ∨
        ∃ ending, endings id (x.trace acts) = [ending] ∧
          Fate (given c (x.trace acts)) ending) := by
  rcases h.run acts with ⟨hnone, hholds, hspares⟩ | ⟨ending, hone, -⟩
  · have hlast := attends_run h.housed.sound hattends hspares
    exact ⟨hlast.length_le, Or.inl ⟨hnone, hholds, hlast⟩⟩
  · obtain ⟨mid, y, rest, hsplit, hend⟩ :=
      exists_of_mem_endings (hone ▸ List.mem_singleton_self ending)
    obtain ⟨hholds, hmid, hnothing, -⟩ := h.finish hattends hsplit hend
    have hgiven : given c (x.trace acts) = given c mid := by
      rw [hsplit, given_append, hnothing, List.append_nil]
    rw [hgiven]
    exact ⟨hmid.length_le, Or.inr ⟨ending, hone, (hholds.closes hmid hend).1⟩⟩

/-- What comes to requests for work is neither lost nor doubled. -/
theorem deliveries_run (settings : Settings) (acts : List (Moment × Act)) :
    Deliveries ((new settings).trace acts) ((new settings).run acts) := by
  refine ⟨begun_run settings acts, fun e he r hact d hd lane c hop hparked => ?_,
    fun past e future hsplit id lane c hb => ?_⟩
  · exact ⟨_, Event.held_of_registers (housed_of_mem he) hact hd (.work hop hparked)⟩
  obtain ⟨xs, ys, rfl, hbefore, rfl, hlast⟩ := trace_split hsplit
  rw [← hlast]
  have hholds := hb.holds (hbefore ▸ housed_run settings xs)
  obtain ⟨hfresh, hattends⟩ := hb.attends hbefore
  obtain ⟨honce, hstate⟩ := hholds.fate hattends ys
  have hwaits := fun hnone => hstate.resolve_right fun ⟨ending, hone, _⟩ =>
    List.cons_ne_nil ending [] (hone.symm.trans hnone)
  refine ⟨hfresh, honce, hstate.imp_left And.left, ?_, ?_, ?_, ?_, ?_⟩
  · intro hnone
    obtain ⟨-, hholds, hattends⟩ := hwaits hnone
    exact ⟨hattends.held?, hholds.held⟩
  · intro hnone hgiven now
    obtain ⟨-, hholds, hattends⟩ := hwaits hnone
    refine hholds.next now ?_
    rw [Errand.news?, hattends.held?]
    cases hlist : given c (e.after.trace ys) with
    | nil => exact absurd hlist hgiven
    | cons t ts => exact ⟨_, rfl⟩
  · intro response hin
    rcases hstate with ⟨hnone, -⟩ | ⟨ending, hone, hfate⟩
    · rw [hnone] at hin
      cases hin
    · rw [hone] at hin
      obtain rfl := List.mem_singleton.mp hin
      exact hfate.status
  · rintro mid y rest hmid ⟨ending, hend⟩
    obtain ⟨-, -, hnothing, habsent⟩ := hholds.finish hattends hmid hend
    obtain ⟨-, -, -, hended, -⟩ := hholds.split hmid hend
    exact ⟨hnothing, hended.held, habsent⟩
  · intro mid y rest hmid unread hend
    obtain ⟨hbefore, hmid, -, -⟩ := hholds.finish hattends hmid hend
    exact hbefore.goBack hmid hend

end TaskExchange.Session
