import TaskExchange.Proofs.Reception
import TaskExchange.Proofs.Result
import TaskExchange.Proofs.Tenure

/-!
Answers: what becomes of a request that is held for the result of its task.  Main statement:
`answers_run`.  A result is accepted of each task at most once and is with the requester of this
task, whoever carries out operations (`Results`); whoever submits a single task is held; and a
request that is held is answered with the bytes of the result of its task if that has come before
its end, be it after its timer fired, and is told that none came in time otherwise.
-/

namespace TaskExchange.Session

open Scheduler (Operation unread)

/-- What becomes of a request that is held for the result of a task, from an event on and in the
session that is reached. -/
structure Answer (id : HeldId) (task : TaskId) (c : ConnectionId) (e : Event)
    (future : List Event) (last : Session) : Prop where
  /-- It was accepted as this task, and its result comes on a connection of its own. -/
  submitted : task = e.before.scheduler.nextId ∧
    ∃ r, e.operations = [.openRequest, .submit r c]
  /-- It ends once at most. -/
  once : (endings id future).length ≤ 1
  /-- Until then it holds the result of its task if that was delivered. -/
  holds : endings id future = [] → ∀ b, last.scheduler.requesters.held? c = some b ↔
    ∃ d ∈ history future, d.Delivers task b
  /-- Once it was delivered, a step of its own ends it, whatever its stage. -/
  next : endings id future = [] → (∃ d ∈ history future, ∃ b, d.Delivers task b) → ∀ now,
    ∃ a, (a = .read id ∨ a = .release id ∨ a = .clear id) ∧
      ∃ ending, (⟨last, now, a⟩ : Event).ending? id = some ending
  /-- The bytes of a result that was delivered before its end are in its response, as it is sent. -/
  result : ∀ mid y rest, future = mid ++ y :: rest → ∀ response,
    y.ending? id = some (.answered response) → ∀ d ∈ history mid, ∀ b, d.Delivers task b →
      response.completed.status = 200 ∧ response.completed.body = b
  /-- It is told that none came in time only if none was. -/
  timeout : ∀ mid y rest, future = mid ++ y :: rest → ∀ response,
    y.ending? id = some (.answered response) → (∀ d ∈ history mid, ∀ b, ¬ d.Delivers task b) →
      response = Http.Fault.timeout.response ∧ response.completed.status = 504
  /-- From its end on, results of its task are refused. -/
  closed : ∀ mid y rest, future = mid ++ y :: rest → (∃ ending, y.ending? id = some ending) →
    ∀ d ∈ history rest, ∀ b, d.op = .complete task b →
      d.outcome = .completed (.error (.taskNotFound task))

/-- Every request that is held for a result is held from an event on, and has its answer, in a
session with these events. -/
structure Answers (trace : List Event) (last : Session) : Prop where
  begun : ∀ id h, last.service.held[id]? = some h → ∃ e ∈ trace, e.Begins id h.errand
  /-- A request that submits a task is told nothing, and is held for the result of this task. -/
  submitted : ∀ e ∈ trace, ∀ r, e.act = .receive r → ∀ d ∈ e.calls, ∀ q c, d.op = .submit q c →
    ∃ id, (e.before.service.receive e.now r).1 = .held id ∧ e.Begins id (.result d.before.nextId c)
  each : ∀ past e future, trace = past ++ e :: future → ∀ id task c,
    e.Begins id (.result task c) → Answer id task c e future last

variable {settings : Settings} {acts : List (Moment × Act)} {x : Session} {e : Event} {id : HeldId}
  {task : TaskId} {c : ConnectionId} {held : Option ByteArray} {ending : Ending} {b : ByteArray}

/-! ### How a request begins to wait -/

/-- On a connection that was never opened nobody awaits a result. -/
theorem unheard_run (hx : (new settings).run acts = x)
    (hnew : ¬ (Side.request c).Known x.scheduler) : Scheduler.Unheard x.scheduler c := by
  subst hx
  obtain ⟨steps, htrace, hrun⟩ := history_run (new settings) acts
  have hops : ∀ d ∈ (new settings).scheduler.trace steps, ∀ r, d.op ≠ .submit r c := by
    intro d hd r hop
    exact hnew (used_run settings acts d (htrace ▸ hd) (.request c) (hop ▸ rfl))
  rw [← hrun]
  exact (Scheduler.Unheard.new settings.limits c).run (.new settings.limits) hops

/-- A request begins to wait for the result of its own task. -/
theorem Event.Begins.heard (hb : e.Begins id (.result task c))
    (hx : (new settings).run acts = e.before) :
    (task = e.before.scheduler.nextId ∧ ∃ r, e.operations = [.openRequest, .submit r c]) ∧
      Scheduler.Heard e.after.scheduler task c none := by
  have hhoused : Housed e.before := hx ▸ housed_run settings acts
  have hopening := e.moves.opening hb.1 hb.2
  have hunheard := unheard_run hx (hopening.known hhoused.sound e.now).1
  obtain ⟨r, hops, rfl⟩ : ∃ r, e.operations = [.openRequest, .submit r c] ∧
      task = e.before.scheduler.nextId := by
    generalize e.operations = ops at hopening
    cases hopening
    exact ⟨_, rfl, rfl⟩
  let opened : Scheduler.Event := ⟨e.before.scheduler, e.now, .openRequest⟩
  let submitted : Scheduler.Event := ⟨opened.after, e.now, .submit r c⟩
  have hopened : Scheduler.Unheard opened.after c :=
    hunheard.after (e := opened) hhoused.sound fun r hop => by cases hop
  refine ⟨⟨rfl, r, hops⟩, ?_⟩
  rw [e.moves.scheduler, hops]
  exact hopened.submit (e := submitted) (opened.sound_after hhoused.sound) rfl

/-- Who spares the waiting side of a requester awaits no result there and does not read. -/
theorem Spares.keeps {log : List Scheduler.Event} (h : Spares (.request c) log) :
    ∀ d ∈ log, (∀ r, d.op ≠ .submit r c) ∧ ¬ d.Empties c := by
  intro d hd
  refine ⟨fun r hop => h d hd (hop ▸ rfl), ?_⟩
  rintro ((hop | ⟨i, hop⟩) | hop)
  · exact h d hd (hop ▸ rfl)
  · exact h d hd (hop ▸ rfl)
  · exact h d hd (hop ▸ rfl)

/-- A request that is held goes on waiting, and holds the result of its task once that is
delivered. -/
theorem heard_run (hs : Scheduler.Sound x.scheduler ∅) (h : Scheduler.Heard x.scheduler task c none)
    (hspares : Spares (.request c) (history (x.trace acts))) :
    Scheduler.Heard (x.run acts).scheduler task c (unread task c (history (x.trace acts))) ∧
      ∀ b, unread task c (history (x.trace acts)) = some b ↔
        ∃ d ∈ history (x.trace acts), d.Delivers task b := by
  obtain ⟨steps, htrace, hrun⟩ := history_run x acts
  have hkeeps := hspares.keeps
  rw [← htrace] at hkeeps ⊢
  rw [← hrun]
  exact ⟨h.run hs fun d hd => (hkeeps d hd).1, fun b => h.unread_iff hs hkeeps⟩

/-! ### How it ends -/

/-- A request for a result is answered with what it holds. -/
theorem Ends.response {s : Scheduler} {op : Operation} {response : Http.Response}
    (hheld : s.requesters.held? c = held)
    (hends : Ends s (.result task c) (.answered response) op) :
    response = Service.resultResponse held := by
  generalize hending : Ending.answered response = ending at hends
  cases hends with
  | read hnews =>
    cases hending
    rw [Errand.news?, hheld] at hnews
    obtain ⟨b, rfl, rfl⟩ := Option.map_eq_some_iff.mp hnews
    rfl
  | release =>
    cases hending
    rw [Errand.lastWord, hheld]
  | clear => cases hending

/-- When a request for a result has ended, that result is awaited no more. -/
theorem Holds.forgets (h : Holds e.before id (.result task c))
    (hheard : Scheduler.Heard e.before.scheduler task c held)
    (hend : e.ending? id = some ending) :
    task.value < e.after.scheduler.nextId.value ∧ task ∉ e.after.scheduler.producers := by
  obtain ⟨op, hops, hends⟩ := h.ends hend
  let stop : Scheduler.Event := ⟨e.before.scheduler, e.now, op⟩
  let leave : Scheduler.Event := ⟨stop.after, e.now, .leaveRequest c⟩
  have hs : Scheduler.Sound stop.before ∅ := h.housed.sound
  have hstop : task.value < stop.after.nextId.value ∧ task ∉ stop.after.producers := by
    have hcloses : stop.Closes task →
        task.value < stop.after.nextId.value ∧ task ∉ stop.after.producers := fun hcloses => by
      have hknown : task.value < stop.before.nextId.value := hheard.known
      have hnext := (stop.numbers hs).2
      exact ⟨by omega, Scheduler.Event.notMem_of_closes hs hcloses⟩
    cases hends with
    | read hnews =>
      -- It can read because its result was delivered, and with that its task was forgotten.
      have hsome : held ≠ none := by
        rintro rfl
        rw [Errand.news?, hheard.holds] at hnews
        cases hnews
      exact Scheduler.Event.forgotten_after hs hheard.known (hheard.gone hsome)
    | release => exact hcloses (Or.inr (Or.inr ⟨c, rfl⟩))
    | clear => exact hcloses (Or.inl rfl)
  rw [e.moves.scheduler, hops]
  exact Scheduler.Event.forgotten_after (e := leave) (stop.sound_after hs) hstop.1 hstop.2

/-- Results of a task that is not awaited any more are refused. -/
theorem refused_run (hs : Scheduler.Sound x.scheduler ∅)
    (hknown : task.value < x.scheduler.nextId.value) (hgone : task ∉ x.scheduler.producers)
    {d : Scheduler.Event} (hd : d ∈ history (x.trace acts)) (hop : d.op = .complete task b) :
    d.outcome = .completed (.error (.taskNotFound task)) := by
  obtain ⟨steps, htrace, -⟩ := history_run x acts
  exact Scheduler.refused_trace hs hknown hgone (htrace ▸ hd) hop

/-! ### All requests -/

/-- The event that ends a request for a result finds it with what was delivered, and results are
refused from then on. -/
theorem Holds.conclude (h : Holds x id (.result task c))
    (hheard : Scheduler.Heard x.scheduler task c none) {mid rest : List Event} {y : Event}
    (hsplit : x.trace acts = mid ++ y :: rest) (hend : y.ending? id = some ending) :
    (∀ response, ending = .answered response →
        response = Service.resultResponse (unread task c (history mid))) ∧
      (∀ b, unread task c (history mid) = some b ↔ ∃ d ∈ history mid, d.Delivers task b) ∧
      ∀ d ∈ history rest, ∀ b, d.op = .complete task b →
        d.outcome = .completed (.error (.taskNotFound task)) := by
  obtain ⟨-, hholds, hspares, -, -⟩ := h.split hsplit hend
  obtain ⟨us, vs, rfl, hbefore, rfl, -⟩ := trace_split hsplit
  obtain ⟨hmid, hiff⟩ := heard_run h.housed.sound hheard hspares
  rw [hbefore] at hmid
  obtain ⟨op, -, hends⟩ := hholds.ends hend
  obtain ⟨hknown, hgone⟩ := hholds.forgets hmid hend
  refine ⟨?_, hiff, fun d hd b hop => ?_⟩
  · rintro response rfl
    exact hends.response hmid.holds
  · exact refused_run hholds.housed.after.sound hknown hgone hd hop

theorem answers_trace (settings : Settings) (acts : List (Moment × Act)) :
    Answers ((new settings).trace acts) ((new settings).run acts) := by
  refine ⟨begun_run settings acts, fun e he r hact d hd q c hop => ?_,
    fun past e future hsplit id task c hb => ?_⟩
  · exact ⟨_, Event.held_of_registers (housed_of_mem he) hact hd (.result hop)⟩
  obtain ⟨xs, ys, rfl, hbefore, rfl, hlast⟩ := trace_split hsplit
  rw [← hlast]
  have hholds := hb.holds (hbefore ▸ housed_run settings xs)
  obtain ⟨hsubmitted, hheard⟩ := hb.heard hbefore
  have hwaits : endings id (e.after.trace ys) = [] → Holds (e.after.run ys) id (.result task c) ∧
      Scheduler.Heard (e.after.run ys).scheduler task c
        (unread task c (history (e.after.trace ys))) ∧
      ∀ b, unread task c (history (e.after.trace ys)) = some b ↔
        ∃ d ∈ history (e.after.trace ys), d.Delivers task b := by
    intro hnone
    rcases hholds.run ys with ⟨-, hlast, hspares⟩ | ⟨ending, hone, -⟩
    · exact ⟨hlast, heard_run hholds.housed.sound hheard hspares⟩
    · rw [hnone] at hone
      cases hone
  refine ⟨hsubmitted, ?_, ?_, ?_, ?_, ?_, ?_⟩
  · rcases hholds.run ys with ⟨hnone, -⟩ | ⟨ending, hone, -⟩
    · simp [hnone]
    · simp [hone]
  · intro hnone b
    obtain ⟨-, hlast, hiff⟩ := hwaits hnone
    rw [hlast.holds, hiff]
  · rintro hnone ⟨d, hd, b, hdelivers⟩ now
    obtain ⟨hlast, hheard, hiff⟩ := hwaits hnone
    refine hlast.next now ⟨.result b, ?_⟩
    rw [Errand.news?, hheard.holds, (hiff b).mpr ⟨d, hd, hdelivers⟩, Option.map_some]
  · intro mid y rest hmid response hend d hd b hdelivers
    obtain ⟨hresponse, hiff, -⟩ := hholds.conclude hheard hmid hend
    rw [hresponse response rfl, (hiff b).mpr ⟨d, hd, hdelivers⟩]
    exact ⟨Http.Response.status_result b, Http.Response.body_result b⟩
  · intro mid y rest hmid response hend hnone
    obtain ⟨hresponse, -, -⟩ := hholds.conclude hheard hmid hend
    have htimeout : response = Http.Fault.timeout.response := by
      rw [hresponse response rfl, Scheduler.unread_of_none hnone]
      rfl
    exact ⟨htimeout, congrArg (·.completed.status) htimeout⟩
  · rintro mid y rest hmid ⟨ending, hend⟩
    exact (hholds.conclude hheard hmid hend).2.2

/-- Each request has one result at most, its requester finds it, and a request that is held is
answered with it. -/
theorem answers_run :
    (∀ limits steps, Scheduler.Results ((Scheduler.new limits).trace steps)
      ((Scheduler.new limits).run steps)) ∧
    ∀ settings acts, Answers ((new settings).trace acts) ((new settings).run acts) :=
  ⟨Scheduler.results_trace, answers_trace⟩

end TaskExchange.Session
