import Mathlib.Data.Nat.Digits.Defs
import TaskExchange.Proofs.Departure
import TaskExchange.Proofs.Exposition
import TaskExchange.Proofs.Reception
import TaskExchange.Proofs.Refused

/-!
Addressing: how the text at the end of a path names a task.  The text is digits in base ten, with
zeros or a plus sign in front or without, and what counts is the number that they denote, as long as
it fits a 64-bit word.  Main statements: the texts that are read as task numbers are these and no
others (`TaskId.ofString?_eq_some_iff`), and whatever has happened before, the two requests that
name a task so tell apart by their statuses a text that names none, a task that is there and one
that is not (`addressing_live`).
-/

namespace TaskExchange

/-- A text spells a number: there are digits, after a plus sign or without one, and nothing else, and
in base ten they denote the number. -/
def Text.Spells (text : String) (n : Nat) : Prop :=
  ∃ sign digits, text.toList = sign ++ digits ∧ (sign = [] ∨ sign = ['+']) ∧ digits ≠ [] ∧
    (∀ c ∈ digits, '0' ≤ c ∧ c ≤ '9') ∧
    n = Nat.ofDigits 10 (digits.reverse.map fun c => c.toNat - '0'.toNat)

/-- A text denotes a task number: it spells it, and the number fits a 64-bit word. -/
structure TaskId.Denoted (text : String) (id : TaskId) : Prop where
  spelled : Text.Spells text id.value
  bounded : id.value < 2 ^ 64

namespace Scheduler

/-- Holds of the numbers under which there is a task of a kind. -/
def Live (s : Scheduler) (kind : Kind) (id : TaskId) : Prop :=
  ∃ t, s.tasks[id]? = some t ∧ t.kind = kind

/-- The task of a number is completed with a result: what is left when it has gone. -/
inductive Completes (s : Scheduler) (id : TaskId) (result : ByteArray) : Kind → Scheduler → Prop
  /-- A regional task is counted in its job. -/
  | regional {t : Task} {job : JobId} {j : Job} :
      s.tasks[id]? = some t → t.job = some job → s.jobs[job]? = some j → id ∈ j.outstanding →
      Completes s id result .regional { s.without [id] with
        jobs := s.jobs.insert job
          { j with outstanding := j.outstanding.erase id, completed := j.completed + 1 } }
  /-- The result of a priority task goes to its requester, if it has not left. -/
  | priority {c : ConnectionId} : s.producers[id]? = some c →
      Completes s id result .priority { s.without [id] with
        producers := s.producers.erase id
        requesters := (s.requesters.send? c result).getD s.requesters }

end Scheduler

namespace Service

open Http

/-- What comes of a request to complete the task of a kind that a text names. -/
structure Reaches (s : Service) (kind : Kind) (text : String) (result : ByteArray)
    (reception : Reception × Service) : Prop where
  /-- It is answered at once, and the status tells which of three cases it is. -/
  status : ∃ response, reception.1 = .answered response ∧
    (response.status = 400 ↔ ¬ ∃ id, TaskId.Denoted text id) ∧
    (response.status = 200 ↔ ∃ id, TaskId.Denoted text id ∧ s.scheduler.Live kind id) ∧
    (response.status = 404 ↔
      ∃ id, TaskId.Denoted text id ∧ ¬ s.scheduler.Live kind id)
  /-- A task that is there is completed. -/
  completed : ∀ id, TaskId.Denoted text id → s.scheduler.Live kind id →
    ∃ scheduler, s.scheduler.Completes id result kind scheduler ∧
      reception.2 = s.withScheduler scheduler
  /-- Else nothing happens. -/
  untouched : (¬ ∃ id, TaskId.Denoted text id ∧ s.scheduler.Live kind id) → reception.2 = s

end Service

namespace Http

/-- A request names a task under a path: a part of the path that is not empty stands behind it and
is decoded as a text. -/
def Request.Names (r : Request) (path text : String) : Prop :=
  ∃ part, r.path = path ++ part ∧ part ≠ "" ∧ '/' ∉ part.toList ∧
    Text.Percent.decode? part = some text

end Http

/-- How tasks are named in paths, as things stand in a session. -/
structure Session.Addressing (x : Session) : Prop where
  /-- A text is read as the number that it denotes, and only then. -/
  read : ∀ text id, TaskId.ofString? text = some id ↔ TaskId.Denoted text id
  /-- A number is read as it is shown. -/
  shown : ∀ id : TaskId, id.value < 2 ^ 64 → TaskId.ofString? id.label = some id
  acknowledged : ∀ now r text, r.method = "DELETE" → r.Names "/tasks/" text →
    x.service.Reaches .regional text r.body (x.service.receive now r)
  completed : ∀ now r text, r.method = "POST" → r.Names "/complete/priority/" text →
    r.body.size ≤ 64 * 1024 * 1024 →
    x.service.Reaches .priority text r.body (x.service.receive now r)
  /-- It makes no difference how a number is spelled. -/
  spelled : ∀ now method path r r' text text' id,
    (method, path) ∈ [("DELETE", "/tasks/"), ("POST", "/complete/priority/")] →
    r.method = method → r'.method = method → r.body = r'.body →
    r.Names path text → r'.Names path text' →
    TaskId.Denoted text id → TaskId.Denoted text' id →
    x.service.receive now r = x.service.receive now r'

/-! ### Texts -/

namespace Text

variable {cs : List Char} {s : String} {n : Nat}

/-- Reading digits from the left gives the number that they denote. -/
theorem foldl_digits (cs : List Char) : cs.foldl (fun n c => 10 * n + (c.toNat - 48)) 0 =
    Nat.ofDigits 10 (cs.reverse.map fun c => c.toNat - '0'.toNat) := by
  induction cs using List.reverseRecOn with
  | nil => rfl
  | append_singleton cs c ih =>
    rw [List.foldl_append, ih, List.reverse_append, List.map_append, List.reverse_singleton,
      List.map_singleton, List.singleton_append, Nat.ofDigits_cons, Nat.add_comm]
    rfl

theorem isDigit_iff {c : Char} : c.isDigit ↔ '0' ≤ c ∧ c ≤ '9' := by
  simp [Char.isDigit, Char.le_def]

theorem digitsValue?_eq_some_iff : digitsValue? cs = some n ↔
    cs ≠ [] ∧ (∀ c ∈ cs, '0' ≤ c ∧ c ≤ '9') ∧
      n = Nat.ofDigits 10 (cs.reverse.map fun c => c.toNat - '0'.toNat) := by
  have hall : cs.all Char.isDigit ↔ ∀ c ∈ cs, '0' ≤ c ∧ c ≤ '9' := by
    simp only [List.all_eq_true, isDigit_iff]
  rw [digitsValue?, foldl_digits, ← hall]
  by_cases h : cs ≠ [] ∧ cs.all Char.isDigit
  · rw [if_neg (by simp [h.1, h.2]), Option.some.injEq]
    exact ⟨fun heq => ⟨h.1, h.2, heq.symm⟩, fun heq => heq.2.2.symm⟩
  · have htest : (cs.isEmpty || !cs.all Char.isDigit) = true := by
      rw [not_and_or, not_not] at h
      rcases h with h | h <;> simp [h]
    rw [if_pos htest]
    exact iff_of_false (by simp) fun heq => h ⟨heq.1, heq.2.1⟩

/-- The texts that are read as numbers. -/
theorem word?_eq_some_iff : word? s = some n ↔ Spells s n ∧ n < 2 ^ 64 := by
  have hbound : ∀ digits, ((digitsValue? digits).bind fun n =>
      if n < wordBound then some n else none) = some n ↔
        digitsValue? digits = some n ∧ n < 2 ^ 64 := by
    intro digits
    rw [Option.bind_eq_some_iff]
    constructor
    · rintro ⟨m, hm, h⟩
      split at h
      · next hlt =>
        cases h
        exact ⟨hm, hlt⟩
      · cases h
    · rintro ⟨hn, hlt⟩
      exact ⟨n, hn, if_pos hlt⟩
  rw [word?, hbound, digitsValue?_eq_some_iff]
  refine and_congr_left fun _ => ?_
  -- A plus sign is no digit, so there is one way only to take the text apart.
  split
  · next rest htext =>
    constructor
    · rintro ⟨hne, hdigits, hvalue⟩
      exact ⟨['+'], rest, htext, Or.inr rfl, hne, hdigits, hvalue⟩
    · rintro ⟨sign, digits, hsplit, rfl | rfl, hne, hdigits, hvalue⟩
      · have hdigit : digits = '+' :: rest := hsplit.symm.trans htext
        exact absurd (hdigits '+' (hdigit ▸ List.mem_cons_self)) (by decide)
      · obtain rfl : rest = digits := by simpa [htext] using hsplit
        exact ⟨hne, hdigits, hvalue⟩
  · next hno =>
    constructor
    · rintro ⟨hne, hdigits, hvalue⟩
      exact ⟨[], s.toList, rfl, Or.inl rfl, hne, hdigits, hvalue⟩
    · rintro ⟨sign, digits, hsplit, rfl | rfl, hne, hdigits, hvalue⟩
      · rw [hsplit, List.nil_append]
        exact ⟨hne, hdigits, hvalue⟩
      · exact absurd hsplit (hno digits)

end Text

namespace TaskId

variable {text : String} {id id' : TaskId}

/-- The texts that are read as task numbers are those that denote one. -/
theorem ofString?_eq_some_iff : ofString? text = some id ↔ Denoted text id := by
  rw [ofString?, Option.map_eq_some_iff]
  constructor
  · rintro ⟨n, hn, rfl⟩
    obtain ⟨hspelled, hbounded⟩ := Text.word?_eq_some_iff.mp hn
    exact ⟨hspelled, hbounded⟩
  · rintro ⟨hspelled, hbounded⟩
    exact ⟨id.value, Text.word?_eq_some_iff.mpr ⟨hspelled, hbounded⟩, rfl⟩

theorem Denoted.unique (h : Denoted text id) (h' : Denoted text id') : id = id' :=
  Option.some.inj ((ofString?_eq_some_iff.mpr h).symm.trans (ofString?_eq_some_iff.mpr h'))

theorem read_of_denoted (h : Denoted text id) : read text = .ok id := by
  rw [read, ofString?_eq_some_iff.mpr h]

theorem read_of_not_denoted (h : ¬ ∃ id, Denoted text id) :
    read text = .error (.notATaskId text) := by
  have hnone : ofString? text = none :=
    Option.eq_none_iff_forall_ne_some.mpr fun id hid => h ⟨id, ofString?_eq_some_iff.mp hid⟩
  rw [read, hnone]

/-- What is shown of a number spells it. -/
theorem ofString?_label (h : id.value < 2 ^ 64) : ofString? id.label = some id := by
  refine ofString?_eq_some_iff.mpr ⟨⟨[], Nat.toDigits 10 id.value, ?_, Or.inl rfl, ?_⟩, h⟩
  · rw [label, Nat.toString_eq_repr, Nat.toList_repr]
    rfl
  · exact Text.digitsValue?_eq_some_iff.mp (Metrics.digitsValue?_toDigits id.value)

end TaskId

/-! ### Paths -/

namespace Http

namespace Route

variable {cs rest : List Char}

theorem parts_append (h : '/' ∉ cs) : parts (cs ++ '/' :: rest) = cs :: parts rest := by
  induction cs with
  | nil => simp [parts]
  | cons c cs ih =>
    obtain ⟨hc, hcs⟩ := not_or.mp (mt List.mem_cons.mpr h)
    rw [List.cons_append, parts, if_neg (Ne.symm hc), ih hcs]

theorem parts_of_notMem (h : '/' ∉ cs) : parts cs = [cs] := by
  induction cs with
  | nil => rfl
  | cons c cs ih =>
    obtain ⟨hc, hcs⟩ := not_or.mp (mt List.mem_cons.mpr h)
    rw [parts, if_neg (Ne.symm hc), ih hcs]

theorem ofPath?_tasks {part : String} (hne : part ≠ "") (h : '/' ∉ part.toList) :
    ofPath? ("/tasks/" ++ part) = some (.acknowledge part) := by
  have hpath : ("/tasks/" ++ part).toList = [] ++ '/' :: ("tasks".toList ++ '/' :: part.toList) :=
    String.toList_append
  have hsegments : segments ("/tasks/" ++ part) = ["", "tasks", part] := by
    rw [segments, hpath, parts_append (by simp), parts_append (by decide), parts_of_notMem h]
    simp
  rw [ofPath?, hsegments]
  simp [hne]

theorem ofPath?_complete {part : String} (hne : part ≠ "") (h : '/' ∉ part.toList) :
    ofPath? ("/complete/priority/" ++ part) = some (.complete part) := by
  have hpath : ("/complete/priority/" ++ part).toList =
      [] ++ '/' :: ("complete".toList ++ '/' :: ("priority".toList ++ '/' :: part.toList)) :=
    String.toList_append
  have hsegments : segments ("/complete/priority/" ++ part) =
      ["", "complete", "priority", part] := by
    rw [segments, hpath, parts_append (by simp), parts_append (by decide),
      parts_append (by decide), parts_of_notMem h]
    simp
  rw [ofPath?, hsegments]
  simp [hne]

end Route

end Http

namespace Service

open Http

variable {s : Service} {now : Moment} {r : Http.Request} {text : String} {id : TaskId}

theorem route?_acknowledge (hmethod : r.method = "DELETE") (h : r.Names "/tasks/" text) :
    route? r = some (.acknowledge text) := by
  obtain ⟨part, hpath, hne, hpart, hdecode⟩ := h
  rw [route?, hmethod, hpath, Route.ofPath?_tasks hne hpart]
  simp [Route.methods, Route.decode, Route.decodeText, hdecode, Except.map, Except.toOption]

theorem route?_complete (hmethod : r.method = "POST") (h : r.Names "/complete/priority/" text) :
    route? r = some (.complete text) := by
  obtain ⟨part, hpath, hne, hpart, hdecode⟩ := h
  rw [route?, hmethod, hpath, Route.ofPath?_complete hne hpart]
  simp [Route.methods, Route.decode, Route.decodeText, hdecode, Except.map, Except.toOption]

/-- What is received for a route is what the route serves, sent. -/
theorem receive_of_route? {route : Route} {response : Response} {s' : Service}
    (hroute : route? r = some route) (h : s.serve now r route = (.answered response, s')) :
    s.receive now r = (.answered (sent r.method response), s') := by
  rw [receive, dispatch_of_route? hroute, h]

/-! ### Answers -/

variable {kind : Kind} {result : ByteArray} {response : Response} {s' : Service}

/-- A text that names no task number is told with one status. -/
theorem reaches_malformed (hnot : ¬ ∃ id, TaskId.Denoted text id) (hstatus : response.status = 400) :
    s.Reaches kind text result (.answered response, s) where
  status := by
    refine ⟨response, rfl, ?_⟩
    rw [hstatus]
    refine ⟨iff_of_true rfl hnot, iff_of_false (by decide) ?_, iff_of_false (by decide) ?_⟩
    · exact fun ⟨id, hid, _⟩ => hnot ⟨id, hid⟩
    · exact fun ⟨id, hid, _⟩ => hnot ⟨id, hid⟩
  completed id hid := absurd ⟨id, hid⟩ hnot
  untouched _ := rfl

/-- A number of no such task is told with another. -/
theorem reaches_missing (hid : TaskId.Denoted text id) (hlive : ¬ s.scheduler.Live kind id)
    (hstatus : response.status = 404) : s.Reaches kind text result (.answered response, s) where
  status := by
    refine ⟨response, rfl, ?_⟩
    rw [hstatus]
    refine ⟨iff_of_false (by decide) (not_not.mpr ⟨id, hid⟩), iff_of_false (by decide) ?_,
      iff_of_true rfl ⟨id, hid, hlive⟩⟩
    exact fun ⟨other, hother, h⟩ => hlive (hother.unique hid ▸ h)
  completed other hother h := absurd (hother.unique hid ▸ h) hlive
  untouched _ := rfl

/-- A task that is there is completed, and this is told with a third. -/
theorem reaches_found (hid : TaskId.Denoted text id) (hlive : s.scheduler.Live kind id)
    (hstatus : response.status = 200) {scheduler : Scheduler}
    (hcompletes : s.scheduler.Completes id result kind scheduler) :
    s.Reaches kind text result (.answered response, s.withScheduler scheduler) where
  status := by
    refine ⟨response, rfl, ?_⟩
    rw [hstatus]
    refine ⟨iff_of_false (by decide) (not_not.mpr ⟨id, hid⟩), iff_of_true rfl ⟨id, hid, hlive⟩,
      iff_of_false (by decide) ?_⟩
    exact fun ⟨other, hother, h⟩ => h (hother.unique hid ▸ hlive)
  completed other hother _ := by
    obtain rfl := hother.unique hid
    exact ⟨scheduler, hcompletes, rfl⟩
  untouched hnot := absurd ⟨id, hid, hlive⟩ hnot

/-- The completion of a regional task is acknowledged under the number that the text denotes. -/
theorem serve_acknowledge_of_denoted (hid : TaskId.Denoted text id) :
    s.serve now r (.acknowledge text) =
      match s.scheduler.acknowledge? id with
      | some scheduler => (.answered .done, s.withScheduler scheduler)
      | none => (.answered (Fault.refused (.taskNotFound id)).response, s) := by
  simp only [serve, acknowledge, TaskId.read_of_denoted hid, Exchange.acknowledge]
  cases h : s.exchange.scheduler.acknowledge? id <;>
    simp [scheduler, h, answer, withScheduler, Except.mapError, bind, Except.bind, pure,
      Except.pure]

/-- The result of a priority task is sent under the number that the text denotes. -/
theorem serve_complete_of_denoted (hsize : r.body.size ≤ bodyLimit)
    (hid : TaskId.Denoted text id) :
    s.serve now r (.complete text) =
      match s.scheduler.complete id r.body with
      | (.ok _, scheduler) => (.answered .done, s.withScheduler scheduler)
      | (.error refusal, scheduler) =>
        (.answered (Fault.refused refusal).response, s.withScheduler scheduler) := by
  simp only [serve, complete, TaskId.read_of_denoted hid, Exchange.complete,
    if_neg (Nat.not_lt.mpr hsize)]
  rcases h : s.exchange.scheduler.complete id r.body with ⟨outcome, scheduler⟩
  cases outcome <;> simp [Service.scheduler, h, withScheduler]

/-- Where a text denotes no task number, the routes with it are served alike. -/
theorem serve_acknowledge_of_not_denoted (hnot : ¬ ∃ id, TaskId.Denoted text id) :
    s.serve now r (.acknowledge text) =
      (.answered (inputFault (.notATaskId text)).response, s) := by
  simp [serve, acknowledge, TaskId.read_of_not_denoted hnot, answer, Except.mapError, bind,
    Except.bind]

theorem serve_complete_of_not_denoted (hsize : r.body.size ≤ bodyLimit)
    (hnot : ¬ ∃ id, TaskId.Denoted text id) :
    s.serve now r (.complete text) = (.answered (inputFault (.notATaskId text)).response, s) := by
  simp [serve, complete, TaskId.read_of_not_denoted hnot, Nat.not_lt.mpr hsize]

theorem reaches_acknowledge (hs : Scheduler.Sound s.scheduler ∅)
    (hroute : route? r = some (.acknowledge text)) :
    s.Reaches .regional text result (s.receive now r) := by
  by_cases hdenoted : ∃ id, TaskId.Denoted text id
  · obtain ⟨id, hid⟩ := hdenoted
    have hserve : s.serve now r (.acknowledge text) = _ := serve_acknowledge_of_denoted hid
    by_cases hlive : s.scheduler.Live .regional id
    · obtain ⟨t, ht, hkind⟩ := hlive
      obtain ⟨job, j, hjob, hj, hin, heq⟩ := hs.acknowledge?_eq ht hkind
      rw [heq] at hserve
      rw [receive_of_route? hroute hserve]
      exact reaches_found hid ⟨t, ht, hkind⟩ (status_sent ..) (.regional ht hjob hj hin)
    · have hnone : s.scheduler.acknowledge? id = none := by
        rw [← Option.not_isSome_iff_eq_none, Scheduler.acknowledge?_isSome_iff]
        exact hlive
      rw [hnone] at hserve
      rw [receive_of_route? hroute hserve]
      exact reaches_missing hid hlive (status_sent ..)
  · rw [receive_of_route? hroute (serve_acknowledge_of_not_denoted hdenoted)]
    exact reaches_malformed hdenoted (status_sent ..)

theorem reaches_complete (hs : Scheduler.Sound s.scheduler ∅)
    (hroute : route? r = some (.complete text)) (hsize : r.body.size ≤ bodyLimit) :
    s.Reaches .priority text r.body (s.receive now r) := by
  by_cases hdenoted : ∃ id, TaskId.Denoted text id
  · obtain ⟨id, hid⟩ := hdenoted
    have hserve : s.serve now r (.complete text) = _ := serve_complete_of_denoted hsize hid
    by_cases hlive : s.scheduler.Live .priority id
    · obtain ⟨t, ht, hkind⟩ := hlive
      obtain ⟨c, hc, heq⟩ := hs.withdraw_eq ht hkind
      have hstate := s.scheduler.complete_snd id r.body
      rw [heq] at hstate
      rw [← Prod.eta (s.scheduler.complete id r.body), hs.complete_fst hc] at hserve
      rw [receive_of_route? hroute hserve, hstate]
      exact reaches_found hid ⟨t, ht, hkind⟩ (status_sent ..) (.priority hc)
    · have hnone : id ∉ s.scheduler.producers := mt (hs.awaited id).mp hlive
      rw [hs.complete_of_notMem hnone] at hserve
      rw [receive_of_route? hroute hserve]
      exact reaches_missing hid hlive (status_sent ..)
  · rw [receive_of_route? hroute (serve_complete_of_not_denoted hsize hdenoted)]
    exact reaches_malformed hdenoted (status_sent ..)

/-! ### Spellings -/

/-- Requests for which the same is served get the same answer. -/
theorem receive_congr {r' : Http.Request} {route route' : Route} (hroute : route? r = some route)
    (hroute' : route? r' = some route') (hmethod : r.method = r'.method)
    (h : s.serve now r route = s.serve now r' route') : s.receive now r = s.receive now r' := by
  rw [receive, receive, dispatch_of_route? hroute, dispatch_of_route? hroute', h, hmethod]

theorem serve_complete_congr {r' : Http.Request} {text' : String} (hbody : r.body = r'.body)
    (hid : TaskId.Denoted text id) (hid' : TaskId.Denoted text' id) :
    s.serve now r (.complete text) = s.serve now r' (.complete text') := by
  simp only [serve, complete, TaskId.read_of_denoted hid, TaskId.read_of_denoted hid', hbody]

end Service

/-! ### Every state -/

namespace Session

/-- Whatever has happened before, the two requests that name a task by a text find the task whose
number the text denotes, if it is there and of their kind, and tell if it is not. -/
theorem addressing_live (settings : Settings) (happenings : List (Moment × Happening)) :
    Addressing ((new settings).live happenings) := by
  have hs := sound_live settings happenings
  generalize (new settings).live happenings = x at hs
  refine ⟨fun _ _ => TaskId.ofString?_eq_some_iff, fun _ => TaskId.ofString?_label, ?_, ?_, ?_⟩
  · intro now r text hmethod hnames
    exact Service.reaches_acknowledge hs (Service.route?_acknowledge hmethod hnames)
  · intro now r text hmethod hnames hsize
    exact Service.reaches_complete hs (Service.route?_complete hmethod hnames) hsize
  · intro now method path r r' text text' id hpath hr hr' hbody hnames hnames' hid hid'
    simp only [List.mem_cons, Prod.mk.injEq, List.not_mem_nil, or_false] at hpath
    rcases hpath with ⟨rfl, rfl⟩ | ⟨rfl, rfl⟩
    · refine Service.receive_congr (Service.route?_acknowledge hr hnames)
        (Service.route?_acknowledge hr' hnames') (hr.trans hr'.symm) ?_
      rw [Service.serve_acknowledge_of_denoted hid, Service.serve_acknowledge_of_denoted hid']
    · refine Service.receive_congr (Service.route?_complete hr hnames)
        (Service.route?_complete hr' hnames') (hr.trans hr'.symm) ?_
      exact Service.serve_complete_congr hbody hid hid'

/-- One regional task is accepted, under the number one. -/
def oneTask : List (Moment × Happening) :=
  [(default, .operate (.enqueueBatch [⟨some ⟨"job"⟩, ⟨"graph", "1"⟩, default⟩]))]

/-- The status of the answer to a request to acknowledge a task. -/
def acknowledgeStatus (x : Session) (part : String) : Option Nat :=
  match (x.service.receive default ⟨"DELETE", "/tasks/" ++ part, [], .empty⟩).1 with
  | .answered response => some response.status
  | .held _ => none

/-- The task is found under each spelling of its number. -/
theorem addressing_oneTask : Addressing ((new .standard).live oneTask) ∧
    ["1", "+01", "%2b%31", "2", "18446744073709551615", "18446744073709551616", "-1", "1%20"].map
      ((new .standard).live oneTask).acknowledgeStatus =
      [200, 200, 200, 404, 404, 400, 400, 400].map some :=
  ⟨addressing_live _ _, by decide +kernel⟩

end Session

end TaskExchange
