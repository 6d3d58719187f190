import TaskExchange.Proofs.Answer
import TaskExchange.Proofs.Census
import TaskExchange.Proofs.Delivery
import TaskExchange.Proofs.Housework
import TaskExchange.Proofs.Isolation
import TaskExchange.Proofs.Standing

/-!
Registration: workers are registered with the scheduler in the lines in which they wait, requesters
by the connections on which they await their results.  Main statement: `registered_run`.  Whatever
steps the requests take, and whatever work of the house goes on between them, those who are
registered are the held requests to which nothing has come, each once; so the scheduler counts those
who wait.
-/

namespace TaskExchange

open Scheduler (Operation)

namespace Errand

/-- Holds when the scheduler knows where to find the one who waits. -/
def IsRegistered (s : Scheduler) : Errand → Prop
  | work lane c => c ∈ s.pool.line lane
  | result task c => s.producers[task]? = some c

/-- Holds when the waiting side is there and nothing ever came to it. -/
def isOpen (s : Scheduler) : Errand → Bool
  | work _ c => s.polls.isOpen c
  | result _ c => s.requesters.isOpen c

/-- Holds of workers that wait for tasks of a kind. -/
def seeks (kind : Kind) : Errand → Bool
  | work lane _ => lane.kind = kind
  | result .. => false

/-- Holds of requesters. -/
def awaitsResult : Errand → Bool
  | work .. => false
  | result .. => true

/-- A request that is to be held awaits the result of the next task. -/
theorem Opening.awaits {s : Scheduler} {task : TaskId} {c : ConnectionId} {ops : List Operation}
    (h : (Errand.result task c).Opening s ops) (hs : Scheduler.Sound s ∅) (now : Moment) :
    task = s.nextId ∧ Scheduler.Awaits (Session.carriedOut s now ops) task c := by
  cases h with
  | result r =>
    let opened : Scheduler.Event := ⟨s, now, .openRequest⟩
    let submitted : Scheduler.Event := ⟨opened.after, now, .submit r ⟨s.requesters.next⟩⟩
    have hopen : opened.after.requesters.isOpen ⟨s.requesters.next⟩ = true := by
      simp [opened, Scheduler.Event.after, Scheduler.step, Switchboard.connect, Switchboard.isOpen]
    exact ⟨rfl, Scheduler.Event.awaits (e := submitted) (opened.sound_after hs) rfl
      (Side.known_opened opened rfl).2 hopen⟩

end Errand

namespace Session

/-- How many requests are held for such errands. -/
def countHeld (x : Session) (p : Errand → Bool) : Nat := x.service.held.toList.countP (p ·.2.errand)

/-- No held request has anything to do: nothing has come to it, its timer is not due, and neither
has it stopped waiting nor is its peer gone. -/
def AtRest (x : Session) : Prop :=
  ∀ (now : Moment) (id : HeldId), ∀ a ∈ [Act.read id, .fire id, .release id, .clear id],
    x.act now a = x

/-- The scheduler counts those of the held requests of which this holds, the workers of each kind
and the requesters. -/
structure Counts (x : Session) (p : Errand → Bool) : Prop where
  regional : x.scheduler.counts.parkedRegional =
    x.countHeld fun errand => p errand && errand.seeks .regional
  priority : x.scheduler.counts.parkedPriority =
    x.countHeld fun errand => p errand && errand.seeks .priority
  requesters : x.scheduler.counts.waitingProducers =
    x.countHeld fun errand => p errand && errand.awaitsResult

/-- Those who are registered are those who are held and to whom nothing has come, in a session. -/
structure Registered (x : Session) : Prop where
  /-- Whoever is registered waits for something to come, and is one held request. -/
  live : ∀ errand : Errand, errand.IsRegistered x.scheduler → errand.isOpen x.scheduler = true ∧
    ∃ id, x.errandOf? id = some errand ∧
      ∀ other errand', x.errandOf? other = some errand' → errand'.side = errand.side → other = id
  /-- No worker stands in a line twice. -/
  once : ∀ lane, (x.scheduler.pool.line lane).Nodup
  /-- A held request to which nothing has come is registered. -/
  kept : ∀ id errand, x.errandOf? id = some errand → errand.news? x.scheduler = none →
    errand.IsRegistered x.scheduler
  /-- The scheduler counts the held requests to which nothing has come. -/
  counted : x.Counts fun errand => (errand.news? x.scheduler).isNone
  /-- When none of them has anything to do, it counts all. -/
  rest : x.AtRest → x.Counts fun _ => true
  vacant : (∀ id, x.errandOf? id = none) → x.scheduler.counts.parkedRegional = 0 ∧
    x.scheduler.counts.parkedPriority = 0 ∧ x.scheduler.counts.waitingProducers = 0

variable {settings : Settings} {acts : List (Moment × Act)} {now : Moment} {x x' : Session}
  {e : Event} {d : Scheduler.Event} {id : HeldId} {errand : Errand} {ops : List Operation}
  {stopped : Option HeldId} {lane : Lane} {task : TaskId} {c : ConnectionId}

/-! ### Requesters -/

/-- Every request that is held for a result awaits it, and no two await the same. -/
def Awaited (x : Session) : Prop :=
  ∀ id task c, x.errandOf? id = some (.result task c) → Scheduler.Awaits x.scheduler task c ∧
    ∀ other d, x.errandOf? other = some (.result task d) → other = id

theorem Awaited.after (h : Awaited e.before) (hx : Housed e.before) (hhouse : e.act.OfHouse) :
    Awaited e.after := by
  intro id task c hid
  rcases Event.errand_cases hx hid with hbefore | ⟨rfl, hopening⟩
  · obtain ⟨hawaits, honly⟩ := h id task c hbefore
    have hon : e.ended? ≠ some id := fun hended => by
      rw [errandOf?, Moves.held_of_ended (hended ▸ e.moves)] at hid
      cases hid
    refine ⟨?_, fun other d hother => ?_⟩
    · rw [e.moves.scheduler]
      refine hawaits.run hx.sound fun d hd => ⟨?_, fun htask => ?_⟩
      · obtain ⟨held, hheld, herrand⟩ := Option.map_eq_some_iff.mp hbefore
        have howns := hx.owns hheld
        rw [herrand] at howns
        exact e.moves.side?_ne hx.sound howns hon (mem_of_mem_trace hd)
      · obtain ⟨other, c', hended, hother⟩ :=
          e.ended_of_withdrawn hhouse (mem_of_mem_trace hd) htask
        exact hon (honly other c' hother ▸ hended)
    · rcases Event.errand_cases hx hother with hother | ⟨-, hopening⟩
      · exact honly other d hother
      · -- A new request has a number that nobody had.
        have hnew := (hopening.awaits hx.sound e.now).1
        exact absurd (hnew ▸ hawaits.number) (Nat.lt_irrefl _)
  · obtain ⟨hnew, hawaits⟩ := hopening.awaits hx.sound e.now
    refine ⟨e.moves.scheduler ▸ hawaits, fun other d hother => ?_⟩
    rcases Event.errand_cases hx hother with hother | ⟨hother, -⟩
    · exact absurd (hnew ▸ (h other task d hother).1.number) (Nat.lt_irrefl _)
    · exact hother

/-- Nobody but callers can withdraw the request of another. -/
theorem awaited_run (settings : Settings) {acts : List (Moment × Act)}
    (hhouse : ∀ a ∈ acts, a.2.OfHouse) : Awaited ((new settings).run acts) := by
  refine housed_induction (P := fun past x => (∀ e ∈ past, e.act.OfHouse) → Awaited x) ?_ ?_
    fun e he => hhouse _ (mem_acts_of_mem_trace he)
  · intro _ id task c hid
    simp [errandOf?, Session.new, Service.new] at hid
  · intro past e hx hpast h
    exact (hpast fun d hd => h d (List.mem_append_left _ hd)).after hx (h e (by simp))

/-! ### Workers -/

/-- A worker for which a request begins to be held stands in its line. -/
theorem Event.Begins.stands (hb : e.Begins id (.work lane c)) (hx : Housed e.before)
    (hhouse : e.act.OfHouse) (hopen : e.after.scheduler.polls.isOpen c = true) :
    c ∈ e.after.scheduler.pool.line lane := by
  have hopening := e.moves.opening hb.1 hb.2
  have hdeeds := e.deeds hhouse
  rw [e.moves.scheduler] at hopen ⊢
  generalize e.operations = ops at *
  cases hopening with
  | work =>
    let opened : Scheduler.Event := ⟨e.before.scheduler, e.now, .openPoll⟩
    let polled : Scheduler.Event :=
      ⟨opened.after, e.now, .poll lane ⟨e.before.scheduler.polls.next⟩⟩
    exact Scheduler.Event.stands_of_parked (e := polled) (opened.sound_after hx.sound) rfl
      (congrArg Scheduler.Outcome.polled (hdeeds.parked rfl)) hopen

/-- A request that is held was held from an event on; meanwhile nobody else used its waiting
side. -/
theorem begun_split {settings : Settings} {acts : List (Moment × Act)}
    (hid : ((new settings).run acts).errandOf? id = some errand) :
    ∃ xs e ys, (new settings).run xs = e.before ∧ e ∈ (new settings).trace acts ∧
      e.Begins id errand ∧ e.after.run ys = (new settings).run acts ∧
      Spares errand.side (history (e.after.trace ys)) := by
  obtain ⟨held, hheld, rfl⟩ := Option.map_eq_some_iff.mp hid
  obtain ⟨e, he, hb⟩ := begun_run settings acts id held hheld
  obtain ⟨xs, ys, hbefore, hlast⟩ := exists_runs_of_mem he
  refine ⟨xs, e, ys, hbefore, he, hb, hlast, ?_⟩
  rcases (hb.holds (hbefore ▸ housed_run settings xs)).run ys with ⟨-, -, hspares⟩ | ⟨-, -, hended⟩
  · exact hspares
  · rw [hlast] at hended
    rw [hended.held] at hheld
    cases hheld

/-- A request that is held for work waits in its lane, and stands in line until it is given a
task. -/
theorem worker_run (hhouse : ∀ a ∈ acts, a.2.OfHouse)
    (hid : ((new settings).run acts).errandOf? id = some (.work lane c)) :
    ∃ tasks, Scheduler.Attends ((new settings).run acts).scheduler lane c tasks ∧
      (((new settings).run acts).scheduler.polls.isOpen c = true →
        c ∈ ((new settings).run acts).scheduler.pool.line lane) := by
  obtain ⟨xs, e, ys, hbefore, he, hb, hlast, hspares⟩ := begun_split hid
  have hx : Housed e.before := hbefore ▸ housed_run settings xs
  obtain ⟨-, hattends⟩ := hb.attends hbefore
  rw [← hlast]
  refine ⟨_, attends_run hx.after.sound hattends hspares, fun hopen => ?_⟩
  obtain ⟨steps, htrace, hrun⟩ := history_run e.after ys
  rw [← hrun] at hopen ⊢
  rw [← htrace] at hspares
  exact Scheduler.stands_run hx.after.sound hattends.known
    (hb.stands hx (hhouse _ (mem_acts_of_mem_trace he))) hspares hopen

/-! ### Those who are registered -/

/-- Whoever is registered was registered by an event. -/
theorem registers_run (settings : Settings) (acts : List (Moment × Act))
    (h : errand.IsRegistered ((new settings).run acts).scheduler) :
    ∃ d ∈ history ((new settings).trace acts), errand.RegistersAt d := by
  obtain ⟨steps, htrace, hrun⟩ := history_run (new settings) acts
  rw [← hrun] at h
  rw [← htrace]
  cases errand with
  | work lane c =>
    obtain ⟨d, hd, hop, hparked⟩ := Scheduler.parked_run settings.limits steps h
    exact ⟨d, hd, .work hop hparked⟩
  | result task c =>
    obtain ⟨d, hd, rfl, r, hop⟩ := Scheduler.submitted_run settings.limits steps task c h
    exact ⟨d, hd, .result hop⟩

/-- When a request for a result has ended, that result is awaited no more. -/
theorem Holds.forgotten (h : Holds x id (.result task c))
    (hheard : Scheduler.Heard x.scheduler task c none) {ending : Ending}
    (hend : ending ∈ endings id (x.trace acts)) :
    task ∉ (x.run acts).scheduler.producers := by
  obtain ⟨mid, y, rest, hsplit, hend⟩ := exists_of_mem_endings hend
  obtain ⟨-, hholds, hspares, -, -⟩ := h.split hsplit hend
  obtain ⟨us, vs, rfl, hbefore, rfl, hlast⟩ := trace_split hsplit
  obtain ⟨hmid, -⟩ := heard_run h.housed.sound hheard hspares
  rw [hbefore] at hmid
  obtain ⟨hknown, hgone⟩ := hholds.forgets hmid hend
  obtain ⟨steps, -, hrun⟩ := history_run y.after vs
  rw [← hlast, ← hrun]
  exact (Scheduler.forgotten_run hholds.housed.after.sound hknown hgone).2

/-- Whoever is registered is a held request, to which nothing has come. -/
theorem held_run (hhouse : ∀ a ∈ acts, a.2.OfHouse)
    (h : errand.IsRegistered ((new settings).run acts).scheduler) :
    ∃ id, ((new settings).run acts).errandOf? id = some errand ∧
      errand.news? ((new settings).run acts).scheduler = none := by
  obtain ⟨d, hd, hregisters⟩ := registers_run settings acts h
  obtain ⟨e, he, hd⟩ := List.mem_flatMap.mp hd
  have hopening := e.opening_of_registers (hhouse _ (mem_acts_of_mem_trace he)) hd hregisters
  obtain ⟨xs, ys, hbefore, hlast⟩ := exists_runs_of_mem he
  have hx : Housed e.before := hbefore ▸ housed_run settings xs
  have hb := e.begins_of_opening hx hopening
  have hholds := hb.holds hx
  rw [← hlast] at h ⊢
  refine ⟨e.before.service.nextHeld, ?_⟩
  cases errand with
  | work lane c =>
    obtain ⟨-, hattends⟩ := hb.attends hbefore
    rcases (hholds.fate hattends ys).2 with ⟨-, hlast, hattends⟩ | ⟨ending, hone, -⟩
    · refine ⟨Option.map_eq_some_iff.mpr hlast.held, ?_⟩
      rw [Errand.news?, Switchboard.held?_of_isOpen (hattends.isOpen_of_mem h), Option.map_none]
    · obtain ⟨mid, y, rest, hsplit, hend⟩ :=
        exists_of_mem_endings (hone ▸ List.mem_singleton_self ending)
      exact absurd h ((hholds.finish hattends hsplit hend).2.2.2 lane)
  | result task c =>
    obtain ⟨-, hheard⟩ := hb.heard hbefore
    have hin := (Std.ExtTreeMap.getElem?_eq_some_iff.mp h).1
    rcases hholds.run ys with ⟨-, hlast, hspares⟩ | ⟨ending, hone, -⟩
    · refine ⟨Option.map_eq_some_iff.mpr hlast.held, ?_⟩
      obtain ⟨hheard, -⟩ := heard_run hholds.housed.sound hheard hspares
      have hnone : (e.after.run ys).scheduler.requesters.held? c = none := by
        rw [hheard.holds]
        by_contra hne
        exact hheard.gone hne hin
      rw [Errand.news?, hnone, Option.map_none]
    · exact absurd hin (hholds.forgotten hheard (hone ▸ List.mem_singleton_self ending))

/-- A held request to which nothing has come is registered. -/
theorem kept_run (hhouse : ∀ a ∈ acts, a.2.OfHouse)
    (hid : ((new settings).run acts).errandOf? id = some errand)
    (hnone : errand.news? ((new settings).run acts).scheduler = none) :
    errand.IsRegistered ((new settings).run acts).scheduler ∧
      errand.isOpen ((new settings).run acts).scheduler = true := by
  cases errand with
  | work lane c =>
    obtain ⟨tasks, hattends, hstands⟩ := worker_run hhouse hid
    have hopen := hattends.isOpen_of_held?_none (Option.map_eq_none_iff.mp hnone)
    exact ⟨hstands hopen, hopen⟩
  | result task c =>
    exact (awaited_run settings hhouse id task c hid).1.awaited (Option.map_eq_none_iff.mp hnone)

/-! ### Counting -/

/-- Held requests have waiting sides of their own. -/
theorem Housed.eq_of_side (hx : Housed x) {errand' : Errand} {other : HeldId}
    (hid : x.errandOf? id = some errand) (hother : x.errandOf? other = some errand')
    (hside : errand'.side = errand.side) : other = id ∧ errand' = errand := by
  obtain ⟨h, hheld, rfl⟩ := Option.map_eq_some_iff.mp hid
  obtain ⟨h', hheld', rfl⟩ := Option.map_eq_some_iff.mp hother
  obtain rfl := (hx.owns hheld).alone hheld' hside
  rw [hheld] at hheld'
  cases hheld'
  exact ⟨rfl, rfl⟩

/-- So many are held as there are waiting sides of theirs. -/
theorem Housed.countHeld_eq (hx : Housed x) {sides : List Side} (hnodup : sides.Nodup)
    {p : Errand → Bool} (hmem : ∀ side, side ∈ sides ↔
      ∃ id errand, x.errandOf? id = some errand ∧ p errand = true ∧ errand.side = side) :
    sides.length = x.countHeld p := by
  have hheld : ∀ {entry}, entry ∈ x.service.held.toList ↔ x.service.held[entry.1]? = some entry.2 :=
    Std.ExtTreeMap.mem_toList_iff_getElem?_eq_some
  have hperm : sides.Perm
      ((x.service.held.toList.filter (p ·.2.errand)).map (·.2.errand.side)) := by
    refine (List.perm_ext_iff_of_nodup hnodup ?_).mpr fun side => ?_
    · rw [List.Nodup, List.pairwise_map]
      refine List.Pairwise.filter _ ?_
      refine Std.ExtTreeMap.distinct_keys_toList.imp_of_mem ?_
      rintro ⟨id, h⟩ ⟨other, h'⟩ hid hother hne hside
      have heq := (hx.owns (hheld.mp hid)).alone (hheld.mp hother) hside.symm
      exact hne (Std.LawfulEqOrd.compare_eq_iff_eq.mpr heq.symm)
    · rw [hmem]
      simp only [List.mem_map, List.mem_filter, hheld, errandOf?, Option.map_eq_some_iff]
      constructor
      · rintro ⟨id, _, ⟨h, hid, rfl⟩, hp, rfl⟩
        exact ⟨(id, h), ⟨hid, hp⟩, rfl⟩
      · rintro ⟨⟨id, h⟩, ⟨hid, hp⟩, rfl⟩
        exact ⟨id, h.errand, ⟨h, hid, rfl⟩, hp, rfl⟩
  rw [hperm.length_eq, List.length_map, countHeld, List.countP_eq_length_filter]

/-- The registry of a session is right: those who are registered are those who are held and to whom
nothing has come. -/
structure Registry (x : Session) : Prop where
  housed : Housed x
  iff : ∀ errand : Errand, errand.IsRegistered x.scheduler ↔
    ∃ id, x.errandOf? id = some errand ∧ errand.news? x.scheduler = none
  once : ∀ lane, (x.scheduler.pool.line lane).Nodup

theorem registry_run (settings : Settings) (hhouse : ∀ a ∈ acts, a.2.OfHouse) :
    Registry ((new settings).run acts) := by
  refine ⟨housed_run settings acts, fun errand => ⟨held_run hhouse, ?_⟩, fun lane => ?_⟩
  · rintro ⟨id, hid, hnone⟩
    exact (kept_run hhouse hid hnone).1
  · rw [List.nodup_iff_count_le_one]
    intro c
    by_cases hin : c ∈ ((new settings).run acts).scheduler.pool.line lane
    · have hregistered :
          (Errand.work lane c).IsRegistered ((new settings).run acts).scheduler := hin
      obtain ⟨id, hid, -⟩ := held_run hhouse hregistered
      obtain ⟨tasks, hattends, -⟩ := worker_run hhouse hid
      exact hattends.once
    · rw [List.count_eq_zero.mpr hin]
      exact Nat.zero_le 1

namespace Registry

/-- Those who are registered have waiting sides of their own. -/
theorem eq_of_side (h : Registry x) {errand errand' : Errand}
    (hin : errand.IsRegistered x.scheduler) (hin' : errand'.IsRegistered x.scheduler)
    (hside : errand'.side = errand.side) : errand' = errand := by
  obtain ⟨id, hid, -⟩ := (h.iff errand).mp hin
  obtain ⟨other, hother, -⟩ := (h.iff errand').mp hin'
  exact (h.housed.eq_of_side hid hother hside).2

/-- So many are registered as there are waiting sides of theirs. -/
theorem length_eq (h : Registry x) {p : Errand → Bool} {sides : List Side} (hnodup : sides.Nodup)
    (hmem : ∀ side, side ∈ sides ↔
      ∃ errand : Errand, errand.IsRegistered x.scheduler ∧ p errand = true ∧ errand.side = side) :
    sides.length = x.countHeld fun errand => (errand.news? x.scheduler).isNone && p errand := by
  refine h.housed.countHeld_eq hnodup fun side => (hmem side).trans ?_
  constructor
  · rintro ⟨errand, hin, hp, hside⟩
    obtain ⟨id, hid, hnone⟩ := (h.iff errand).mp hin
    exact ⟨id, errand, hid, by simp [hnone, hp], hside⟩
  · rintro ⟨id, errand, hid, hp, hside⟩
    rw [Bool.and_eq_true, Option.isNone_iff_eq_none] at hp
    exact ⟨errand, (h.iff errand).mpr ⟨id, hid, hp.1⟩, hp.2, hside⟩

theorem count_pool (h : Registry x) (kind : Kind) : x.scheduler.pool.count kind =
    x.countHeld fun errand => (errand.news? x.scheduler).isNone && errand.seeks kind := by
  have halone : ∀ {lane other c}, c ∈ x.scheduler.pool.line lane →
      c ∈ x.scheduler.pool.line other → lane = other := by
    intro lane other c hin hin'
    have hwork : (Errand.work lane c).IsRegistered x.scheduler := hin
    have hwork' : (Errand.work other c).IsRegistered x.scheduler := hin'
    exact (Errand.work.inj (h.eq_of_side hwork' hwork rfl)).1
  have hnodup : (x.scheduler.pool.waiting kind).Nodup := Lanes.nodup_waiting h.once halone
  rw [Lanes.count, ← List.length_map Side.poll]
  refine h.length_eq (hnodup.map fun c d heq => Side.poll.inj heq) fun side => ?_
  simp only [List.mem_map, Lanes.mem_waiting]
  constructor
  · rintro ⟨c, ⟨lane, hkind, hin⟩, rfl⟩
    exact ⟨.work lane c, hin, by simp [Errand.seeks, hkind], rfl⟩
  · rintro ⟨errand, hin, hp, rfl⟩
    cases errand with
    | work lane c => exact ⟨c, ⟨lane, by simpa [Errand.seeks] using hp, hin⟩, rfl⟩
    | result task c => cases hp

theorem size_producers (h : Registry x) : x.scheduler.producers.size =
    x.countHeld fun errand => (errand.news? x.scheduler).isNone && errand.awaitsResult := by
  have hmem : ∀ {entry : TaskId × ConnectionId}, entry ∈ x.scheduler.producers.toList ↔
      (Errand.result entry.1 entry.2).IsRegistered x.scheduler :=
    Std.ExtTreeMap.mem_toList_iff_getElem?_eq_some
  rw [← Std.ExtTreeMap.length_toList, ← List.length_map fun entry => Side.request entry.2]
  refine h.length_eq ?_ fun side => ?_
  · rw [List.Nodup, List.pairwise_map]
    refine Std.ExtTreeMap.distinct_keys_toList.imp_of_mem ?_
    intro entry other hentry hother hne hside
    have heq := h.eq_of_side (hmem.mp hentry) (hmem.mp hother) hside.symm
    exact hne (Std.LawfulEqOrd.compare_eq_iff_eq.mpr (Errand.result.inj heq).1.symm)
  · simp only [List.mem_map, hmem]
    constructor
    · rintro ⟨entry, hin, rfl⟩
      exact ⟨_, hin, rfl, rfl⟩
    · rintro ⟨errand, hin, hp, rfl⟩
      cases errand with
      | work lane c => cases hp
      | result task c => exact ⟨(task, c), hin, rfl⟩

theorem counts (h : Registry x) : x.Counts fun errand => (errand.news? x.scheduler).isNone :=
  ⟨h.count_pool .regional, h.count_pool .priority, h.size_producers⟩

end Registry

/-! ### Every run -/

/-- To a held request that has nothing to do nothing has come. -/
theorem Housed.news?_of_atRest (hx : Housed x) (hrest : x.AtRest)
    (hid : x.errandOf? id = some errand) : errand.news? x.scheduler = none := by
  by_contra hne
  have hholds : Holds x id errand := ⟨hx, Option.map_eq_some_iff.mp hid⟩
  obtain ⟨a, ha, ending, hend⟩ := hholds.next default (Option.ne_none_iff_exists'.mp hne)
  have hsame : (⟨x, default, a⟩ : Event).after = x := by
    refine hrest default id a ?_
    rcases ha with rfl | rfl | rfl <;> simp
  have hgone := (hholds.ended (e := ⟨x, default, a⟩) hend).held
  rw [hsame] at hgone
  rw [errandOf?, hgone] at hid
  cases hid

/-- Those of whom the same holds are counted alike. -/
theorem countHeld_congr {p q : Errand → Bool}
    (h : ∀ id errand, x.errandOf? id = some errand → p errand = q errand) :
    x.countHeld p = x.countHeld q := by
  refine List.countP_congr fun entry hentry => ?_
  have hid : x.service.held[entry.1]? = some entry.2 :=
    Std.ExtTreeMap.mem_toList_iff_getElem?_eq_some.mp hentry
  rw [h entry.1 entry.2.errand (by rw [errandOf?, hid, Option.map_some])]

/-- Those who are registered are the held requests to which nothing has come, as long as callers
keep to the work of the house. -/
theorem registered_run (settings : Settings) (acts : List (Moment × Act))
    (hhouse : ∀ a ∈ acts, a.2.OfHouse) : Registered ((new settings).run acts) := by
  have h := registry_run settings hhouse
  have hcounts := h.counts
  refine ⟨fun errand hin => ?_, h.once, fun id errand hid hnone => ?_, hcounts, fun hrest => ?_,
    fun hnone => ?_⟩
  · obtain ⟨id, hid, hnone⟩ := (h.iff errand).mp hin
    exact ⟨(kept_run hhouse hid hnone).2, id, hid, fun other errand' hother hside =>
      (h.housed.eq_of_side hid hother hside).1⟩
  · exact (h.iff errand).mpr ⟨id, hid, hnone⟩
  · have hall : ∀ p : Errand → Bool, (((new settings).run acts).countHeld fun errand =>
        (errand.news? ((new settings).run acts).scheduler).isNone && p errand) =
        ((new settings).run acts).countHeld fun errand => true && p errand := fun p =>
      countHeld_congr fun id errand hid => by rw [h.housed.news?_of_atRest hrest hid]; rfl
    exact ⟨hcounts.regional.trans (hall _), hcounts.priority.trans (hall _),
      hcounts.requesters.trans (hall _)⟩
  · have hzero : ∀ p, ((new settings).run acts).countHeld p = 0 := fun p => by
      refine List.countP_eq_zero.mpr fun entry hentry => ?_
      have hid : ((new settings).run acts).service.held[entry.1]? = some entry.2 :=
        Std.ExtTreeMap.mem_toList_iff_getElem?_eq_some.mp hentry
      have hno := hnone entry.1
      rw [errandOf?, hid] at hno
      cases hno
    exact ⟨hcounts.regional.trans (hzero _), hcounts.priority.trans (hzero _),
      hcounts.requesters.trans (hzero _)⟩

/-- A worker waits, a batch comes and its task goes to the worker, whose peer is gone; another
worker polls, and only then what the first one left is taken away. -/
def deserted : List (Moment × Act) :=
  [.receive ⟨"POST", "/dequeue/regional/g/1", [], .empty⟩,
    .call (.enqueueBatch [⟨some ⟨"job"⟩, ⟨"g", "1"⟩, default⟩]), .desert ⟨0⟩,
    .receive ⟨"POST", "/dequeue/regional/g/1", [], .empty⟩, .clear ⟨0⟩].map (default, ·)

/-- The other worker is held still, and stands in no line, as the task has come to it. -/
theorem registered_deserted :
    (∀ a ∈ deserted, a.2.OfHouse) ∧ Registered ((new .standard).run deserted) ∧
      ((new .standard).run deserted).countHeld (·.seeks .regional) = 1 ∧
      ((new .standard).run deserted).scheduler.counts.parkedRegional = 0 := by
  have hhouse : ∀ a ∈ deserted, a.2.OfHouse := by decide
  exact ⟨hhouse, registered_run .standard deserted hhouse, by decide +kernel⟩

end Session

end TaskExchange
