import TaskExchange.Proofs.Conduct

/-!
Ownership: every waiting side is used by one party.  A held request has one of its own, which it
alone uses from the moment it is opened, and which is never opened again.  Main statements: events
of a session keep it so (`Housed.after`, `Owns.after`), what others do names no waiting side of a
held request (`Moves.side?_ne`), and the operations of a session are a run of the scheduler
(`history_run`).
-/

namespace TaskExchange

open Scheduler (Operation)

/-! ### Connections that have been opened -/

namespace Switchboard

variable {α : Type}

theorem next_take (b : Switchboard α) (c : ConnectionId) : (b.take c).2.next = b.next := by
  rw [take]
  split <;> rfl

theorem next_send? {b b' : Switchboard α} {c : ConnectionId} {value : α}
    (h : b.send? c value = some b') : b'.next = b.next := by
  rw [send?] at h
  split at h
  · cases h
    rfl
  · cases h

end Switchboard

namespace Scheduler

/-- What an event does to the waiting sides of requests is what is recorded of it. -/
theorem Event.requesters_after (e : Event) (hs : Sound e.before ∅) :
    e.after.requesters = e.requesters := by
  obtain ⟨mid, he⟩ := e.enters hs
  exact he.shifts.books.requesters.trans he.requesters

theorem Event.polls_next (e : Event) (hs : Sound e.before ∅) :
    e.before.polls.next ≤ e.after.polls.next := by
  rw [e.polls_next_after hs]
  obtain ⟨s, now, op⟩ := e
  cases op with
  | openPoll => exact Nat.le_succ _
  | readPoll c => exact Nat.le_of_eq (s.polls.next_take c).symm
  | releasePoll lane c => exact Nat.le_of_eq (s.polls.next_take c).symm
  | abandonPoll lane c => exact Nat.le_of_eq (s.polls.next_take c).symm
  | _ => exact Nat.le_refl _

theorem Event.requesters_next (e : Event) (hs : Sound e.before ∅) :
    e.before.requesters.next ≤ e.after.requesters.next := by
  rw [e.requesters_after hs]
  obtain ⟨s, now, op⟩ := e
  cases op with
  | openRequest => exact Nat.le_succ _
  | readRequest c => exact Nat.le_of_eq (s.requesters.next_take c).symm
  | releaseRequest id c => exact Nat.le_of_eq (s.requesters.next_take c).symm
  | complete id result =>
    refine Nat.le_of_eq ?_
    simp only [requesters]
    cases h : (s.withdraw id).1.bind (s.requesters.send? · result) with
    | none => rfl
    | some requesters =>
      obtain ⟨c, -, hsend⟩ := Option.bind_eq_some_iff.mp h
      exact (Switchboard.next_send? hsend).symm
  | _ => exact Nat.le_refl _

end Scheduler

namespace Side

/-- The connection of this waiting side has been opened. -/
def Known (s : Scheduler) : Side → Prop
  | poll c => c.value < s.polls.next
  | request c => c.value < s.requesters.next

variable {s : Scheduler} {side : Side}

theorem Known.after {e : Scheduler.Event} (hs : Scheduler.Sound e.before ∅)
    (h : side.Known e.before) : side.Known e.after := by
  cases side with
  | poll c => exact Nat.lt_of_lt_of_le h (e.polls_next hs)
  | request c => exact Nat.lt_of_lt_of_le h (e.requesters_next hs)

theorem Known.run (hs : Scheduler.Sound s ∅) (h : side.Known s)
    (steps : List (Moment × Operation)) : side.Known (s.run steps) :=
  hs.trace_induction (P := fun _ s => side.Known s) h fun _ _ _ hs h => h.after hs

/-- What is opened was not open before. -/
theorem known_opened (e : Scheduler.Event) (h : e.op.opened? e.before = some side) :
    ¬ side.Known e.before ∧ side.Known e.after := by
  obtain ⟨s, now, op⟩ := e
  cases op with
  | openPoll =>
    cases h
    exact ⟨Nat.lt_irrefl _, Nat.lt_succ_self _⟩
  | openRequest =>
    cases h
    exact ⟨Nat.lt_irrefl _, Nat.lt_succ_self _⟩
  | _ => cases h

end Side

/-- A request that is to be held opens its own waiting side. -/
theorem Errand.Opening.known {s : Scheduler} {errand : Errand} {ops : List Operation}
    (h : errand.Opening s ops) (hs : Scheduler.Sound s ∅) (now : Moment) :
    ¬ errand.side.Known s ∧ errand.side.Known (Session.carriedOut s now ops) := by
  cases h with
  | work lane =>
    obtain ⟨hnot, hopened⟩ := Side.known_opened ⟨s, now, .openPoll⟩ rfl
    have hs' := Scheduler.Event.sound_after ⟨s, now, .openPoll⟩ hs
    exact ⟨hnot, hopened.run hs' [(now, .poll lane ⟨s.polls.next⟩)]⟩
  | result r =>
    obtain ⟨hnot, hopened⟩ := Side.known_opened ⟨s, now, .openRequest⟩ rfl
    have hs' := Scheduler.Event.sound_after ⟨s, now, .openRequest⟩ hs
    exact ⟨hnot, hopened.run hs' [(now, .submit r ⟨s.requesters.next⟩)]⟩

/-- It uses no other waiting side. -/
theorem Errand.Opening.side? {s : Scheduler} {errand : Errand} {ops : List Operation}
    {op : Operation} (h : errand.Opening s ops) (hop : op ∈ ops) :
    op.side? = none ∨ op.side? = some errand.side := by
  cases h with
  | work lane =>
    simp only [List.mem_cons, List.not_mem_nil, or_false] at hop
    rcases hop with rfl | rfl
    · exact Or.inl rfl
    · exact Or.inr rfl
  | result r =>
    simp only [List.mem_cons, List.not_mem_nil, or_false] at hop
    rcases hop with rfl | rfl
    · exact Or.inl rfl
    · exact Or.inr rfl

namespace Errand

theorem side?_leaving (errand : Errand) : errand.leaving.side? = some errand.side := by
  cases errand <;> rfl

/-- A held request stops waiting with an operation on its own waiting side, or on none. -/
theorem side?_of_mem_stops {errand : Errand} {op : Operation} (h : op ∈ errand.stops) :
    op.side? = some errand.side ∨ op.side? = none := by
  simp only [stops, List.mem_cons, List.not_mem_nil, or_false] at h
  rcases h with rfl | rfl | rfl
  · cases errand <;> exact Or.inl rfl
  · cases errand <;> exact Or.inl rfl
  · cases errand
    · exact Or.inl rfl
    · exact Or.inr rfl

end Errand

namespace Session

variable {now : Moment} {x x' : Session} {ops : List Operation} {stopped : Option HeldId}
  {id other : HeldId} {side : Side} {e : Event} {h : Held}

/-! ### What the moves do -/

namespace Moves

theorem scheduler (h : Moves now x ops stopped x') :
    x'.scheduler = carriedOut x.scheduler now ops := by
  cases h with
  | nothing hx' => exact hx'.scheduler
  | stage => rfl
  | call hmay =>
    rw [Session.call, if_pos hmay]
    rfl
  | serve => rfl
  | give _ hx' => exact hx'.scheduler
  | hold _ hx' => exact hx'.scheduler
  | stop _ _ hx' => exact hx'.scheduler

/-- What is held was held before for the same errand, or it has just begun and has a waiting side
of its own. -/
theorem held (hm : Moves now x ops stopped x') (hs : Scheduler.Sound x.scheduler ∅)
    (hid : x'.service.held[id]? = some h) :
    (∃ h', x.service.held[id]? = some h' ∧ h'.errand = h.errand) ∨
      (id = x.service.nextHeld ∧ x'.service.nextHeld.value = id.value + 1 ∧
        x'.callers = x.callers ∧ ¬ h.errand.side.Known x.scheduler ∧
        h.errand.side.Known x'.scheduler) := by
  cases hm with
  | nothing hx' => exact Or.inl ⟨h, hx'.held ▸ hid, rfl⟩
  | stage i stage =>
    simp only [Service.setStage, Std.ExtTreeMap.getElem?_modify] at hid
    split at hid
    · next hi =>
      rw [Std.LawfulEqOrd.compare_eq_iff_eq] at hi
      obtain ⟨h', hh', rfl⟩ := Option.map_eq_some_iff.mp hid
      exact Or.inl ⟨h', hi ▸ hh', rfl⟩
    · exact Or.inl ⟨h, hid, rfl⟩
  | call hmay =>
    rw [Session.call, if_pos hmay] at hid
    exact Or.inl ⟨h, hid, rfl⟩
  | serve => exact Or.inl ⟨h, hid, rfl⟩
  | give _ hx' => exact Or.inl ⟨h, hx'.held ▸ hid, rfl⟩
  | hold hopening hx' =>
    rw [hx'.held, Std.ExtTreeMap.getElem?_insert] at hid
    split at hid
    · next hi =>
      rw [Std.LawfulEqOrd.compare_eq_iff_eq] at hi
      cases hid
      obtain ⟨hnot, hknown⟩ := hopening.known hs now
      refine Or.inr ⟨hi.symm, ?_, hx'.callers, hnot, hx'.scheduler ▸ hknown⟩
      rw [hx'.next, hi]
    · exact Or.inl ⟨h, hid, rfl⟩
  | stop _ _ hx' =>
    rw [hx'.held, Std.ExtTreeMap.getElem?_erase] at hid
    split at hid
    · cases hid
    · exact Or.inl ⟨h, hid, rfl⟩

theorem callers (hm : Moves now x ops stopped x') (hside : side ∈ x'.callers) :
    side ∈ x.callers ∨ (¬ side.Known x.scheduler ∧ side.Known x'.scheduler) := by
  cases hm with
  | nothing hx' => exact Or.inl (hx'.callers ▸ hside)
  | stage => exact Or.inl hside
  | @call op hmay =>
    rw [Session.call, if_pos hmay] at hside ⊢
    rcases List.mem_append.mp hside with hside | hside
    · exact Or.inr (Side.known_opened ⟨x.scheduler, now, op⟩ (Option.mem_toList.mp hside))
    · exact Or.inl hside
  | serve => exact Or.inl hside
  | give _ hx' => exact Or.inl (hx'.callers ▸ hside)
  | hold _ hx' => exact Or.inl (hx'.callers ▸ hside)
  | stop _ _ hx' => exact Or.inl (hx'.callers ▸ hside)

theorem nextHeld (hm : Moves now x ops stopped x') :
    x.service.nextHeld.value ≤ x'.service.nextHeld.value := by
  cases hm with
  | nothing hx' => rw [hx'.next]
  | stage => exact Nat.le_refl _
  | call hmay =>
    rw [Session.call, if_pos hmay]
    exact Nat.le_refl _
  | serve => exact Nat.le_refl _
  | give _ hx' => rw [hx'.next]
  | hold _ hx' =>
    rw [hx'.next]
    exact Nat.le_succ _
  | stop _ _ hx' => rw [hx'.next]

/-- What is held stays so until it is over. -/
theorem stays (hm : Moves now x ops stopped x') (hid : x.service.held[id]? = some h)
    (hnumber : id.value < x.service.nextHeld.value) (hother : stopped ≠ some id) :
    ∃ h', x'.service.held[id]? = some h' ∧ h'.errand = h.errand := by
  cases hm with
  | nothing hx' => exact ⟨h, hx'.held ▸ hid, rfl⟩
  | stage i stage =>
    simp only [Service.setStage, Std.ExtTreeMap.getElem?_modify]
    split
    · next hi =>
      rw [Std.LawfulEqOrd.compare_eq_iff_eq] at hi
      rw [hi, hid]
      exact ⟨_, rfl, rfl⟩
    · exact ⟨h, hid, rfl⟩
  | call hmay =>
    rw [Session.call, if_pos hmay]
    exact ⟨h, hid, rfl⟩
  | serve => exact ⟨h, hid, rfl⟩
  | give _ hx' => exact ⟨h, hx'.held ▸ hid, rfl⟩
  | hold _ hx' =>
    have hne : x.service.nextHeld ≠ id := fun heq => Nat.lt_irrefl _ (heq ▸ hnumber)
    refine ⟨h, ?_, rfl⟩
    rw [hx'.held, Std.ExtTreeMap.getElem?_insert]
    simp [hne, hid]
  | @stop i _ _ _ _ _ hx' =>
    have hne : i ≠ id := fun heq => hother (congrArg some heq)
    refine ⟨h, ?_, rfl⟩
    rw [hx'.held, Std.ExtTreeMap.getElem?_erase]
    simp [hne, hid]

theorem held_of_ended (hm : Moves now x ops (some id) x') : x'.service.held[id]? = none := by
  cases hm with
  | stop _ _ hx' => rw [hx'.held, Std.ExtTreeMap.getElem?_erase_self]

end Moves

/-! ### Who uses which waiting side -/

/-- This waiting side is used by a held request alone, of this number, if by anyone. -/
structure Owns (x : Session) (id : HeldId) (side : Side) : Prop where
  known : side.Known x.scheduler
  apart : side ∉ x.callers
  alone : ∀ {other : HeldId} {h : Held}, x.service.held[other]? = some h →
    h.errand.side = side → other = id
  number : id.value < x.service.nextHeld.value

/-- Every held request has a waiting side of its own. -/
structure Housed (x : Session) : Prop where
  sound : Scheduler.Sound x.scheduler ∅
  callers : ∀ side ∈ x.callers, side.Known x.scheduler
  owns : ∀ {id : HeldId} {h : Held}, x.service.held[id]? = some h → Owns x id h.errand.side

theorem Housed.new (settings : Settings) : Housed (.new settings) where
  sound := .new settings.limits
  callers := by simp [Session.new]
  owns := by simp [Session.new, Service.new]

/-- The next number is nobody's. -/
theorem Housed.held_nextHeld (hx : Housed x) : x.service.held[x.service.nextHeld]? = none := by
  cases hheld : x.service.held[x.service.nextHeld]? with
  | none => rfl
  | some h => exact absurd (hx.owns hheld).number (Nat.lt_irrefl _)

theorem Event.known_after (hs : Scheduler.Sound e.before.scheduler ∅)
    (h : side.Known e.before.scheduler) : side.Known e.after.scheduler := by
  rw [e.moves.scheduler]
  exact h.run hs _

theorem Owns.after (ho : Owns e.before id side) (hs : Scheduler.Sound e.before.scheduler ∅) :
    Owns e.after id side where
  known := Event.known_after hs ho.known
  apart hin := (e.moves.callers hin).elim ho.apart fun hnew => hnew.1 ho.known
  alone := by
    rintro other h hother rfl
    rcases e.moves.held hs hother with ⟨h', hh', herrand⟩ | ⟨-, -, -, hnot, -⟩
    · exact ho.alone hh' (congrArg Errand.side herrand)
    · exact absurd ho.known hnot
  number := Nat.lt_of_lt_of_le ho.number e.moves.nextHeld

theorem Housed.after (hx : Housed e.before) : Housed e.after := by
  refine ⟨?_, ?_, ?_⟩
  · rw [e.moves.scheduler]
    exact hx.sound.run _
  · intro side hside
    rcases e.moves.callers hside with hold | ⟨-, hknown⟩
    · exact Event.known_after hx.sound (hx.callers side hold)
    · exact hknown
  · intro id h hid
    rcases e.moves.held hx.sound hid with ⟨h', hh', herrand⟩ | ⟨rfl, hnext, hcallers, hnot, hknown⟩
    · exact herrand ▸ (hx.owns hh').after hx.sound
    · refine ⟨hknown, ?_, ?_, by omega⟩
      · rw [hcallers]
        exact fun hin => hnot (hx.callers _ hin)
      · intro other h'' hother hside
        rcases e.moves.held hx.sound hother with ⟨h', hh', herrand⟩ | ⟨hnew, -⟩
        · exact absurd (hside ▸ herrand ▸ (hx.owns hh').known) hnot
        · exact hnew

theorem housed_run (settings : Settings) (acts : List (Moment × Act)) :
    Housed ((new settings).run acts) :=
  trace_induction (P := fun _ x => Housed x) (Housed.new settings) fun _ _ hx => hx.after

/-- Whatever happens in a run finds the requests that are held in order. -/
theorem housed_of_mem {settings : Settings} {acts : List (Moment × Act)} {e : Event}
    (he : e ∈ (new settings).trace acts) : Housed e.before := by
  obtain ⟨xs, -, hbefore, -⟩ := exists_runs_of_mem he
  exact hbefore ▸ housed_run settings xs

/-- Whatever holds of no events and a new session, and is kept when an event follows, holds of the
events of every run and the session that is reached. -/
theorem housed_induction {settings : Settings} {acts : List (Moment × Act)}
    {P : List Event → Session → Prop} (first : P [] (new settings))
    (next : ∀ past (e : Event), Housed e.before → P past e.before → P (past ++ [e]) e.after) :
    P ((new settings).trace acts) ((new settings).run acts) :=
  (trace_induction (P := fun past x => Housed x ∧ P past x) ⟨.new settings, first⟩
    fun past e h => ⟨h.1.after, next past e h.1 h.2⟩).2

/-- A waiting side is used by callers that opened it, by a request that has just opened it, or by
the request that it belongs to when this one ends. -/
theorem Moves.side?_cases (hm : Moves now x ops stopped x') (hs : Scheduler.Sound x.scheduler ∅)
    {op : Operation} (hop : op ∈ ops) (hside : op.side? = some side) :
    side ∈ x.callers ∨ (¬ side.Known x.scheduler ∧ side.Known x'.scheduler) ∨
      ∃ id h, stopped = some id ∧ x.service.held[id]? = some h ∧ h.errand.side = side := by
  cases hm with
  | nothing => cases hop
  | stage => cases hop
  | call hmay =>
    obtain rfl := List.mem_singleton.mp hop
    simp only [mayCall, hside, Option.all_some, decide_eq_true_eq] at hmay
    exact Or.inl hmay
  | serve hnone =>
    obtain rfl := List.mem_singleton.mp hop
    rw [hnone] at hside
    cases hside
  | @give lane _ _ hops hx' =>
    subst hops
    obtain ⟨hnot, hopened⟩ := Side.known_opened ⟨x.scheduler, now, .openPoll⟩ rfl
    have hs' := Scheduler.Event.sound_after ⟨x.scheduler, now, .openPoll⟩ hs
    have hnew : (Side.poll ⟨x.scheduler.polls.next⟩).Known x'.scheduler :=
      hx'.scheduler ▸ hopened.run hs' [(now, .poll lane ⟨x.scheduler.polls.next⟩),
        (now, .leavePoll ⟨x.scheduler.polls.next⟩)]
    simp only [List.mem_cons, List.not_mem_nil, or_false] at hop
    rcases hop with rfl | rfl | rfl
    · cases hside
    · cases hside
      exact Or.inr (Or.inl ⟨hnot, hnew⟩)
    · cases hside
      exact Or.inr (Or.inl ⟨hnot, hnew⟩)
  | @hold errand _ _ _ hopening hx' =>
    obtain ⟨hnot, hnew⟩ := hopening.known hs now
    rw [← hx'.scheduler] at hnew
    obtain rfl : errand.side = side := Option.some.inj ((hopening.side? hop).elim
      (fun hnone => absurd (hnone.symm.trans hside) (by simp)) fun hmine => hmine.symm.trans hside)
    exact Or.inr (Or.inl ⟨hnot, hnew⟩)
  | @stop id h _ _ hheld hstops =>
    refine Or.inr (Or.inr ⟨id, h, rfl, hheld, ?_⟩)
    simp only [List.mem_cons, List.not_mem_nil, or_false] at hop
    rcases hop with rfl | rfl
    · rcases Errand.side?_of_mem_stops hstops with hmine | hnone
      · exact Option.some.inj (hmine.symm.trans hside)
      · rw [hnone] at hside
        cases hside
    · exact Option.some.inj (h.errand.side?_leaving.symm.trans hside)

/-- What is done to others names no waiting side of a held request. -/
theorem Moves.side?_ne (hm : Moves now x ops stopped x') (hs : Scheduler.Sound x.scheduler ∅)
    (ho : Owns x id side) (hother : stopped ≠ some id) {op : Operation} (hop : op ∈ ops) :
    op.side? ≠ some side := by
  intro hside
  rcases hm.side?_cases hs hop hside with hcaller | ⟨hnot, -⟩ | ⟨i, h, hi, hheld, hmine⟩
  · exact ho.apart hcaller
  · exact hnot ho.known
  · exact hother (ho.alone hheld hmine ▸ hi)

/-- A waiting side that is used has been opened. -/
theorem Moves.side?_known (hm : Moves now x ops stopped x') (hx : Housed x) {op : Operation}
    (hop : op ∈ ops) (hside : op.side? = some side) : side.Known x'.scheduler := by
  have hstays : side.Known x.scheduler → side.Known x'.scheduler := fun h => by
    rw [hm.scheduler]
    exact h.run hx.sound _
  rcases hm.side?_cases hx.sound hop hside with hcaller | ⟨-, hnew⟩ | ⟨i, h, -, hheld, rfl⟩
  · exact hstays (hx.callers side hcaller)
  · exact hnew
  · exact hstays (hx.owns hheld).known

/-! ### The scheduler's run -/

/-- The operations of events are those that were carried out. -/
theorem mem_of_mem_trace {d : Scheduler.Event} {ops : List Operation} {s : Scheduler}
    (hd : d ∈ s.trace (ops.map (now, ·))) : d.op ∈ ops := by
  obtain ⟨op, hop, heq⟩ := List.mem_map.mp (Scheduler.mem_steps_of_mem_trace hd)
  cases heq
  exact hop

/-- The operations of a session are a run of the scheduler. -/
theorem history_run (x : Session) : ∀ acts : List (Moment × Act),
    ∃ steps, x.scheduler.trace steps = history (x.trace acts) ∧
      x.scheduler.run steps = (x.run acts).scheduler
  | [] => ⟨[], rfl, rfl⟩
  | (now, a) :: acts => by
    let e : Event := ⟨x, now, a⟩
    have hafter : x.scheduler.run (e.operations.map (now, ·)) = e.after.scheduler :=
      e.moves.scheduler.symm
    obtain ⟨steps, htrace, hrun⟩ := history_run e.after acts
    refine ⟨e.operations.map (now, ·) ++ steps, ?_, ?_⟩
    · rw [Scheduler.trace_append, hafter, htrace]
      rfl
    · rw [Scheduler.run, List.foldl_append]
      change (x.scheduler.run (e.operations.map (now, ·))).run steps = _
      rw [hafter, hrun]
      rfl

/-- All waiting sides that were used so far have been opened. -/
theorem used_run (settings : Settings) (acts : List (Moment × Act)) :
    ∀ d ∈ history ((new settings).trace acts), ∀ side, d.op.side? = some side →
      side.Known ((new settings).run acts).scheduler := by
  refine housed_induction (P := fun past x => ∀ d ∈ history past, ∀ side,
    d.op.side? = some side → side.Known x.scheduler) (by simp [history]) ?_
  intro past e hx hpast d hd side hside
  rw [history, List.flatMap_append, List.mem_append, List.flatMap_singleton] at hd
  rcases hd with hd | hd
  · exact Event.known_after hx.sound (hpast d hd side hside)
  · exact e.moves.side?_known hx (mem_of_mem_trace hd) hside

end Session

end TaskExchange
