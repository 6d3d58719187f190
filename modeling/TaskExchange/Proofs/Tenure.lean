import TaskExchange.Proofs.Ownership

/-!
Tenure: a request from the event on by which it is held until it is over.  Main statements: whatever
is held has begun to be (`begun_run`), and a request that is held goes on being held, or it has
ended once and is over for good (`Holds.run`); the event that ends it tells the two apart
(`Holds.split`).  Meanwhile and afterwards nobody else uses its waiting side.
-/

namespace TaskExchange.Session

open Scheduler (Operation)

/-- How a held request ended in these events. -/
def endings (id : HeldId) (events : List Event) : List Ending := events.filterMap (·.ending? id)

/-- None of these events of the scheduler uses a waiting side. -/
def Spares (side : Side) (log : List Scheduler.Event) : Prop :=
  ∀ d ∈ log, d.op.side? ≠ some side

/-- A request is held for an errand. -/
structure Holds (x : Session) (id : HeldId) (errand : Errand) : Prop where
  housed : Housed x
  held : ∃ h, x.service.held[id]? = some h ∧ h.errand = errand

/-- A request that was held with a waiting side is over. -/
structure Ended (x : Session) (id : HeldId) (side : Side) : Prop where
  housed : Housed x
  owns : Owns x id side
  held : x.service.held[id]? = none

variable {x : Session} {acts : List (Moment × Act)} {e : Event} {id : HeldId} {errand : Errand}
  {side : Side} {ending : Ending}

@[simp] theorem history_append (events more : List Event) :
    history (events ++ more) = history events ++ history more := List.flatMap_append

@[simp] theorem history_singleton (e : Event) : history [e] = e.calls := List.flatMap_singleton ..

@[simp] theorem endings_append (id : HeldId) (events more : List Event) :
    endings id (events ++ more) = endings id events ++ endings id more := List.filterMap_append

theorem endings_singleton_of_none (h : e.ending? id = none) : endings id [e] = [] := by
  simp [endings, h]

theorem endings_singleton_of_some (h : e.ending? id = some ending) : endings id [e] = [ending] := by
  simp [endings, h]

/-- Where a request ended, an event ended it. -/
theorem exists_of_mem_endings {events : List Event} (h : ending ∈ endings id events) :
    ∃ mid y rest, events = mid ++ y :: rest ∧ y.ending? id = some ending := by
  obtain ⟨y, hy, hend⟩ := List.mem_filterMap.mp h
  obtain ⟨mid, rest, rfl⟩ := List.append_of_mem hy
  exact ⟨mid, y, rest, rfl, hend⟩

theorem Spares.append {log more : List Scheduler.Event} (h : Spares side log)
    (hmore : Spares side more) : Spares side (log ++ more) := fun d hd =>
  (List.mem_append.mp hd).elim (h d) (hmore d)

/-! ### How a request begins -/

/-- A request that is held has begun to be. -/
theorem begun_run (settings : Settings) (acts : List (Moment × Act)) :
    ∀ id h, ((new settings).run acts).service.held[id]? = some h →
      ∃ e ∈ (new settings).trace acts, e.Begins id h.errand := by
  refine housed_induction (P := fun past x => ∀ id h, x.service.held[id]? = some h →
    ∃ e ∈ past, e.Begins id h.errand) (by simp [Session.new, Service.new]) ?_
  intro past e hx hpast id h hid
  rcases e.moves.held hx.sound hid with ⟨h', hh', herrand⟩ | ⟨rfl, -⟩
  · obtain ⟨d, hd, hbegins⟩ := hpast id h' hh'
    exact ⟨d, List.mem_append_left _ hd, herrand ▸ hbegins⟩
  · exact ⟨e, by simp, hx.held_nextHeld, by rw [hid]; rfl⟩

theorem Event.Begins.holds (hb : e.Begins id errand) (hx : Housed e.before) :
    Holds e.after id errand :=
  ⟨hx.after, Option.map_eq_some_iff.mp hb.2⟩

/-! ### While it is held -/

theorem Holds.owns (h : Holds x id errand) : Owns x id errand.side := by
  obtain ⟨held, hheld, rfl⟩ := h.held
  exact h.housed.owns hheld

/-- An event that does not end a request spares its waiting side. -/
theorem Event.spares (hs : Scheduler.Sound e.before.scheduler ∅) (ho : Owns e.before id side)
    (hnone : e.ending? id = none) : e.ended? ≠ some id ∧ Spares side e.calls := by
  have hended : e.ended? ≠ some id := fun hended => by
    obtain ⟨ending, hend⟩ := Event.exists_ending hended
    rw [hnone] at hend
    cases hend
  exact ⟨hended, fun d hd => e.moves.side?_ne hs ho hended (mem_of_mem_trace hd)⟩

theorem Holds.after (h : Holds e.before id errand) (hnone : e.ending? id = none) :
    Holds e.after id errand := by
  have howns := h.owns
  obtain ⟨held, hheld, rfl⟩ := h.held
  have hother := (Event.spares h.housed.sound howns hnone).1
  exact ⟨h.housed.after, e.moves.stays hheld howns.number hother⟩

/-- A request that is held ends in one of three ways. -/
theorem Holds.ends (h : Holds e.before id errand) (hend : e.ending? id = some ending) :
    ∃ op, e.operations = [op, errand.leaving] ∧ Ends e.before.scheduler errand ending op := by
  obtain ⟨held, hheld, rfl⟩ := h.held
  obtain ⟨held', op, hheld', -, hops, hends⟩ := Event.ends hend
  rw [hheld] at hheld'
  cases hheld'
  exact ⟨op, hops, hends⟩

theorem Holds.ended (h : Holds e.before id errand) (hend : e.ending? id = some ending) :
    Ended e.after id errand.side where
  housed := h.housed.after
  owns := h.owns.after h.housed.sound
  held := Moves.held_of_ended (Event.ended?_of_ending? hend ▸ e.moves)

/-- A request to which something has come can end at once, however far it is. -/
theorem Holds.next (h : Holds x id errand) (now : Moment)
    (hnews : ∃ response, errand.news? x.scheduler = some response) :
    ∃ a, (a = .read id ∨ a = .release id ∨ a = .clear id) ∧
      ∃ ending, (⟨x, now, a⟩ : Event).ending? id = some ending := by
  obtain ⟨⟨errand, deadline, stage⟩, hheld, rfl⟩ := h.held
  obtain ⟨response, hnews⟩ := hnews
  have hstage : x.service.heldAt id stage = some errand := by simp [Service.heldAt, hheld]
  cases stage with
  | waiting =>
    refine ⟨.read id, Or.inl rfl, Event.exists_ending ?_⟩
    simp [Event.ended?, stopping?, hstage, hnews]
  | timedOut =>
    refine ⟨.release id, Or.inr (Or.inl rfl), Event.exists_ending ?_⟩
    simp [Event.ended?, stopping?, hstage]
  | deserted =>
    refine ⟨.clear id, Or.inr (Or.inr rfl), Event.exists_ending ?_⟩
    simp [Event.ended?, stopping?, hstage]

/-! ### When it is over -/

/-- A request that is over stays so and does not end again. -/
theorem Ended.after (h : Ended e.before id side) :
    e.ending? id = none ∧ Ended e.after id side := by
  have hnone : e.ending? id = none := by
    cases hend : e.ending? id with
    | none => rfl
    | some ending =>
      obtain ⟨held, -, hheld, -⟩ := Event.ends hend
      rw [h.held] at hheld
      cases hheld
  refine ⟨hnone, h.housed.after, h.owns.after h.housed.sound, ?_⟩
  cases hheld : e.after.service.held[id]? with
  | none => rfl
  | some held =>
    rcases e.moves.held h.housed.sound hheld with ⟨held', hheld', -⟩ | ⟨rfl, -⟩
    · rw [h.held] at hheld'
      cases hheld'
    · exact absurd h.owns.number (Nat.lt_irrefl _)

theorem Ended.run (h : Ended x id side) (acts : List (Moment × Act)) :
    endings id (x.trace acts) = [] ∧ Ended (x.run acts) id side ∧
      Spares side (history (x.trace acts)) := by
  refine trace_induction (P := fun past x => endings id past = [] ∧ Ended x id side ∧
    Spares side (history past)) ⟨rfl, h, by simp [Spares, history]⟩ ?_
  rintro past e ⟨hends, h, hspares⟩
  obtain ⟨hnone, hafter⟩ := h.after
  refine ⟨?_, hafter, ?_⟩
  · rw [endings_append, hends, endings_singleton_of_none hnone, List.nil_append]
  · rw [history_append, history_singleton]
    exact hspares.append (Event.spares h.housed.sound h.owns hnone).2

/-- A request that is held is held on, its waiting side spared, or it has ended once. -/
theorem Holds.run (h : Holds x id errand) (acts : List (Moment × Act)) :
    (endings id (x.trace acts) = [] ∧ Holds (x.run acts) id errand ∧
        Spares errand.side (history (x.trace acts))) ∨
      ∃ ending, endings id (x.trace acts) = [ending] ∧ Ended (x.run acts) id errand.side := by
  refine trace_induction (P := fun past x =>
    (endings id past = [] ∧ Holds x id errand ∧ Spares errand.side (history past)) ∨
      ∃ ending, endings id past = [ending] ∧ Ended x id errand.side)
    (Or.inl ⟨rfl, h, by simp [Spares, history]⟩) ?_
  rintro past e (⟨hends, h, hspares⟩ | ⟨ending, hends, h⟩)
  · cases hend : e.ending? id with
    | none =>
      refine Or.inl ⟨?_, h.after hend, ?_⟩
      · rw [endings_append, hends, endings_singleton_of_none hend, List.nil_append]
      · rw [history_append, history_singleton]
        exact hspares.append (Event.spares h.housed.sound h.owns hend).2
    | some ending =>
      refine Or.inr ⟨ending, ?_, h.ended hend⟩
      rw [endings_append, hends, endings_singleton_of_some hend, List.nil_append]
  · obtain ⟨hnone, hafter⟩ := h.after
    refine Or.inr ⟨ending, ?_, hafter⟩
    rw [endings_append, hends, endings_singleton_of_none hnone, List.append_nil]

/-- The event that ends a request finds it held, and nothing ends it again. -/
theorem Holds.split (h : Holds x id errand) {mid rest : List Event} {y : Event}
    (hsplit : x.trace acts = mid ++ y :: rest) (hend : y.ending? id = some ending) :
    endings id (x.trace acts) = [ending] ∧ Holds y.before id errand ∧
      Spares errand.side (history mid) ∧ Ended (x.run acts) id errand.side ∧
      Spares errand.side (history rest) := by
  obtain ⟨us, vs, rfl, hbefore, rfl, hlast⟩ := trace_split hsplit
  rcases h.run us with ⟨hnone, hholds, hspares⟩ | ⟨-, -, hended⟩
  · rw [hbefore] at hholds
    obtain ⟨hrest, hended, hspares'⟩ := (hholds.ended hend).run vs
    refine ⟨?_, hholds, hspares, hlast ▸ hended, hspares'⟩
    rw [hsplit, endings_append, hnone, ← List.singleton_append, endings_append,
      endings_singleton_of_some hend, hrest, List.nil_append, List.append_nil]
  · rw [hbefore] at hended
    rw [hended.after.1] at hend
    cases hend

end TaskExchange.Session
