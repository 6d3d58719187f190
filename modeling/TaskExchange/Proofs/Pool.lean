import TaskExchange.Proofs.Parking
import TaskExchange.Proofs.Rows

/-!
Pool: what the scheduler asks of the pool of workers.  It changes the line of a lane in ways of its
own, but what it does can be had by calls: a worker that begins to wait registers, one that stops
waiting is removed, and between these some workers are taken from the heads of lines.  Main
statements: `pool_run`, and for runs in which no connection is polled on twice `line_pool`: the pool
has the workers that began to wait and were neither removed nor taken, lane by lane in their order.
-/

namespace TaskExchange

namespace Lanes

variable {α : Type} {calls : List (Call α)}

def Call.isTake : Call α → Bool
  | take _ => true
  | _ => false

theorem joined_filter (calls : List (Call α)) :
    joined (calls.filter (!·.isTake)) = joined calls := by
  rw [joined, joined, List.filterMap_filter]
  refine List.filterMap_congr fun call _ => ?_
  cases call <;> rfl

variable [DecidableEq α] {m m' m'' : Lanes α} {listed more : List (Call α)}

/-- The one becomes the other by these calls, among which there may be others that take. -/
def Leads (m : Lanes α) (listed : List (Call α)) (m' : Lanes α) : Prop :=
  ∃ calls, after step m calls = m' ∧ calls.filter (!·.isTake) = listed

namespace Leads

theorem refl (m : Lanes α) : Leads m [] m := ⟨[], rfl, rfl⟩

theorem trans (h : Leads m listed m') (h' : Leads m' more m'') : Leads m (listed ++ more) m'' := by
  obtain ⟨calls, rfl, rfl⟩ := h
  obtain ⟨calls', rfl, rfl⟩ := h'
  exact ⟨calls ++ calls', List.foldl_append, List.filter_append ..⟩

theorem register (m : Lanes α) (lane : Lane) (x : α) :
    Leads m [.register lane x] (m.pushBack lane x) := ⟨[.register lane x], rfl, rfl⟩

/-- Those in front are taken one by one. -/
theorem take {lane : Lane} {rest : List α} : ∀ {front : List α} {m : Lanes α},
    m.line lane = front ++ rest → Leads m [] (m.setLine lane rest)
  | [], m, h => by
    have hsame : m.setLine lane rest = m := by
      rw [← show m.line lane = rest from h, setLine_line]
    exact hsame.symm ▸ refl m
  | x :: front, m, h => by
    have hfirst : Leads m [] (m.setLine lane (front ++ rest)) :=
      ⟨[.take lane], congrArg Prod.snd (step_take_of_cons h), rfl⟩
    have hrest : Leads (m.setLine lane (front ++ rest)) []
        ((m.setLine lane (front ++ rest)).setLine lane rest) := take (line_setLine_self ..)
    rw [setLine_setLine] at hrest
    exact hfirst.trans hrest

/-- Who is not to be kept is removed, if he is there. -/
theorem remove (m : Lanes α) (lane : Lane) (x : α) :
    Leads m [.remove lane x] (m.keep lane (· ≠ x)) := by
  refine ⟨[.remove lane x], ?_, rfl⟩
  change (m.step (.remove lane x)).2 = m.keep lane (· ≠ x)
  by_cases h : x ∈ m.line lane
  · rw [step_remove_of_mem h]
  · have hall : (m.line lane).filter (· ≠ x) = m.line lane :=
      List.filter_eq_self.mpr fun y hy => decide_eq_true fun heq => h (heq ▸ hy)
    rw [step_remove_of_notMem h, keep, hall, setLine_line]

end Leads

end Lanes

namespace Scheduler

/-- What an event asks of the pool before tasks are passed on: a worker that begins to wait
registers, and one that stops waiting is removed. -/
def Event.call? (e : Event) : Option (Lanes.Call ConnectionId) :=
  match e.op, e.outcome with
  | .poll lane c, .polled .parked => some (.register lane c)
  | .releasePoll lane c, _ => some (.remove lane c)
  | .abandonPoll lane c, _ => some (.remove lane c)
  | _, _ => none

variable {now : Moment} {s s' : Scheduler} {hand hand' : Finset TaskId} {log : List Handover}
  {lane : Lane} {c : ConnectionId}

/-- The workers that are tried on a task are taken from the head of its lane. -/
theorem Shift.leads_pool (h : Shift now s hand log s' hand') : s.pool.Leads [] s'.pool := by
  cases h with
  | @give t dead c rest _ _ _ hline =>
    have hline' : s.pool.line t.lane = (dead ++ [c]) ++ rest := by simp [hline]
    exact .take hline'
  | drop => exact .take (List.append_nil _).symm
  | join => exact .refl _
  | take => exact .refl _

theorem Shifts.leads_pool (h : Shifts now s hand log s' hand') : s.pool.Leads [] s'.pool := by
  induction h with
  | refl => exact .refl _
  | tail _ hshift ih => exact ih.trans hshift.leads_pool

namespace Event

theorem leads_pool (e : Event) : e.before.pool.Leads e.call?.toList e.pool := by
  obtain ⟨s, now, op⟩ := e
  cases op with
  | poll lane c =>
    rw [call?, pool]
    cases houtcome : Event.outcome ⟨s, now, .poll lane c⟩ with
    | polled p =>
      cases p with
      | parked => exact .register s.pool lane c
      | dispatched => exact .refl _
    | _ => exact .refl _
  | releasePoll lane c => exact .remove s.pool lane c
  | abandonPoll lane c => exact .remove s.pool lane c
  | _ => exact .refl _

theorem leads_after (e : Event) (hs : Sound e.before ∅) :
    e.before.pool.Leads e.call?.toList e.after.pool := by
  obtain ⟨mid, he⟩ := e.enters hs
  have hpassed := he.shifts.leads_pool
  rw [he.pool] at hpassed
  simpa using e.leads_pool.trans hpassed

/-- Who registers is who begins to wait. -/
theorem joins?_eq_some_iff (e : Event) : e.call?.bind Lanes.Call.joins? = some (lane, c) ↔
    e.op = .poll lane c ∧ e.outcome = .polled .parked := by
  obtain ⟨s, now, op⟩ := e
  cases op with
  | poll other d =>
    rw [call?]
    cases houtcome : Event.outcome ⟨s, now, .poll other d⟩ with
    | polled p => cases p <;> simp [Lanes.Call.joins?]
    | _ => simp
  | _ => simp [call?, Lanes.Call.joins?]

end Event

theorem rowsOf_joined (events : List Event) (lane : Lane) :
    Lanes.rowsOf (Lanes.joined (events.filterMap Event.call?)) lane = parkedIn lane events := by
  have hparks : ∀ e : Event, ((e.call?.bind Lanes.Call.joins?).filter (·.1 = lane)).map (·.2) =
      e.parksIn? lane := by
    refine fun e => Option.ext fun c => ?_
    rw [Event.parksIn?_eq_some_iff, ← e.joins?_eq_some_iff]
    simp [and_comm]
  rw [Lanes.rowsOf, Lanes.joined, List.filterMap_filterMap, List.filter_filterMap,
    List.map_filterMap, parkedIn]
  exact List.filterMap_congr fun e _ => hparks e

/-- Whatever is done to the scheduler, its pool is what these calls make of it, and others that
take. -/
theorem pool_run (limits : Limits) (steps : List (Moment × Operation)) :
    ∃ calls, Lanes.run calls = ((new limits).run steps).pool ∧
      calls.filter (!·.isTake) = ((new limits).trace steps).filterMap Event.call? := by
  refine (Sound.new limits).trace_induction
    (P := fun past s => Lanes.empty.Leads (past.filterMap Event.call?) s.pool) (.refl _) ?_
  intro past e _ hs hpast
  have hlisted : (past ++ [e]).filterMap Event.call? =
      past.filterMap Event.call? ++ e.call?.toList := by
    cases h : e.call? <;> simp [h]
  rw [hlisted]
  exact hpast.trans (e.leads_after hs)

/-- If no connection is polled on twice, nobody registers twice by these calls, and so in each lane
are the workers that began to wait there and were neither taken nor removed, in their order. -/
theorem line_pool (limits : Limits) (steps : List (Moment × Operation))
    (hdistinct : (steps.filterMap (·.2.polledOn?)).Nodup) :
    ∃ calls, Lanes.run calls = ((new limits).run steps).pool ∧
      calls.filter (!·.isTake) = ((new limits).trace steps).filterMap Event.call? ∧
      Lanes.Distinct calls ∧ ∀ lane, ((new limits).run steps).pool.line lane =
        (parkedIn lane ((new limits).trace steps)).filter fun c => (lane, c) ∉ Lanes.gone calls := by
  obtain ⟨calls, hrun, hlisted⟩ := pool_run limits steps
  have hjoined : Lanes.joined calls =
      Lanes.joined (((new limits).trace steps).filterMap Event.call?) := by
    rw [← hlisted, Lanes.joined_filter]
  have hcalls : Lanes.Distinct calls := by
    rw [← polledOn_trace steps (new limits)] at hdistinct
    rw [Lanes.Distinct, hjoined, Lanes.joined, List.filterMap_filterMap, List.map_filterMap]
    refine nodup_filterMap hdistinct fun {e c} h => ?_
    obtain ⟨⟨lane, d⟩, hjoins, rfl⟩ := Option.map_eq_some_iff.mp h
    exact polledOn?_of_poll (e.joins?_eq_some_iff.mp hjoins).1
  refine ⟨calls, hrun, hlisted, hcalls, fun lane => ?_⟩
  rw [← hrun, (Lanes.told_run calls hcalls).line_eq, Lanes.rows_eq_filter, hjoined, rowsOf_joined]

end Scheduler

end TaskExchange
