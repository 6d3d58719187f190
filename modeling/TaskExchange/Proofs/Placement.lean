import Mathlib.Data.Finset.Basic
import TaskExchange.Proofs.Handover

/-!
Placement: where the tasks of the table are.  A queued task stands once in its own line and nowhere
else, a task in flight stands in no line.  While an operation is under way some queued tasks are in
its hand: they have just been accepted or taken back and stand nowhere yet.  Main statements: what
the small moves do to `Placed`, the agreement of the table, the lines and the deliveries.
-/

namespace TaskExchange.Scheduler

/-- The table, the lines and the deliveries agree on every task, but for the tasks in `hand`, which
are queued and stand nowhere. -/
structure Placed (s : Scheduler) (hand : Finset TaskId) : Prop where
  key : ∀ {id : TaskId} {t : Task}, s.tasks[id]? = some t → t.id = id
  queued : ∀ {id : TaskId} {t : Task}, s.tasks[id]? = some t → t.state = .queued → id ∉ hand →
    id ∈ s.queues.line t.lane
  inLine : ∀ {lane : Lane} {id : TaskId}, id ∈ s.queues.line lane →
    id ∉ hand ∧ ∃ t, s.tasks[id]? = some t ∧ t.state = .queued ∧ t.lane = lane
  once : ∀ lane, (s.queues.line lane).Nodup
  inHand : ∀ {id : TaskId}, id ∈ hand → ∃ t, s.tasks[id]? = some t ∧ t.state = .queued
  inFlight : ∀ {id : TaskId}, id ∈ s.inFlight ↔ ∃ t, s.tasks[id]? = some t ∧ t.state = .inFlight
  given : ∀ {id : TaskId} {t : Task}, s.tasks[id]? = some t → t.state = .inFlight → 0 < t.deliveries

variable {s s' : Scheduler} {hand : Finset TaskId} {t : Task}

namespace Placed

theorem new (limits : Limits) : Placed (.new limits) ∅ := by
  constructor <;> simp [Scheduler.new]

/-- Only the table, the lines and the deliveries matter. -/
theorem congr (hp : Placed s hand) (ht : s'.tasks = s.tasks) (hq : s'.queues = s.queues)
    (hf : s'.inFlight = s.inFlight) : Placed s' hand := by
  obtain ⟨key, queued, line, once, inHand, flight, given⟩ := hp
  constructor <;> simp only [ht, hq, hf] <;> assumption

theorem not_inFlight (hp : Placed s hand) (ht : s.tasks[t.id]? = some t) (hq : t.state = .queued) :
    t.id ∉ s.inFlight := by
  intro hf
  obtain ⟨u, hu, hstate⟩ := hp.inFlight.mp hf
  rw [ht] at hu
  cases hu
  simp [hq] at hstate

theorem eq_lane (hp : Placed s hand) {id : TaskId} {lane : Lane} (hid : id ∈ s.queues.line lane)
    (ht : s.tasks[id]? = some t) : t.lane = lane := by
  obtain ⟨-, u, hu, -, hlane⟩ := hp.inLine hid
  rw [ht] at hu
  cases hu
  exact hlane

/-- A task leaves its line for the hand. -/
theorem leave (hp : Placed s hand) {lane : Lane} {xs : List TaskId} {id : TaskId}
    (hline : (s.queues.line lane).Perm (id :: xs)) :
    Placed { s with queues := s.queues.setLine lane xs } (insert id hand) := by
  have hnodup : (id :: xs).Nodup := hline.nodup_iff.mp (hp.once lane)
  have hmem : ∀ x, x ∈ s.queues.line lane ↔ x = id ∨ x ∈ xs := fun x => by
    rw [hline.mem_iff, List.mem_cons]
  obtain ⟨hhand, t, ht, hstate, hlane⟩ := hp.inLine ((hmem id).mpr (Or.inl rfl))
  refine ⟨hp.key, ?_, ?_, ?_, ?_, hp.inFlight, hp.given⟩
  · intro x u hu hq hx
    rw [Finset.mem_insert, not_or] at hx
    have hin := hp.queued hu hq hx.2
    rw [Lanes.line_setLine]
    split
    · next h => exact ((hmem x).mp (h ▸ hin)).resolve_left hx.1
    · exact hin
  · intro other x hx
    rw [Lanes.line_setLine] at hx
    have hxid : x ≠ id ∧ x ∈ s.queues.line other := by
      split at hx
      · next h =>
        exact ⟨fun e => (List.nodup_cons.mp hnodup).1 (e ▸ hx), h ▸ (hmem x).mpr (Or.inr hx)⟩
      · next h =>
        refine ⟨fun e => h ?_, hx⟩
        subst e
        rw [← hlane, hp.eq_lane hx ht]
    obtain ⟨hxhand, hrest⟩ := hp.inLine hxid.2
    exact ⟨by simp [hxid.1, hxhand], hrest⟩
  · intro other
    rw [Lanes.line_setLine]
    split
    · exact (List.nodup_cons.mp hnodup).2
    · exact hp.once other
  · intro x hx
    rcases Finset.mem_insert.mp hx with rfl | hx
    · exact ⟨t, ht, hstate⟩
    · exact hp.inHand hx

/-- A task joins its line out of the hand. -/
theorem join (hp : Placed s hand) (ht : s.tasks[t.id]? = some t) (hh : t.id ∈ hand)
    {xs : List TaskId} (hxs : xs.Perm (t.id :: s.queues.line t.lane)) :
    Placed { s with queues := s.queues.setLine t.lane xs } (hand.erase t.id) := by
  have hmem : ∀ x, x ∈ xs ↔ x = t.id ∨ x ∈ s.queues.line t.lane := fun x => by
    rw [hxs.mem_iff, List.mem_cons]
  have habsent : ∀ lane, t.id ∉ s.queues.line lane := fun lane hin => (hp.inLine hin).1 hh
  obtain ⟨u, hu, hstate⟩ := hp.inHand hh
  rw [ht] at hu
  cases hu
  refine ⟨hp.key, ?_, ?_, ?_, fun hx => hp.inHand (Finset.mem_of_mem_erase hx), hp.inFlight,
    hp.given⟩
  · intro x u hu hq hx
    rw [Lanes.line_setLine]
    by_cases hid : x = t.id
    · subst hid
      rw [ht] at hu
      cases hu
      simp [hmem]
    · have hin := hp.queued hu hq fun h => hx (Finset.mem_erase.mpr ⟨hid, h⟩)
      split
      · next h => exact (hmem x).mpr (Or.inr (h ▸ hin))
      · exact hin
  · intro other x hx
    rw [Lanes.line_setLine] at hx
    split at hx
    · next h =>
      rcases (hmem x).mp hx with rfl | hx
      · exact ⟨Finset.notMem_erase _ _, t, ht, hstate, h⟩
      · obtain ⟨hxhand, hrest⟩ := hp.inLine hx
        exact ⟨fun hin => hxhand (Finset.mem_of_mem_erase hin), h ▸ hrest⟩
    · obtain ⟨hxhand, hrest⟩ := hp.inLine hx
      exact ⟨fun hin => hxhand (Finset.mem_of_mem_erase hin), hrest⟩
  · intro other
    rw [Lanes.line_setLine]
    split
    · exact hxs.nodup_iff.mpr (List.nodup_cons.mpr ⟨habsent _, hp.once _⟩)
    · exact hp.once other

/-- A task is given out of the hand. -/
theorem deliver (hp : Placed s hand) (now : Moment) (hh : t.id ∈ hand) :
    Placed (s.deliver now t) (hand.erase t.id) := by
  have htask : ∀ x, (s.deliver now t).tasks[x]? = if t.id = x then some t.dispatch
      else s.tasks[x]? := fun x => by
    simp [Scheduler.deliver, Std.ExtTreeMap.getElem?_insert]
  have habsent : ∀ lane, t.id ∉ s.queues.line lane := fun lane hin => (hp.inLine hin).1 hh
  refine ⟨?_, ?_, ?_, hp.once, ?_, ?_, ?_⟩
  · intro x u hu
    rw [htask] at hu
    split at hu
    · next h => cases hu; exact h
    · exact hp.key hu
  · intro x u hu hq hx
    rw [htask] at hu
    split at hu
    · cases hu
      simp [Task.dispatch] at hq
    · next h => exact hp.queued hu hq fun hin => hx (Finset.mem_erase.mpr ⟨Ne.symm h, hin⟩)
  · intro lane x hx
    have hne : t.id ≠ x := fun h => habsent lane (h ▸ hx)
    obtain ⟨hxhand, hrest⟩ := hp.inLine hx
    rw [htask, if_neg hne]
    exact ⟨fun hin => hxhand (Finset.mem_of_mem_erase hin), hrest⟩
  · intro x hx
    obtain ⟨hne, hx⟩ := Finset.mem_erase.mp hx
    rw [htask, if_neg (Ne.symm hne)]
    exact hp.inHand hx
  · intro x
    rw [htask]
    by_cases h : t.id = x
    · simp [Scheduler.deliver, Std.ExtTreeMap.mem_insert, h, Task.dispatch]
    · simpa [Scheduler.deliver, Std.ExtTreeMap.mem_insert, h] using hp.inFlight
  · intro x u hu hf
    rw [htask] at hu
    split at hu
    · cases hu
      exact Nat.succ_pos _
    · exact hp.given hu hf

end Placed

end TaskExchange.Scheduler
