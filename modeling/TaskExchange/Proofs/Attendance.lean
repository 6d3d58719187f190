import TaskExchange.Proofs.Abandonment
import TaskExchange.Proofs.Ownership

/-!
Attendance: a worker that waits on a connection, from its poll until it stops waiting.  Main
statements: a worker that stands in no line and does not poll is given nothing (`absent_trace`), one
that polls begins to wait (`Event.attends`), goes on waiting while others act, and is given one task
at most (`Attends.run`), and once it stops it is given nothing more (`Attends.stop`).
-/

namespace TaskExchange

open Scheduler (Operation)

namespace Scheduler

/-! ### Lines of workers -/

section

variable {e : Event} {c : ConnectionId} {lane : Lane}

/-- A worker that waits in a lane is told to stop waiting there. -/
def Event.Releases (e : Event) (lane : Lane) (c : ConnectionId) : Prop :=
  e.op = .releasePoll lane c ∨ e.op = .abandonPoll lane c

/-- A worker joins a line only when it polls. -/
theorem Event.count_pool_le (hop : ∀ lane, e.op ≠ .poll lane c) (other : Lane) :
    (e.pool.line other).count c ≤ (e.before.pool.line other).count c := by
  obtain ⟨s, now, op⟩ := e
  have hkeep : ∀ lane d, ((s.pool.keep lane (· ≠ d)).line other).count c ≤
      (s.pool.line other).count c := fun lane d =>
    (s.pool.line_keep_sublist lane other _).count_le c
  cases op with
  | poll lane d =>
    rw [pool]
    split
    · next heq _ =>
      cases heq
      have hne : d ≠ c := fun h => hop lane (h ▸ rfl)
      rw [Lanes.pushBack, Lanes.line_append]
      split
      · next hlane =>
        subst hlane
        simp [List.count_append, hne]
      · exact Nat.le_refl _
    · next heq => cases heq
    · next heq => cases heq
    · exact Nat.le_refl _
  | releasePoll lane d => exact hkeep lane d
  | abandonPoll lane d => exact hkeep lane d
  | _ => exact Nat.le_refl _

/-- A worker stands in its line when tasks are passed on, unless it is told to stop waiting. -/
theorem Event.mem_pool_or_releases (hin : c ∈ e.before.pool.line lane) :
    c ∈ e.pool.line lane ∨ e.Releases lane c := by
  obtain ⟨s, now, op⟩ := e
  have hkeep : ∀ other d, c ∈ (s.pool.keep other (· ≠ d)).line lane ∨ (other = lane ∧ d = c) := by
    intro other d
    rw [Lanes.line_keep]
    split
    · next hlane =>
      subst hlane
      by_cases hd : d = c
      · exact Or.inr ⟨rfl, hd⟩
      · exact Or.inl (List.mem_filter.mpr ⟨hin, by simpa using Ne.symm hd⟩)
    · exact Or.inl hin
  cases op with
  | poll other d =>
    refine Or.inl ?_
    rw [pool]
    split
    · next heq _ =>
      cases heq
      rw [Lanes.pushBack, Lanes.line_append]
      split
      · next hlane => exact List.mem_append_left _ (hlane ▸ hin)
      · exact hin
    · next heq => cases heq
    · next heq => cases heq
    · exact hin
  | releasePoll other d =>
    refine (hkeep other d).imp_right ?_
    rintro ⟨rfl, rfl⟩
    exact Or.inl rfl
  | abandonPoll other d =>
    refine (hkeep other d).imp_right ?_
    rintro ⟨rfl, rfl⟩
    exact Or.inr rfl
  | _ => exact Or.inl hin

/-- A worker that stands in no line when tasks are passed on is given none, and stands in no line
afterwards. -/
theorem Event.absent_of_pool (hs : Sound e.before ∅) (hpool : ∀ lane, c ∉ e.pool.line lane) :
    handedTo c e.handovers = [] ∧ ∀ lane, c ∉ e.after.pool.line lane := by
  obtain ⟨mid, he⟩ := e.enters hs
  rw [← he.pool] at hpool
  refine ⟨?_, fun lane hin => hpool lane ((he.shifts.suffix_pool lane).subset hin)⟩
  rcases he.shifts.handed c with ⟨hlog, -⟩ | ⟨t, dead, rest, -, -, -, hline, -⟩
  · exact hlog
  · exact absurd (hline.subset (List.mem_append_cons_self)) (hpool t.lane)

/-- A worker that stands in no line and does not poll is given nothing. -/
theorem Event.absent (hs : Sound e.before ∅) (hop : ∀ lane, e.op ≠ .poll lane c)
    (habsent : ∀ lane, c ∉ e.before.pool.line lane) :
    handedTo c e.handovers = [] ∧ ∀ lane, c ∉ e.after.pool.line lane := by
  refine absent_of_pool hs fun lane => ?_
  rw [← List.count_eq_zero] at *
  exact Nat.le_zero.mp ((count_pool_le hop lane).trans_eq (List.count_eq_zero.mpr (habsent lane)))

end

/-- As long as a worker that stands in no line does not poll, it is given nothing. -/
theorem absent_trace {c : ConnectionId} : ∀ {steps : List (Moment × Operation)} {s : Scheduler},
    Sound s ∅ → (∀ d ∈ s.trace steps, ∀ lane, d.op ≠ .poll lane c) →
    (∀ lane, c ∉ s.pool.line lane) →
    handedTo c (handoversOf (s.trace steps)) = [] ∧ ∀ lane, c ∉ (s.run steps).pool.line lane
  | [], _, _, _, habsent => ⟨rfl, habsent⟩
  | (now, op) :: steps, s, hs, hop, habsent => by
    obtain ⟨hnone, hafter⟩ := Event.absent (e := ⟨s, now, op⟩) hs
      (hop _ (List.mem_cons_self ..)) habsent
    obtain ⟨hrest, hlast⟩ := absent_trace (Event.sound_after ⟨s, now, op⟩ hs)
      (fun d hd => hop d (List.mem_cons_of_mem _ hd)) hafter
    refine ⟨?_, hlast⟩
    rw [trace, handoversOf_cons, handedTo_append, hnone, List.nil_append]
    exact hrest

/-! ### A worker that waits -/

/-- What has come to a waiting side to which these tasks were given. -/
def came : List Task → Option (List Task)
  | [] => none
  | t :: ts => some (t :: ts)

/-- A worker waits on a connection, in this lane if in any, and was given these tasks there, which
it has not read. -/
structure Attends (s : Scheduler) (lane : Lane) (c : ConnectionId) (given : List Task) : Prop where
  known : (Side.poll c).Known s
  elsewhere : ∀ other, other ≠ lane → c ∉ s.pool.line other
  once : (s.pool.line lane).count c ≤ 1
  side : (given = [] ∧ s.polls.isOpen c = true) ∨
    ∃ t, given = [t] ∧ s.polls.held? c = some [t] ∧ c ∉ s.pool.line lane

variable {s : Scheduler} {now : Moment} {lane : Lane} {c : ConnectionId} {given : List Task}
  {e : Event}

theorem Attends.held? (h : Attends s lane c given) : s.polls.held? c = came given := by
  rcases h.side with ⟨rfl, hopen⟩ | ⟨t, rfl, hheld, -⟩
  · exact Switchboard.held?_of_isOpen hopen
  · exact hheld

theorem Attends.length_le (h : Attends s lane c given) : given.length ≤ 1 := by
  rcases h.side with ⟨rfl, -⟩ | ⟨t, rfl, -⟩ <;> simp

/-- What others do does not touch this waiting side before tasks are passed on. -/
theorem Event.sides_polls (hside : e.op.side? ≠ some (.poll c))
    (hknown : (Side.poll c).Known e.before) :
    e.polls.sides[c]? = e.before.polls.sides[c]? := by
  obtain ⟨s, now, op⟩ := e
  have hne : ∀ {d : ConnectionId}, some (Side.poll d) ≠ some (.poll c) → d ≠ c := by
    rintro d h rfl
    exact h rfl
  cases op with
  | openPoll =>
    have hne : (⟨s.polls.next⟩ : ConnectionId) ≠ c := by
      rintro rfl
      exact Nat.lt_irrefl _ hknown
    simp [polls, Switchboard.connect, Std.ExtTreeMap.getElem?_insert, hne]
  | leavePoll d => simp [polls, Switchboard.leave, Std.ExtTreeMap.getElem?_erase, hne hside]
  | readPoll d => exact s.polls.getElem?_take_of_ne (hne hside)
  | releasePoll lane d => exact s.polls.getElem?_take_of_ne (hne hside)
  | abandonPoll lane d => exact s.polls.getElem?_take_of_ne (hne hside)
  | _ => rfl

/-- A worker goes on waiting while others act, and may be given a task. -/
theorem Attends.after (h : Attends e.before lane c given) (hs : Sound e.before ∅)
    (hside : e.op.side? ≠ some (.poll c)) :
    Attends e.after lane c (given ++ handedTo c e.handovers) := by
  obtain ⟨mid, he⟩ := e.enters hs
  have hop : ∀ lane, e.op ≠ .poll lane c := fun lane hop => hside (hop ▸ rfl)
  have hpolls : mid.polls.sides[c]? = e.before.polls.sides[c]? := by
    rw [he.polls]
    exact Event.sides_polls hside h.known
  have hcount : ∀ other, (mid.pool.line other).count c ≤ (e.before.pool.line other).count c := by
    rw [he.pool]
    exact Event.count_pool_le hop
  have hafter : ∀ other, (e.after.pool.line other).count c ≤ (mid.pool.line other).count c :=
    fun other => (he.shifts.suffix_pool other).sublist.count_le c
  have hstay : ∀ other, c ∉ e.before.pool.line other → c ∉ e.after.pool.line other := by
    intro other hnot
    rw [← List.count_eq_zero] at hnot ⊢
    exact Nat.le_zero.mp (hnot ▸ (hafter other).trans (hcount other))
  refine ⟨h.known.after hs, fun other hne => hstay other (h.elsewhere other hne),
    (hafter lane).trans ((hcount lane).trans h.once), ?_⟩
  rcases he.shifts.handed c with ⟨hlog, hsame⟩ | ⟨t, dead, rest, hlog, hopen, hholds, hline, hrest⟩
  · rw [hlog, List.append_nil, Switchboard.isOpen_congr (hsame.trans hpolls),
      Switchboard.held?_congr (hsame.trans hpolls)]
    refine h.side.imp_right ?_
    rintro ⟨t, hgiven, hheld, hnot⟩
    exact ⟨t, hgiven, hheld, hstay lane hnot⟩
  · have hnone : given = [] := by
      rw [Switchboard.isOpen_congr hpolls] at hopen
      have hheld := h.held?
      rw [Switchboard.held?_of_isOpen hopen] at hheld
      cases given with
      | nil => rfl
      | cons => cases hheld
    subst hnone
    have hin : c ∈ mid.pool.line t.lane := hline.subset List.mem_append_cons_self
    have hlane : t.lane = lane := by
      by_contra hne
      have hzero := List.count_eq_zero.mpr (h.elsewhere t.lane hne)
      exact List.count_eq_zero.mp (Nat.le_zero.mp (hzero ▸ hcount t.lane)) hin
    -- The worker stood in its line once, and those that wait on are those behind it.
    have hzero : rest.count c = 0 := by
      have hle := (hline.sublist.count_le c).trans ((hcount t.lane).trans (hlane ▸ h.once))
      rw [List.count_append, List.count_cons_self] at hle
      omega
    refine Or.inr ⟨t, by rw [hlog, List.nil_append], by rw [Switchboard.held?, hholds], ?_⟩
    exact fun hin => List.count_eq_zero.mp hzero (hrest.subset (hlane ▸ hin))

/-- It goes on waiting for as long as only others act. -/
theorem Attends.run : ∀ {steps : List (Moment × Operation)} {s : Scheduler} {given : List Task},
    Attends s lane c given → Sound s ∅ → (∀ d ∈ s.trace steps, d.op.side? ≠ some (.poll c)) →
    Attends (s.run steps) lane c (given ++ handedTo c (handoversOf (s.trace steps)))
  | [], _, _, h, _, _ => by
    rw [trace, handoversOf_nil, handedTo_nil, List.append_nil]
    exact h
  | (now, op) :: steps, s, given, h, hs, hside => by
    have hnext := h.after (e := ⟨s, now, op⟩) hs (hside _ (List.mem_cons_self ..))
    have hrest := hnext.run (Event.sound_after ⟨s, now, op⟩ hs)
      fun d hd => hside d (List.mem_cons_of_mem _ hd)
    rw [List.append_assoc, ← handedTo_append] at hrest
    exact hrest

/-- Nobody who waits is given a task when a worker polls. -/
theorem Event.handedTo_of_poll (hop : e.op = .poll lane c) (d : ConnectionId) :
    handedTo d e.handovers = [] := by
  rw [handovers, hop]
  dsimp only
  split
  · exact handedTo_map_none ..
  · rfl

/-- A worker that stood in no line polls on its connection and waits. -/
theorem Event.attends (hs : Sound e.before ∅) (hop : e.op = .poll lane c)
    (hknown : (Side.poll c).Known e.before) (hopen : e.before.polls.isOpen c = true)
    (habsent : ∀ lane, c ∉ e.before.pool.line lane) :
    handedTo c e.handovers = [] ∧ Attends e.after lane c [] := by
  obtain ⟨mid, he⟩ := e.enters hs
  have hnone := Event.handedTo_of_poll hop c
  have hzero : ∀ other, (e.before.pool.line other).count c = 0 := fun other =>
    List.count_eq_zero.mpr (habsent other)
  have hcount : ∀ other, (mid.pool.line other).count c ≤ if lane = other then 1 else 0 := by
    intro other
    rw [he.pool, pool, hop]
    split
    · next heq _ =>
      cases heq
      rw [Lanes.pushBack, Lanes.line_append]
      split
      · rw [List.count_append, hzero, List.count_singleton_self]
      · exact Nat.le_of_eq (hzero other)
    · next heq => cases heq
    · next heq => cases heq
    · exact (Nat.le_of_eq (hzero other)).trans (Nat.zero_le _)
  have hafter : ∀ other, (e.after.pool.line other).count c ≤ if lane = other then 1 else 0 :=
    fun other => ((he.shifts.suffix_pool other).sublist.count_le c).trans (hcount other)
  refine ⟨hnone, hknown.after hs, fun other hne => ?_, ?_, Or.inl ⟨rfl, ?_⟩⟩
  · have hle := hafter other
    rw [if_neg (Ne.symm hne)] at hle
    exact List.count_eq_zero.mp (Nat.le_zero.mp hle)
  · have hle := hafter lane
    rwa [if_pos rfl] at hle
  · rcases he.shifts.handed c with ⟨-, hsame⟩ | ⟨t, -, -, hlog, -⟩
    · rw [Switchboard.isOpen_congr hsame, he.polls, polls, hop]
      exact hopen
    · rw [hnone] at hlog
      cases hlog

/-- A worker that stops waiting, or has been given tasks, stands in no line, and is given nothing
more. -/
theorem Attends.stop (h : Attends e.before lane c given) (hs : Sound e.before ∅)
    (hop : e.op = .releasePoll lane c ∨ e.op = .abandonPoll lane c ∨
      e.op = .readPoll c ∧ given ≠ []) :
    handedTo c e.handovers = [] ∧ ∀ lane, c ∉ e.after.pool.line lane := by
  refine Event.absent_of_pool hs fun other hin => ?_
  have hkeep : c ∉ (e.before.pool.keep lane (· ≠ c)).line other := by
    rw [Lanes.line_keep]
    split
    · simp
    · next hne => exact h.elsewhere other (Ne.symm hne)
  rcases hop with hop | hop | ⟨hop, hgiven⟩
  · rw [Event.pool, hop] at hin
    exact hkeep hin
  · rw [Event.pool, hop] at hin
    exact hkeep hin
  · rw [Event.pool, hop] at hin
    rcases h.side with ⟨hnone, -⟩ | ⟨t, -, -, hnot⟩
    · exact hgiven hnone
    · by_cases hne : other = lane
      · exact hnot (hne ▸ hin)
      · exact h.elsewhere other hne hin

end Scheduler

end TaskExchange
