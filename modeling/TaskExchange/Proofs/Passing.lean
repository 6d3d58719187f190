import Mathlib.Data.Finset.Card
import TaskExchange.Proofs.Recall

/-!
Passing tasks on: each loop of the dispatcher is a run of shifts, and the handovers of the run are
those that can be told from the state before it.  Main statements: `shifts_takeQueued` for a poll,
`shifts_dispatchEach` for tasks that workers may wait for, `shifts_requeueFront` for tasks that come
back from workers, with the number it tells, and `shifts_offer` for a single new task.
-/

namespace TaskExchange.Scheduler

variable {now : Moment} {s : Scheduler} {hand : Finset TaskId}

/-- One attempt to pass a task on: a worker holds it now, or it is still in the hand and no worker
waits for it. -/
theorem shifts_dispatchToWaiting (now : Moment) (hp : Placed s hand) {id : TaskId}
    (hid : id ∈ hand)
    (hfirst : ∀ t, s.tasks[id]? = some t → s.pool.line t.lane ≠ [] → Foremost s hand t) :
    (∃ s', s.dispatchToWaiting now id = (true, s') ∧
      Shifts now s hand (s.handover? id).toList s' (hand.erase id)) ∨
    ∃ s', s.dispatchToWaiting now id = (false, s') ∧ (s.handover? id).toList = [] ∧
      Shifts now s hand [] s' hand ∧ ∀ t, s'.tasks[id]? = some t → s'.pool.line t.lane = [] := by
  obtain ⟨t, ht, hq⟩ := hp.inHand hid
  obtain rfl := hp.key ht
  rcases dispatchToWaiting_cases now ht hq (hp.not_inFlight ht hq) with
    ⟨hclosed, hnone, hresult⟩ | ⟨dead, c, rest, hline, hdead, hopen, hsome, hresult⟩
  · refine Or.inr ⟨_, hresult, by rw [hnone]; rfl, .single (.drop ht hid hclosed), fun u hu => ?_⟩
    obtain rfl : t = u := Option.some.inj (ht.symm.trans hu)
    simp [setWorkers]
  · have hwanted : s.pool.line t.lane ≠ [] := by simp [hline]
    rw [hsome]
    exact Or.inl ⟨_, hresult, .single (.give ht hid (hfirst t ht hwanted) hline hdead hopen)⟩

/-- No worker waits for tasks that nobody received, whatever shifts follow. -/
theorem Shifts.still_unwanted {s' : Scheduler} {hand' : Finset TaskId} {log : List Handover}
    (h : Shifts now s hand log s' hand') {id : TaskId}
    (hid : ∀ t, s.tasks[id]? = some t → s.pool.line t.lane = []) :
    ∀ t, s'.tasks[id]? = some t → s'.pool.line t.lane = [] := by
  intro t ht
  obtain ⟨u, hu, hsame⟩ := h.books.symm.task ht
  have hempty := hid u hu
  rw [Task.lane_eq_of_asAccepted hsame] at hempty
  exact List.suffix_nil.mp (hempty ▸ h.suffix_pool t.lane)

/-! ### Polls -/

/-- A poll is given the first tasks of the line in their order, as many as it may have, and the rest
of the line stays. -/
theorem shifts_takeFrom (now : Moment) (lane : Lane) : ∀ (limit : Nat) {line : List TaskId}
    {s : Scheduler} (taken : List Task), Placed s hand → s.queues.line lane = line →
    ∃ tasks s', takeFrom now lane limit line taken s = (taken.reverse ++ tasks, s') ∧
      Shifts now s hand (tasks.map (⟨·, none⟩)) s' hand ∧
      tasks.map (·.id) = line.take limit ∧ s'.queues = s.queues.setLine lane (line.drop limit)
  | 0, line, s, taken, _, hline =>
    ⟨[], s, by simp [takeFrom], .refl, by simp, by simp [← hline]⟩
  | limit + 1, [], s, taken, _, hline => by
    have hqueues : s.queues = s.queues.setLine lane [] := by rw [← hline, Lanes.setLine_line]
    exact ⟨[], s, by simp [takeFrom], .refl, by simp, by simpa using hqueues⟩
  | limit + 1, id :: rest, s, taken, hp, hline => by
    obtain ⟨-, t, ht, -, hlane⟩ := hp.inLine (hline ▸ List.mem_cons_self ..)
    obtain rfl := hp.key ht
    subst hlane
    have hshift : Shift now s hand [⟨t.dispatch, none⟩] _ hand := .take ht hline
    obtain ⟨tasks, s', htake, hshifts, hids, hqueues⟩ :=
      shifts_takeFrom now t.lane limit (t.dispatch :: taken) (hshift.placed hp)
        (Lanes.line_setLine_self ..)
    refine ⟨t.dispatch :: tasks, s', ?_, (Shifts.single hshift).trans hshifts, ?_, ?_⟩
    · simp only [takeFrom,
        startDelivery?_eq (s := { s with queues := s.queues.setLine t.lane rest }) now ht]
      simpa using htake
    · simp [hids, Task.dispatch]
    · simp [hqueues, deliver]

theorem shifts_takeQueued (now : Moment) (hp : Placed s hand) (lane : Lane) (limit : Nat) :
    ∃ tasks s', s.takeQueued now lane limit = (tasks, s') ∧
      Shifts now s hand (tasks.map (⟨·, none⟩)) s' hand ∧
      tasks.map (·.id) = (s.queues.line lane).take limit ∧
      s'.queues = s.queues.setLine lane ((s.queues.line lane).drop limit) := by
  obtain ⟨tasks, s', htake, hrest⟩ := shifts_takeFrom now lane limit [] hp rfl
  exact ⟨tasks, s', by simpa [takeQueued] using htake, hrest⟩

/-! ### Tasks that workers may wait for -/

/-- Of the tasks in a list some are received; no worker waits for the others, which stay in the
hand.  The fresh ones among them are in the order of their numbers, and no worker waits for what
else is in the hand. -/
theorem shifts_dispatchEach (now : Moment) : ∀ {ids : List TaskId} {s : Scheduler}
    {hand : Finset TaskId} (left : List TaskId), Placed s hand → ids.Nodup →
    (∀ id ∈ ids, id ∈ hand) →
    ids.Pairwise (fun a b => ∀ lane, s.FreshIn lane b → a.value ≤ b.value) →
    (∀ id ∈ hand, id ∉ ids → ∀ t, s.tasks[id]? = some t → s.pool.line t.lane = []) →
    ∃ rest s', dispatchEach now ids left s = (left.reverse ++ rest, s') ∧ rest.Sublist ids ∧
      Shifts now s hand (passedOn now ids s) s' (hand \ ids.toFinset ∪ rest.toFinset) ∧
      ∀ id ∈ rest, ∀ t, s'.tasks[id]? = some t → s'.pool.line t.lane = []
  | [], s, hand, left, _, _, _, _, _ => ⟨[], s, by simp [dispatchEach], .slnil,
      by simp [passedOn, Shifts.refl], by simp⟩
  | id :: ids, s, hand, left, hp, hnodup, hin, horder, hunwanted => by
    obtain ⟨hnew, hnodup⟩ := List.nodup_cons.mp hnodup
    obtain ⟨hfirst, horder⟩ := List.pairwise_cons.mp horder
    have hid : id ∈ hand := hin id (List.mem_cons_self ..)
    have hforemost : ∀ t, s.tasks[id]? = some t → s.pool.line t.lane ≠ [] →
        Foremost s hand t := by
      intro t ht hwanted x hx hfresh
      obtain rfl := hp.key ht
      by_cases hxid : x ∈ t.id :: ids
      · rcases List.mem_cons.mp hxid with rfl | hxid
        · exact Nat.le_refl _
        · exact hfirst x hxid t.lane hfresh
      · obtain ⟨u, hu, hlane, -⟩ := hfresh
        exact absurd (hlane ▸ hunwanted x hx hxid u hu) hwanted
    have horder' : ∀ {log s₁ hand'}, Shifts now s hand log s₁ hand' →
        ids.Pairwise fun a b => ∀ lane, s₁.FreshIn lane b → a.value ≤ b.value := fun hshifts =>
      horder.imp fun h lane hfresh => h lane (hshifts.freshIn_iff.mp hfresh).1
    rcases shifts_dispatchToWaiting now hp hid hforemost with
      ⟨s₁, hresult, hshifts⟩ | ⟨s₁, hresult, hnone, hshifts, hempty⟩
    · have hin' : ∀ x ∈ ids, x ∈ hand.erase id := fun x hx =>
        Finset.mem_erase.mpr ⟨fun e => hnew (e ▸ hx), hin x (List.mem_cons_of_mem _ hx)⟩
      have hunwanted' : ∀ x ∈ hand.erase id, x ∉ ids →
          ∀ t, s₁.tasks[x]? = some t → s₁.pool.line t.lane = [] := by
        intro x hx hxids
        obtain ⟨hne, hx⟩ := Finset.mem_erase.mp hx
        exact hshifts.still_unwanted (hunwanted x hx (by simp [hne, hxids]))
      obtain ⟨rest, s₂, heach, hsub, hshifts', hrest⟩ := shifts_dispatchEach now left
        (hshifts.placed hp) hnodup hin' (horder' hshifts) hunwanted'
      refine ⟨rest, s₂, by simp [dispatchEach, hresult, heach], hsub.cons _, ?_, hrest⟩
      have hhand : hand.erase id \ ids.toFinset = hand \ (id :: ids).toFinset := by
        rw [List.toFinset_cons, Finset.sdiff_insert, Finset.erase_sdiff_comm]
      rw [passedOn, hresult, ← hhand]
      exact hshifts.trans hshifts'
    · have hunwanted' : ∀ x ∈ hand, x ∉ ids →
          ∀ t, s₁.tasks[x]? = some t → s₁.pool.line t.lane = [] := by
        intro x hx hxids
        by_cases hne : x = id
        · exact hne ▸ hempty
        · exact hshifts.still_unwanted (hunwanted x hx (by simp [hne, hxids]))
      obtain ⟨rest, s₂, heach, hsub, hshifts', hrest⟩ := shifts_dispatchEach now (id :: left)
        (hshifts.placed hp) hnodup (fun x hx => hin x (List.mem_cons_of_mem _ hx))
        (horder' hshifts) hunwanted'
      refine ⟨id :: rest, s₂, by simp [dispatchEach, hresult, heach], hsub.cons_cons _, ?_, ?_⟩
      · have hhand : hand \ ids.toFinset ∪ rest.toFinset =
            hand \ (id :: ids).toFinset ∪ (id :: rest).toFinset := by
          ext x
          by_cases hx : x = id
          · subst hx; simp [hid, hnew]
          · simp [hx]
        rw [passedOn, hnone, hresult, ← hhand]
        exact hshifts.trans hshifts'
      · intro x hx
        rcases List.mem_cons.mp hx with rfl | hx
        · exact hshifts'.still_unwanted hempty
        · exact hrest x hx

/-- Fresh tasks of a lane without workers join the end of its line together. -/
theorem shifts_append (now : Moment) {lane : Lane} (hpool : s.pool.line lane = []) :
    ∀ {ids : List TaskId} (queues : Lanes TaskId), ids.Pairwise (·.value < ·.value) →
    (∀ id ∈ ids, s.FreshIn lane id ∧ ∀ t, s.tasks[id]? = some t → t.id = id) →
    Shifts now { s with queues } ids.toFinset [] { s with queues := queues.append lane ids } ∅
  | [], queues, _, _ => by simpa using Shifts.refl
  | id :: ids, queues, horder, hfresh => by
    obtain ⟨⟨t, ht, rfl, hzero⟩, hkey⟩ := hfresh id (List.mem_cons_self ..)
    obtain rfl := hkey t ht
    obtain ⟨hfirst, horder⟩ := List.pairwise_cons.mp horder
    have hnew : t.id ∉ ids := fun h => Nat.lt_irrefl _ (hfirst t.id h)
    have hforemost : Foremost { s with queues } (t.id :: ids).toFinset t := by
      intro x hx _
      rcases List.mem_cons.mp (List.mem_toFinset.mp hx) with rfl | hx
      · exact Nat.le_refl _
      · exact Nat.le_of_lt (hfirst x hx)
    have hshift : Shift now { s with queues } (t.id :: ids).toFinset []
        { s with queues := queues.pushBack t.lane t.id } ((t.id :: ids).toFinset.erase t.id) :=
      .join ht (by simp) hpool (Or.inl ⟨hzero, hforemost, rfl⟩)
    have hhand : (t.id :: ids).toFinset.erase t.id = ids.toFinset := by
      rw [List.toFinset_cons, Finset.erase_insert (by simpa using hnew)]
    rw [hhand] at hshift
    rw [Lanes.append_cons]
    exact (Shifts.single hshift).trans (shifts_append now hpool _ horder
      fun x hx => hfresh x (List.mem_cons_of_mem _ hx))

theorem shifts_offer (now : Moment) {id : TaskId} {lane : Lane} (hp : Placed s {id})
    (hfresh : s.FreshIn lane id) :
    Shifts now s {id} (passedOn now [id] s) (s.offer now id) ∅ := by
  have hid : id ∈ ({id} : Finset TaskId) := Finset.mem_singleton_self id
  have hhand : ({id} : Finset TaskId).erase id = ∅ := by simp
  have hforemost : ∀ {s : Scheduler} {t : Task}, t.id = id → Foremost s {id} t := by
    rintro s t rfl x hx -
    rw [Finset.mem_singleton.mp hx]
  have hlog : passedOn now [id] s = (s.handover? id).toList := List.append_nil _
  rw [hlog]
  rcases shifts_dispatchToWaiting now hp hid (fun t ht _ => hforemost (hp.key ht)) with
    ⟨s', hresult, hshifts⟩ | ⟨s', hresult, hnone, hshifts, hempty⟩
  · simpa [offer, hresult, hhand] using hshifts
  · obtain ⟨t, ht, -, hzero⟩ := (hshifts.freshIn_iff.mpr ⟨hfresh, by simp⟩)
    obtain rfl := (hshifts.placed hp).key ht
    have hjoin : Shift now s' {t.id} [] { s' with queues := s'.queues.pushBack t.lane t.id } _ :=
      .join ht hid (hempty t ht) (Or.inl ⟨hzero, hforemost rfl, rfl⟩)
    rw [hnone]
    simpa [offer, hresult, queueBack, ht] using hshifts.tail hjoin

/-! ### Tasks that come back -/

/-- Tasks that workers were given stand at the heads of their lines, as no worker waits for
them. -/
theorem shifts_queueFrontEach (now : Moment) (hp : Placed s hand) : ∀ {ids : List TaskId},
    ids.Nodup → (∀ id ∈ ids, id ∈ hand) → (∀ id ∈ ids, ∀ lane, ¬ s.FreshIn lane id) →
    (∀ id ∈ ids, ∀ t, s.tasks[id]? = some t → s.pool.line t.lane = []) →
    Shifts now s hand [] (queueFrontEach ids s) (hand \ ids.toFinset)
  | [], _, _, _, _ => by simpa [queueFrontEach] using Shifts.refl
  | id :: ids, hnodup, hin, hgiven, hempty => by
    obtain ⟨hnew, hnodup⟩ := List.nodup_cons.mp hnodup
    have hshifts := shifts_queueFrontEach now hp hnodup
      (fun x hx => hin x (List.mem_cons_of_mem _ hx))
      (fun x hx => hgiven x (List.mem_cons_of_mem _ hx))
      fun x hx => hempty x (List.mem_cons_of_mem _ hx)
    have hid : id ∈ hand \ ids.toFinset := by simp [hin id (List.mem_cons_self ..), hnew]
    obtain ⟨t, ht, -⟩ := (hshifts.placed hp).inHand hid
    obtain rfl := (hshifts.placed hp).key ht
    have hpos : 0 < t.deliveries := Nat.pos_of_ne_zero fun hzero =>
      hgiven t.id (List.mem_cons_self ..) t.lane (hshifts.freshIn_iff.mp ⟨t, ht, rfl, hzero⟩).1
    have hjoin : Shift now (queueFrontEach ids s) (hand \ ids.toFinset) [] _ _ :=
      .join ht hid (hshifts.still_unwanted (hempty t.id (List.mem_cons_self ..)) t ht)
        (Or.inr ⟨hpos, rfl⟩)
    have hhand : (hand \ ids.toFinset).erase t.id = hand \ (t.id :: ids).toFinset := by
      rw [List.toFinset_cons, Finset.sdiff_insert]
    have hstate : queueFrontEach (t.id :: ids) s =
        { queueFrontEach ids s with
          queues := (queueFrontEach ids s).queues.pushFront t.lane t.id } := by
      rw [queueFrontEach, List.foldr_cons, ← queueFrontEach, queueFront, ht]
    exact hstate ▸ hhand ▸ hshifts.tail hjoin

/-- The handovers when tasks come back and are given out again. -/
def givenAgain (s : Scheduler) (now : Moment) (ids : List TaskId) : List Handover :=
  let (back, s) := takeBackEach (ids.mergeSort (· ≤ ·)) [] s
  passedOn now back s

/-- Tasks that come back are those in flight among the given ones, each counted once, and they are
all passed on. -/
theorem shifts_requeueFront (now : Moment) (hp : Placed s ∅) (ids : List TaskId) :
    ∃ back mid, Recall s back mid ∧ back.toFinset = ids.toFinset.filter (· ∈ s.inFlight) ∧
      Shifts now mid back.toFinset (s.givenAgain now ids) (s.requeueFront now ids).2 ∅ ∧
      (s.requeueFront now ids).1 = (ids.toFinset.filter (· ∈ s.inFlight)).card := by
  obtain ⟨back, mid, hback, hrecall, hnodup, hmem⟩ :=
    recall_takeBackEach (ids.mergeSort (· ≤ ·)) s []
  have hp₁ := hrecall.placed hp
  have hgiven : ∀ id ∈ back, ∀ lane, ¬ mid.FreshIn lane id := by
    rintro id hid lane ⟨t, ht, -, hzero⟩
    exact Nat.ne_of_gt (hrecall.deliveries_pos hp hid ht) hzero
  have horder : back.Pairwise fun a b => ∀ lane, mid.FreshIn lane b → a.value ≤ b.value :=
    List.pairwise_of_forall_mem_list fun a _ b hb lane h => absurd h (hgiven b hb lane)
  obtain ⟨rest, s₂, heach, hsub, hshifts, hempty⟩ :=
    shifts_dispatchEach now [] hp₁ hnodup (fun id hid => List.mem_toFinset.mpr hid) horder
      fun id hid hnot => absurd (List.mem_toFinset.mp hid) hnot
  rw [Finset.sdiff_self, Finset.empty_union] at hshifts
  have hgiven' : ∀ id ∈ rest, ∀ lane, ¬ s₂.FreshIn lane id := fun id hid lane h =>
    hgiven id (hsub.subset hid) lane (hshifts.freshIn_iff.mp h).1
  have hqueue := shifts_queueFrontEach now (hshifts.placed hp₁) (hsub.nodup hnodup)
    (fun id hid => List.mem_toFinset.mpr hid) hgiven' hempty
  rw [Finset.sdiff_self] at hqueue
  have hlog : s.givenAgain now ids = passedOn now back mid := by
    simp [givenAgain, hback]
  have hresult : s.requeueFront now ids = (back.length, queueFrontEach rest s₂) := by
    simp [requeueFront, hback, heach]
  have hset : back.toFinset = ids.toFinset.filter (· ∈ s.inFlight) := by
    ext id; simp [hmem]
  refine ⟨back, mid, hrecall, hset, ?_, ?_⟩
  · rw [hresult, hlog]
    simpa using hshifts.trans hqueue
  · rw [hresult, ← hset, List.toFinset_card_of_nodup hnodup]

end TaskExchange.Scheduler
