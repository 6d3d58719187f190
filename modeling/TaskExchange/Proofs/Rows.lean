import Mathlib.Data.List.Induction
import Mathlib.Data.List.Nodup
import Mathlib.Logic.Function.Basic
import TaskExchange.Connection
import TaskExchange.Proofs.Census

/-!
Rows: what lanes are to those who wait in them.  Someone registers at the end of a lane's line, the
head of a line is taken, and someone may be removed from wherever he stands; a line that becomes
empty leaves the map, and comes back with the next who registers.  Main statements: a call does to
lanes what it does to one plain list for every lane (`step_fst`, `line_step`), and so, as long as
nobody registers twice, lanes are a family of lists (`families_run`), in each of which are those who
registered there and were neither taken nor removed.
-/

namespace TaskExchange.Lanes

variable {α : Type}

/-- What can be asked of lanes. -/
inductive Call (α : Type) where
  /-- Someone joins the end of a lane's line. -/
  | register (lane : Lane) (x : α)
  /-- The head of a lane's line is taken. -/
  | take (lane : Lane)
  /-- Someone is taken out of a lane's line. -/
  | remove (lane : Lane) (x : α)
  deriving DecidableEq

/-- What is answered to a call. -/
inductive Answer (α : Type) where
  | registered
  /-- Who was taken, if anybody was there. -/
  | taken (head : Option α)
  /-- Whether the one to be removed was there. -/
  | removed (found : Bool)
  deriving DecidableEq

/-- A call with its answer. -/
structure Event (α : Type) where
  call : Call α
  answer : Answer α
  deriving DecidableEq

namespace Call

def lane : Call α → Lane
  | register lane _ => lane
  | take lane => lane
  | remove lane _ => lane

/-- Who registers by a call, and in which lane. -/
def joins? : Call α → Option (Lane × α)
  | register lane x => some (lane, x)
  | _ => none

end Call

/-- Who is taken or removed by a call, and out of which lane. -/
def Event.quits? : Event α → Option (Lane × α)
  | ⟨.take lane, .taken (some x)⟩ => some (lane, x)
  | ⟨.remove lane x, .removed true⟩ => some (lane, x)
  | _ => none

/-- Those who registered, each with his lane, in the order in which they came. -/
def joined (calls : List (Call α)) : List (Lane × α) := calls.filterMap Call.joins?

/-- Nobody registers twice, be it in two lanes. -/
def Distinct (calls : List (Call α)) : Prop := ((joined calls).map (·.2)).Nodup

/-- One plain list for every lane. -/
abbrev Rows (α : Type) := Lane → List α

/-- Of those who are each in a lane, the list of every lane. -/
def rowsOf (entries : List (Lane × α)) : Rows α := fun lane =>
  (entries.filter (·.1 = lane)).map (·.2)

section

variable {σ : Type} (step : σ → Call α → Answer α × σ)

/-- The state after some calls, the first one in front. -/
def after (s : σ) (calls : List (Call α)) : σ := calls.foldl (fun s call => (step s call).2) s

/-- Some calls with their answers. -/
def answered (s : σ) : List (Call α) → List (Event α)
  | [] => []
  | call :: rest => ⟨call, (step s call).1⟩ :: answered (step s call).2 rest

end

section

variable [DecidableEq α]

/-- A call is carried out. -/
def step (m : Lanes α) : Call α → Answer α × Lanes α
  | .register lane x => (.registered, m.pushBack lane x)
  | .take lane =>
    match m.pop? lane with
    | some (x, m) => (.taken (some x), m)
    | none => (.taken none, m)
  | .remove lane x =>
    match m.remove? lane x with
    | some m => (.removed true, m)
    | none => (.removed false, m)

/-- The lanes after some calls; at first nobody is there. -/
def run (calls : List (Call α)) : Lanes α := after step empty calls

/-- Some calls, with the answers that the lanes give. -/
def trace (calls : List (Call α)) : List (Event α) := answered step empty calls

namespace Rows

/-- A call is carried out on plain lists. -/
def step (r : Rows α) : Call α → Answer α × Rows α
  | .register lane x => (.registered, Function.update r lane (r lane ++ [x]))
  | .take lane => (.taken (r lane).head?, Function.update r lane (r lane).tail)
  | .remove lane x => (.removed (x ∈ r lane), Function.update r lane ((r lane).erase x))

/-- The lists after some calls; at first nobody is there. -/
def run (calls : List (Call α)) : Rows α := after step (fun _ => []) calls

/-- Some calls, with the answers that the lists give. -/
def trace (calls : List (Call α)) : List (Event α) := answered step (fun _ => []) calls

end Rows

/-- Those who were taken or removed, each with the lane that he was in. -/
def gone (calls : List (Call α)) : List (Lane × α) := (trace calls).filterMap Event.quits?

/-- Those who registered and were neither taken nor removed. -/
def present (calls : List (Call α)) : List (Lane × α) := (joined calls).filter (· ∉ gone calls)

/-- The list of every lane: those who registered there and were neither taken nor removed. -/
def rows (calls : List (Call α)) : Rows α := rowsOf (present calls)

/-- The lanes after some calls are a list for every lane, and so they answer the next call. -/
structure Families (calls : List (Call α)) : Prop where
  /-- Plain lists would have given the same answers, -/
  answers : trace calls = Rows.trace calls
  /-- and would be what the lines are. -/
  lists : (run calls).line = Rows.run calls
  /-- In a lane's line are those who registered there and were neither taken nor removed, in the
  order in which they came. -/
  line : (run calls).line = rows calls
  /-- The map has the lines that are not empty, and nothing else. -/
  kept : ∀ lane, (run calls).lines[lane]? =
    if rows calls lane = [] then none else some (rows calls lane)
  once : ∀ lane, (rows calls lane).Nodup
  /-- Nobody is in two lines. -/
  alone : ∀ lane other x, x ∈ rows calls lane → x ∈ rows calls other → lane = other
  /-- Of a kind are parked those who registered, less those who were taken or removed. -/
  parked : ∀ kind, (run calls).count kind + (gone calls).countP (·.1.kind = kind) =
    (joined calls).countP (·.1.kind = kind)
  register : ∀ lane x, ((run calls).step (.register lane x)).1 = .registered ∧
    ((run calls).step (.register lane x)).2.line lane = rows calls lane ++ [x]
  /-- The earliest to register who was neither taken nor removed is taken, -/
  take : ∀ lane, ((run calls).step (.take lane)).1 =
      .taken (((joined calls).find? fun entry => entry.1 = lane ∧ entry ∉ gone calls).map (·.2)) ∧
    ((run calls).step (.take lane)).2.line lane = (rows calls lane).tail
  /-- or nobody, if nobody is there. -/
  vacant : ∀ lane, ((run calls).step (.take lane)).1 = .taken none ↔ rows calls lane = []
  remove : ∀ lane x, ((run calls).step (.remove lane x)).1 = .removed true ↔ x ∈ rows calls lane
  /-- Those before and behind the one who is removed stay, in their order. -/
  removed : ∀ lane front x back, rows calls lane = front ++ x :: back →
    ((run calls).step (.remove lane x)).2.line lane = front ++ back
  /-- Who is not in the line cannot be removed, and the attempt changes nothing: -/
  absent : ∀ lane x, x ∉ rows calls lane →
    (run calls).step (.remove lane x) = (.removed false, run calls)
  /-- so it is under the wrong kind or the wrong category, -/
  astray : ∀ lane other x, x ∈ rows calls other →
    other.kind ≠ lane.kind ∨ other.category ≠ lane.category →
    (run calls).step (.remove lane x) = (.removed false, run calls)
  /-- and with those who were taken or removed before. -/
  again : ∀ lane other x, (other, x) ∈ gone calls →
    (run calls).step (.remove lane x) = (.removed false, run calls)
  /-- No call touches another line. -/
  others : ∀ call lane, call.lane ≠ lane →
    ((run calls).step call).2.line lane = (run calls).line lane ∧
    ((run calls).step call).2.lines[lane]? = (run calls).lines[lane]?

end

variable {calls : List (Call α)} {call : Call α} {lane other : Lane} {x : α}
  {entry : Lane × α} {entries : List (Lane × α)}

/-! ### Calls, one after the other -/

section

variable {σ : Type} (step : σ → Call α → Answer α × σ)

theorem after_concat (s : σ) (calls : List (Call α)) (call : Call α) :
    after step s (calls ++ [call]) = (step (after step s calls) call).2 := List.foldl_concat ..

theorem answered_concat (call : Call α) : ∀ (calls : List (Call α)) (s : σ),
    answered step s (calls ++ [call]) =
      answered step s calls ++ [⟨call, (step (after step s calls) call).1⟩]
  | [], _ => rfl
  | first :: calls, s => congrArg (List.cons _) (answered_concat call calls (step s first).2)

end

theorem joined_concat (calls : List (Call α)) (call : Call α) :
    joined (calls ++ [call]) = joined calls ++ call.joins?.toList := by
  cases call <;> simp [joined, Call.joins?]

namespace Distinct

theorem of_concat (h : Distinct (calls ++ [call])) : Distinct calls := by
  rw [Distinct, joined_concat, List.map_append] at h
  exact h.of_append_left

theorem notMem_joined (h : Distinct (calls ++ [call])) (hjoins : call.joins? = some entry) :
    entry ∉ joined calls := by
  rw [Distinct, joined_concat, List.map_append, hjoins] at h
  exact fun hin => List.disjoint_of_nodup_append h (List.mem_map_of_mem hin) (by simp)

theorem eq_lane (h : Distinct calls) (hx : (lane, x) ∈ joined calls)
    (hx' : (other, x) ∈ joined calls) : lane = other :=
  congrArg Prod.fst (List.inj_on_of_nodup_map h hx hx' rfl)

end Distinct

/-! ### Those who are in a lane -/

theorem mem_rowsOf : x ∈ rowsOf entries lane ↔ (lane, x) ∈ entries := by
  simp [rowsOf]

theorem rowsOf_cons (entry : Lane × α) (entries : List (Lane × α)) (lane : Lane) :
    rowsOf (entry :: entries) lane =
      if entry.1 = lane then entry.2 :: rowsOf entries lane else rowsOf entries lane := by
  by_cases h : entry.1 = lane <;> simp [rowsOf, h]

theorem rowsOf_concat (entries : List (Lane × α)) (lane : Lane) (x : α) :
    rowsOf (entries ++ [(lane, x)]) =
      Function.update (rowsOf entries) lane (rowsOf entries lane ++ [x]) := by
  funext other
  by_cases h : other = lane
  · subst h
    simp [rowsOf]
  · simp [rowsOf, Ne.symm h, Function.update_of_ne h]

theorem line_setLine_eq_update (m : Lanes α) (lane : Lane) (xs : List α) :
    (m.setLine lane xs).line = Function.update m.line lane xs := by
  funext other
  rw [line_setLine, Function.update_apply]
  exact if_congr eq_comm rfl rfl

variable [DecidableEq α]

theorem rowsOf_erase (lane : Lane) (x : α) : ∀ entries : List (Lane × α),
    rowsOf (entries.erase (lane, x)) =
      Function.update (rowsOf entries) lane ((rowsOf entries lane).erase x)
  | [] => by simp [rowsOf]
  | entry :: entries => by
    have ih := rowsOf_erase lane x entries
    funext other
    by_cases hother : other = lane
    · subst hother
      by_cases h : entry = (other, x)
      · subst h
        simp [rowsOf_cons]
      · have hx : entry.1 = other → entry.2 ≠ x := fun hlane hx => h (Prod.ext hlane hx)
        by_cases hlane : entry.1 = other
        · simp [rowsOf_cons, ih, h, hlane, hx hlane]
        · simp [rowsOf_cons, ih, h, hlane]
    · by_cases h : entry = (lane, x)
      · subst h
        simp [rowsOf_cons, hother, Ne.symm hother]
      · simp [rowsOf_cons, ih, h, hother]

/-! ### One call -/

theorem line_keep_eq_update {m : Lanes α} (honce : (m.line lane).Nodup) (x : α) :
    (m.keep lane (· ≠ x)).line = Function.update m.line lane ((m.line lane).erase x) := by
  rw [keep, line_setLine_eq_update, honce.erase_eq_filter]
  exact congrArg _ (List.filter_congr fun y _ => decide_not)

theorem step_take_of_nil {m : Lanes α} (h : m.line lane = []) :
    m.step (.take lane) = (.taken none, m) := by
  simp [step, pop?, h]

theorem step_take_of_cons {m : Lanes α} {rest : List α} (h : m.line lane = x :: rest) :
    m.step (.take lane) = (.taken (some x), m.setLine lane rest) := by
  simp [step, pop?, h]

theorem step_remove_of_mem {m : Lanes α} (h : x ∈ m.line lane) :
    m.step (.remove lane x) = (.removed true, m.keep lane (· ≠ x)) := by
  simp [step, remove?, h]

theorem step_remove_of_notMem {m : Lanes α} (h : x ∉ m.line lane) :
    m.step (.remove lane x) = (.removed false, m) := by
  simp [step, remove?, h]

/-- Lanes answer as plain lists do. -/
theorem step_fst (m : Lanes α) (call : Call α) : (m.step call).1 = (Rows.step m.line call).1 := by
  cases call with
  | register lane x => rfl
  | take lane =>
    cases h : m.line lane with
    | nil => rw [step_take_of_nil h, Rows.step, h, List.head?_nil]
    | cons x rest => rw [step_take_of_cons h, Rows.step, h, List.head?_cons]
  | remove lane x =>
    by_cases h : x ∈ m.line lane
    · simp [step_remove_of_mem h, Rows.step, h]
    · simp [step_remove_of_notMem h, Rows.step, h]

/-- Lanes become what plain lists become, as long as nobody is twice in a line. -/
theorem line_step {m : Lanes α} (honce : ∀ lane, (m.line lane).Nodup) (call : Call α) :
    (m.step call).2.line = (Rows.step m.line call).2 := by
  cases call with
  | register lane x => exact line_setLine_eq_update ..
  | take lane =>
    cases h : m.line lane with
    | nil =>
      rw [step_take_of_nil h, Rows.step, h, List.tail_nil, Function.update_eq_self_iff.mpr h.symm]
    | cons x rest =>
      rw [step_take_of_cons h, line_setLine_eq_update, Rows.step, h, List.tail_cons]
  | remove lane x =>
    by_cases h : x ∈ m.line lane
    · rw [step_remove_of_mem h, line_keep_eq_update (honce lane), Rows.step]
    · rw [step_remove_of_notMem h, Rows.step, List.erase_of_not_mem h, Function.update_eq_self]

namespace Rows

/-- What a call can do to lists: someone joins one, or someone quits one, or nothing changes. -/
inductive Does (r : Rows α) (e : Event α) : Rows α → Prop where
  | join {lane : Lane} {x : α} : e.call.joins? = some (lane, x) → e.quits? = none →
      Does r e (Function.update r lane (r lane ++ [x]))
  | quit {lane : Lane} {x : α} : e.call.joins? = none → e.quits? = some (lane, x) → x ∈ r lane →
      Does r e (Function.update r lane ((r lane).erase x))
  | nothing : e.call.joins? = none → e.quits? = none → Does r e r

theorem does_step (r : Rows α) (call : Call α) :
    r.Does ⟨call, (r.step call).1⟩ (r.step call).2 := by
  cases call with
  | register lane x => exact .join rfl rfl
  | take lane =>
    cases h : r lane with
    | nil =>
      have hstep : r.step (.take lane) = (.taken none, r) := by
        rw [step, h, List.head?_nil, List.tail_nil, Function.update_eq_self_iff.mpr h.symm]
      rw [hstep]
      exact .nothing rfl rfl
    | cons x rest =>
      have hstep : r.step (.take lane) =
          (.taken (some x), Function.update r lane ((r lane).erase x)) := by
        simp [step, h]
      rw [hstep]
      exact .quit rfl rfl (h ▸ List.mem_cons_self ..)
  | remove lane x =>
    by_cases h : x ∈ r lane
    · have hstep : r.step (.remove lane x) =
          (.removed true, Function.update r lane ((r lane).erase x)) := by
        simp [step, h]
      rw [hstep]
      exact .quit rfl rfl h
    · have hstep : r.step (.remove lane x) = (.removed false, r) := by
        simp [step, h, List.erase_of_not_mem h]
      rw [hstep]
      exact .nothing rfl rfl

theorem step_snd_of_ne (r : Rows α) (h : call.lane ≠ lane) : (r.step call).2 lane = r lane := by
  cases call <;> exact Function.update_of_ne (Ne.symm h) ..

end Rows

/-! ### Those who are present -/

theorem mem_rows : x ∈ rows calls lane ↔ (lane, x) ∈ joined calls ∧ (lane, x) ∉ gone calls := by
  simp [rows, mem_rowsOf, present]

/-- Of those who registered in a lane, those who are not gone are left. -/
theorem rows_eq_filter (calls : List (Call α)) (lane : Lane) :
    rows calls lane = (rowsOf (joined calls) lane).filter fun x => (lane, x) ∉ gone calls := by
  rw [rows, rowsOf, rowsOf, present, List.filter_map, List.filter_filter, List.filter_filter]
  refine congrArg _ (List.filter_congr fun entry _ => ?_)
  by_cases h : entry.1 = lane
  · subst h
    simp
  · simp [h]

/-- At the head of a list is the earliest who registered there and is not gone. -/
theorem head?_rows (calls : List (Call α)) (lane : Lane) : (rows calls lane).head? =
    ((joined calls).find? fun entry => entry.1 = lane ∧ entry ∉ gone calls).map (·.2) := by
  rw [rows, rowsOf, present, List.filter_filter, List.head?_map, List.head?_filter]
  simp

namespace Distinct

theorem nodup_present (h : Distinct calls) : ((present calls).map (·.2)).Nodup :=
  h.sublist (List.filter_sublist.map _)

theorem nodup_rows (h : Distinct calls) (lane : Lane) : (rows calls lane).Nodup :=
  h.nodup_present.sublist (List.filter_sublist.map _)

theorem alone (h : Distinct calls) (hx : x ∈ rows calls lane) (hx' : x ∈ rows calls other) :
    lane = other :=
  h.eq_lane (mem_rows.mp hx).1 (mem_rows.mp hx').1

end Distinct

/-! ### Lanes and lists go together -/

/-- A call that comes after some calls, with its answer. -/
def next (calls : List (Call α)) (call : Call α) : Event α := ⟨call, ((run calls).step call).1⟩

theorem trace_concat (calls : List (Call α)) (call : Call α) :
    trace (calls ++ [call]) = trace calls ++ [next calls call] := answered_concat ..

theorem gone_concat (calls : List (Call α)) (call : Call α) :
    gone (calls ++ [call]) = gone calls ++ (next calls call).quits?.toList := by
  rw [gone, trace_concat, List.filterMap_append]
  cases h : (next calls call).quits? <;> simp [gone, h]

theorem present_concat (calls : List (Call α)) (call : Call α) :
    present (calls ++ [call]) =
      (present calls).filter (· ∉ (next calls call).quits?.toList) ++
        call.joins?.toList.filter (· ∉ gone (calls ++ [call])) := by
  have hfirst : (joined calls).filter (· ∉ gone (calls ++ [call])) =
      (present calls).filter (· ∉ (next calls call).quits?.toList) := by
    rw [present, List.filter_filter]
    refine List.filter_congr fun entry _ => ?_
    rw [gone_concat]
    simp [Bool.and_comm]
  rw [present, joined_concat, List.filter_append, hfirst]

/-- The lists that a call leaves are again those of who is present. -/
theorem Rows.Does.eq_rows {r : Rows α} (hdoes : (rows calls).Does (next calls call) r)
    (hcame : ∀ entry ∈ gone calls, entry ∈ joined calls) (h : Distinct (calls ++ [call])) :
    r = Lanes.rows (calls ++ [call]) := by
  rw [Lanes.rows, present_concat, gone_concat]
  cases hdoes with
  | @join lane x hjoins hquits =>
    have hnew : (lane, x) ∉ gone calls := fun hin => h.notMem_joined hjoins (hcame _ hin)
    rw [show call.joins? = some (lane, x) from hjoins, hquits]
    simp [hnew, Lanes.rows, rowsOf_concat]
  | @quit lane x hjoins hquits =>
    have herase : (present calls).filter (· ∉ [(lane, x)]) = (present calls).erase (lane, x) := by
      rw [(List.Nodup.of_map _ h.of_concat.nodup_present).erase_eq_filter]
      refine List.filter_congr fun entry _ => ?_
      rw [Bool.eq_iff_iff]
      simp
    rw [show call.joins? = none from hjoins, hquits, Option.toList_some, herase,
      Option.toList_none, List.filter_nil, List.append_nil, rowsOf_erase, Lanes.rows]
  | nothing hjoins hquits =>
    rw [show call.joins? = none from hjoins, hquits]
    simp [Lanes.rows]

theorem Rows.Does.mem_present {r : Rows α} (hdoes : (rows calls).Does (next calls call) r)
    (hentry : (next calls call).quits? = some entry) : entry ∈ present calls := by
  cases hdoes with
  | @quit lane x _ hquits hin =>
    obtain rfl := Option.some.inj (hquits.symm.trans hentry)
    exact mem_rowsOf.mp hin
  | join _ hquits => cases hquits.symm.trans hentry
  | nothing _ hquits => cases hquits.symm.trans hentry

/-- So far lanes and plain lists agree, and both have those who are present. -/
structure Told (calls : List (Call α)) : Prop where
  answers : trace calls = Rows.trace calls
  lists : (run calls).line = Rows.run calls
  members : Rows.run calls = rows calls
  /-- Nobody is gone who did not register, or twice. -/
  came : ∀ entry ∈ gone calls, entry ∈ joined calls
  once : (gone calls).Nodup

namespace Told

theorem line_eq (ht : Told calls) : (run calls).line = rows calls := ht.lists.trans ht.members

/-- The next call is answered as the lists would answer it, -/
theorem step_fst (ht : Told calls) (call : Call α) :
    ((run calls).step call).1 = ((rows calls).step call).1 := by
  rw [Lanes.step_fst, ht.line_eq]

/-- and leaves what it would make of them. -/
theorem line_step (ht : Told calls) (h : Distinct calls) (call : Call α) :
    ((run calls).step call).2.line = ((rows calls).step call).2 := by
  rw [← ht.line_eq]
  exact Lanes.line_step (fun lane => ht.line_eq ▸ h.nodup_rows lane) call

theorem concat (ht : Told calls) (h : Distinct (calls ++ [call])) : Told (calls ++ [call]) := by
  have hrun : Rows.run (calls ++ [call]) = ((rows calls).step call).2 := by
    rw [← ht.members]
    exact after_concat ..
  have hdoes : (rows calls).Does (next calls call) (Rows.run (calls ++ [call])) := by
    rw [hrun, next, ht.step_fst]
    exact Rows.does_step ..
  have hquits : ∀ entry ∈ (next calls call).quits?.toList, entry ∈ present calls :=
    fun entry hin => hdoes.mem_present (Option.mem_toList.mp hin)
  refine ⟨?_, ?_, hdoes.eq_rows ht.came h, ?_, ?_⟩
  · rw [trace_concat, next, ht.step_fst, ht.answers, ← ht.members]
    exact (answered_concat ..).symm
  · rw [hrun, ← ht.line_step h.of_concat, run, after_concat, run]
  · intro entry hin
    rw [gone_concat] at hin
    rw [joined_concat]
    refine List.mem_append_left _ ?_
    rcases List.mem_append.mp hin with hin | hin
    · exact ht.came entry hin
    · exact (List.mem_filter.mp (hquits entry hin)).1
  · rw [gone_concat]
    refine List.Nodup.append ht.once (Option.toList_nodup _) fun entry hin hin' => ?_
    simpa [hin] using (List.mem_filter.mp (hquits entry hin')).2

end Told

theorem told_run (calls : List (Call α)) (h : Distinct calls) : Told calls := by
  induction calls using List.reverseRecOn with
  | nil => exact ⟨rfl, funext line_empty, rfl, by simp [gone, trace, answered],
      by simp [gone, trace, answered]⟩
  | append_singleton calls call ih => exact (ih h.of_concat).concat h

/-! ### How many are parked -/

namespace Told

/-- The lanes of a kind hold those of the kind who are present. -/
theorem perm_waiting (ht : Told calls) (h : Distinct calls) (kind : Kind) :
    ((run calls).waiting kind).Perm (((present calls).filter (·.1.kind = kind)).map (·.2)) := by
  have hwaiting : ((run calls).waiting kind).Nodup := by
    refine nodup_waiting (fun lane => ht.line_eq ▸ h.nodup_rows lane) fun hx hx' => ?_
    rw [ht.line_eq] at hx hx'
    exact h.alone hx hx'
  have hpresent : (((present calls).filter (·.1.kind = kind)).map (·.2)).Nodup :=
    h.nodup_present.sublist (List.filter_sublist.map _)
  refine (List.perm_ext_iff_of_nodup hwaiting hpresent).mpr fun x => ?_
  rw [mem_waiting, ht.line_eq]
  simp [rows, mem_rowsOf, and_comm]

theorem count_add (ht : Told calls) (h : Distinct calls) (kind : Kind) :
    (run calls).count kind + (gone calls).countP (·.1.kind = kind) =
      (joined calls).countP (·.1.kind = kind) := by
  have hcount : (run calls).count kind = (present calls).countP (·.1.kind = kind) := by
    rw [count, (ht.perm_waiting h kind).length_eq, List.length_map, List.countP_eq_length_filter]
  -- Whoever registered is gone or present.
  have hgone : ((joined calls).filter (· ∈ gone calls)).Perm (gone calls) := by
    refine (List.perm_ext_iff_of_nodup ((List.Nodup.of_map _ h).filter _) ht.once).mpr
      fun entry => ?_
    simpa using ht.came entry
  have hsplit : _ = (joined calls).countP (·.1.kind = kind) :=
    (List.filter_append_perm (· ∈ gone calls) (joined calls)).countP_eq _
  rw [List.countP_append, hgone.countP_eq] at hsplit
  rw [hcount, ← hsplit, Nat.add_comm, present]
  simp

/-! ### The next call -/

theorem step_remove (ht : Told calls) (hnot : x ∉ rows calls lane) :
    (run calls).step (.remove lane x) = (.removed false, run calls) :=
  step_remove_of_notMem (ht.line_eq ▸ hnot)

theorem line_remove (ht : Told calls) (h : Distinct calls) {front back : List α}
    (hrow : rows calls lane = front ++ x :: back) :
    ((run calls).step (.remove lane x)).2.line lane = front ++ back := by
  have hnodup : (front ++ x :: back).Nodup := hrow ▸ h.nodup_rows lane
  have hfront : x ∉ front := fun hin =>
    List.disjoint_of_nodup_append hnodup hin (List.mem_cons_self ..)
  have herase : (rows calls lane).erase x = front ++ back := by
    rw [hrow, List.erase_append_right _ hfront, List.erase_cons_head]
  rw [ht.line_step h, ← herase]
  exact Function.update_self ..

theorem line_step_of_ne (ht : Told calls) (h : Distinct calls) (hne : call.lane ≠ lane) :
    ((run calls).step call).2.line lane = (run calls).line lane := by
  rw [ht.line_step h, Rows.step_snd_of_ne _ hne, ht.line_eq]

end Told

/-- As long as nobody registers twice, lanes are a family of lists, each of them on its own. -/
theorem families_run (calls : List (Call α)) (h : Distinct calls) : Families calls := by
  have ht := told_run calls h
  refine
    { answers := ht.answers
      lists := ht.lists
      line := ht.line_eq
      kept := fun lane => by rw [getElem?_lines, ht.line_eq]
      once := h.nodup_rows
      alone := fun _ _ _ => h.alone
      parked := ht.count_add h
      register := fun lane x => ⟨rfl, ?register⟩
      take := fun lane => ⟨?taken, ?behind⟩
      vacant := fun lane => ?vacant
      remove := fun lane x => ?remove
      removed := fun _ _ _ _ => ht.line_remove h
      absent := fun _ _ => ht.step_remove
      astray := fun lane other x hin hne => ht.step_remove fun hin' => ?astray
      again := fun lane other x hgone => ht.step_remove fun hin => ?again
      others := fun call lane hne => ⟨ht.line_step_of_ne h hne, ?others⟩ }
  case register =>
    rw [ht.line_step h]
    exact Function.update_self ..
  case taken => rw [ht.step_fst, Rows.step, head?_rows]
  case behind =>
    rw [ht.line_step h]
    exact Function.update_self ..
  case vacant => rw [ht.step_fst, Rows.step, Answer.taken.injEq, List.head?_eq_none_iff]
  case remove => rw [ht.step_fst, Rows.step, Answer.removed.injEq, decide_eq_true_iff]
  case astray =>
    obtain rfl := h.alone hin' hin
    simp at hne
  case again =>
    obtain ⟨hjoined, hnot⟩ := mem_rows.mp hin
    obtain rfl := h.eq_lane hjoined (ht.came _ hgone)
    exact hnot hgone
  case others => rw [getElem?_lines, getElem?_lines, ht.line_step_of_ne h hne]

/-- Three workers wait for regional work, and one for priority work of the same category.  The second
of the three is removed, the third is looked for under the wrong kind, the second is to be removed
again, and then the head of each line is taken. -/
def fourWorkers : List (Call ConnectionId) :=
  let regional : Lane := ⟨.regional, ⟨"graph", "1"⟩⟩
  let priority : Lane := ⟨.priority, ⟨"graph", "1"⟩⟩
  [.register regional ⟨0⟩, .register regional ⟨1⟩, .register priority ⟨2⟩, .register regional ⟨3⟩,
    .remove regional ⟨1⟩, .remove priority ⟨3⟩, .remove regional ⟨1⟩, .take priority,
    .take regional]

/-- The third of them is left, and for priority work there is no line any more. -/
theorem families_fourWorkers : Distinct fourWorkers ∧ Families fourWorkers ∧
    ((trace fourWorkers).drop 4).map Event.answer = [.removed true, .removed false,
      .removed false, .taken (some ⟨2⟩), .taken (some ⟨0⟩)] ∧
    (run fourWorkers).lines.toList = [(⟨.regional, ⟨"graph", "1"⟩⟩, [⟨3⟩])] := by
  have hdistinct : Distinct fourWorkers := by
    rw [Distinct]
    decide
  exact ⟨hdistinct, families_run fourWorkers hdistinct, by decide +kernel, by decide +kernel⟩

end TaskExchange.Lanes
