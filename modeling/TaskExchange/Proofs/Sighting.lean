import Mathlib.Algebra.BigOperators.Group.List.Lemmas
import TaskExchange.Proofs.Census
import TaskExchange.Worker

/-!
Sightings: what the catalog keeps of a history.  Workers are recorded and purges are made in any
order, and the times need not be in order either: a later record may carry an earlier time, and a
purge may be told any cutoff.  Main statements: the reports agree with each other (`mem_byCategory`,
`sum_byCategory`), and after every history each worker stands there with its latest record, unless a
purge since then found that record too old (`sightings_run`).
-/

namespace TaskExchange.Catalog

/-- What can be done to a catalog. -/
inductive Act where
  | record (now : Timestamp) (worker : WorkerId) (category : Category)
  | purge (cutoff : Timestamp)

/-- The catalog after an act. -/
def act (c : Catalog) : Act → Catalog
  | .record now worker category => c.record now worker category
  | .purge cutoff => (c.purge cutoff).2

/-- The catalog after a history of acts, the first one in front. -/
def after (acts : List Act) : Catalog := acts.foldl act empty

/-- Holds of a worker that is reported. -/
def Lists (c : Catalog) (worker : WorkerId) : Prop := ∃ o ∈ c.observations, o.worker = worker

/-- Holds of a worker that a purge after a history drops. -/
def Drops (acts : List Act) (cutoff : Timestamp) (worker : WorkerId) : Prop :=
  (after acts).Lists worker ∧ ¬ (after (acts ++ [.purge cutoff])).Lists worker

/-- The latest record of a worker in a history is this observation, and these acts came after it. -/
structure Latest (acts : List Act) (o : Observation) (since : List Act) : Prop where
  split : ∃ past, acts = past ++ .record o.lastSeen o.worker o.category :: since
  last : ∀ now category, .record now o.worker category ∉ since

/-- The observation is the latest record of its worker, and no purge since then has found it too
old. -/
def Stands (acts : List Act) (o : Observation) : Prop :=
  ∃ since, Latest acts o since ∧
    ∀ cutoff, .purge cutoff ∈ since → o.lastSeen.before cutoff = false

/-- What a catalog reports after a history. -/
structure Sightings (acts : List Act) : Prop where
  /-- A worker is reported if it was recorded and no purge has dropped it since. -/
  listed : ∀ worker, (after acts).Lists worker ↔ ∃ past now category since,
    acts = past ++ .record now worker category :: since ∧
    ∀ first cutoff rest, since = first ++ .purge cutoff :: rest →
      ¬ Drops (past ++ .record now worker category :: first) cutoff worker
  /-- What is reported of it is its latest record. -/
  latest : ∀ o, o ∈ (after acts).observations ↔ Stands acts o
  increasing : ((after acts).observations.map (·.worker.name)).Pairwise (· < ·)
  /-- A purge drops what was last seen before its cutoff, and tells how many that were. -/
  purged : ∀ cutoff,
    ((after acts).purge cutoff).2.observations =
      (after acts).observations.filter (!·.lastSeen.before cutoff) ∧
    ((after acts).purge cutoff).1 =
      (after acts).observations.countP (·.lastSeen.before cutoff)
  /-- Each category that is counted has that many workers, and it has some. -/
  counted : ∀ category n, (category, n) ∈ (after acts).byCategory ↔
    n = (after acts).observations.countP (·.category = category) ∧ 0 < n
  /-- No category is counted twice. -/
  once : ((after acts).byCategory.map (·.1)).Nodup
  total : ((after acts).byCategory.map (·.2)).sum = (after acts).observations.length

variable {c : Catalog} {acts since : List Act} {o : Observation} {worker : WorkerId}
  {category : Category} {now cutoff : Timestamp} {n : Nat}

/-! ### Counting by category -/

/-- Counting adds to each category how often it occurs. -/
theorem getElem?_foldl_count (category : Category) : ∀ (l : List Observation)
    (counts : Std.ExtTreeMap Category Nat),
    (l.foldl (fun counts o => counts.insert o.category (counts.getD o.category 0 + 1))
      counts)[category]? =
    if l.countP (·.category = category) = 0 then counts[category]?
    else some (counts.getD category 0 + l.countP (·.category = category))
  | [], _ => by simp
  | o :: l, counts => by
    rw [List.foldl_cons, getElem?_foldl_count category l, Std.ExtTreeMap.getElem?_insert,
      Std.ExtTreeMap.getD_insert, List.countP_cons]
    by_cases h : o.category = category
    · subst h
      by_cases hzero : l.countP (·.category = o.category) = 0
      · simp [hzero]
      · simp [hzero, Nat.add_assoc, Nat.add_comm 1]
    · simp [h]

/-- A category is counted with the number of its workers, if it has any. -/
theorem mem_byCategory : (category, n) ∈ c.byCategory ↔
    n = c.observations.countP (·.category = category) ∧ 0 < n := by
  rw [byCategory, Std.ExtTreeMap.mem_toList_iff_getElem?_eq_some, getElem?_foldl_count]
  split
  · next h => simp [h]
  · next h =>
    rw [Std.ExtTreeMap.getD_empty, Nat.zero_add, Option.some.injEq, eq_comm (a := n)]
    refine ⟨fun heq => ⟨heq, heq ▸ Nat.pos_of_ne_zero h⟩, fun heq => heq.1⟩

/-- The categories are counted in their order. -/
theorem pairwise_byCategory (c : Catalog) :
    c.byCategory.Pairwise fun a b => compare a.1 b.1 = .lt :=
  Std.ExtTreeMap.ordered_keys_toList

theorem nodup_byCategory (c : Catalog) : (c.byCategory.map (·.1)).Nodup := by
  rw [byCategory, Std.ExtTreeMap.map_fst_toList_eq_keys]
  exact Std.ExtTreeMap.nodup_keys

/-- The numbers of the categories add up to the number of workers. -/
theorem sum_byCategory (c : Catalog) :
    (c.byCategory.map (·.2)).sum = c.observations.length := by
  have hcount : ∀ entry ∈ c.byCategory,
      entry.2 = (c.observations.map (·.category)).count entry.1 := by
    rintro ⟨category, n⟩ hentry
    rw [(mem_byCategory.mp hentry).1, List.count, List.countP_map]
    rfl
  have hperm : (c.byCategory.map (·.1)).Perm (c.observations.map (·.category)).dedup := by
    refine (List.perm_ext_iff_of_nodup c.nodup_byCategory (List.nodup_dedup _)).mpr fun k => ?_
    simp only [List.mem_map, List.mem_dedup, Prod.exists, exists_and_right, exists_eq_right,
      mem_byCategory, exists_eq_left, List.countP_pos_iff, decide_eq_true_eq]
  calc (c.byCategory.map (·.2)).sum
      = ((c.byCategory.map (·.1)).map ((c.observations.map (·.category)).count ·)).sum := by
        rw [List.map_map]
        exact congrArg List.sum (List.map_congr_left hcount)
    _ = ((c.observations.map (·.category)).dedup.map
          ((c.observations.map (·.category)).count ·)).sum := (hperm.map _).sum_eq
    _ = c.observations.length := by
        rw [List.sum_map_count_dedup_eq_length, List.length_map]

/-! ### One act -/

/-- Each observation is kept under its worker. -/
def Keyed (c : Catalog) : Prop :=
  ∀ {worker : WorkerId} {o : Observation}, c.seen[worker]? = some o → o.worker = worker

theorem mem_observations (hc : Keyed c) : o ∈ c.observations ↔ c.seen[o.worker]? = some o :=
  mem_values hc

/-- A record takes the place of what was known of its worker. -/
theorem mem_observations_record (hc : Keyed c) (hc' : Keyed (c.record now worker category)) :
    o ∈ (c.record now worker category).observations ↔
      o = ⟨worker, category, now⟩ ∨ o.worker ≠ worker ∧ o ∈ c.observations := by
  rw [mem_observations hc', mem_observations hc, record, Std.ExtTreeMap.getElem?_insert]
  by_cases h : worker = o.worker
  · subst h
    simp [eq_comm]
  · have hne : o ≠ ⟨worker, category, now⟩ := fun heq => h (congrArg Observation.worker heq).symm
    simp [h, Ne.symm h, hne]

theorem size_seen (c : Catalog) : c.seen.size = c.observations.length := by
  rw [observations, List.length_map, Std.ExtTreeMap.length_toList]

/-- A purge keeps those that are not too old, in their order. -/
theorem observations_purge (c : Catalog) (cutoff : Timestamp) :
    (c.purge cutoff).2.observations = c.observations.filter (!·.lastSeen.before cutoff) := by
  rw [observations, observations, List.filter_map, purge, Std.ExtTreeMap.toList_filter]
  rfl

/-- A purge tells how many were too old. -/
theorem purge_fst (c : Catalog) (cutoff : Timestamp) :
    (c.purge cutoff).1 = c.observations.countP (·.lastSeen.before cutoff) := by
  have hkept : (c.purge cutoff).2.seen.size =
      c.observations.countP (!·.lastSeen.before cutoff) := by
    rw [size_seen, observations_purge, List.countP_eq_length_filter]
  have hsplit := List.length_eq_countP_add_countP (·.lastSeen.before cutoff) (l := c.observations)
  have hfst : (c.purge cutoff).1 = c.seen.size - (c.purge cutoff).2.seen.size := rfl
  rw [hfst, hkept, size_seen, hsplit]
  simp

theorem Keyed.act (hc : Keyed c) (a : Act) : Keyed (c.act a) := by
  intro worker o ho
  cases a with
  | record now other category =>
    rw [Catalog.act, record, Std.ExtTreeMap.getElem?_insert] at ho
    split at ho
    · next heq =>
      obtain rfl := Option.some.inj ho
      exact Std.LawfulEqOrd.compare_eq_iff_eq.mp heq
    · exact hc ho
  | purge cutoff =>
    rw [Catalog.act, purge, Std.ExtTreeMap.getElem?_filter', Option.filter_eq_some_iff] at ho
    exact hc ho.1

/-! ### Histories -/

theorem after_concat (acts : List Act) (a : Act) : after (acts ++ [a]) = (after acts).act a := by
  rw [after, List.foldl_append]
  rfl

theorem keyed_after (acts : List Act) : Keyed (after acts) := by
  induction acts using List.reverseRecOn with
  | nil => intro worker o ho; simp [after, empty] at ho
  | append_singleton acts a ih => exact after_concat acts a ▸ ih.act a

/-- The last act is the latest record of a worker, or what was the latest record still is. -/
theorem latest_concat {a : Act} : Latest (acts ++ [a]) o since ↔
    a = .record o.lastSeen o.worker o.category ∧ since = [] ∨
    ∃ since', since = since' ++ [a] ∧ Latest acts o since' ∧
      ∀ now category, a ≠ .record now o.worker category := by
  constructor
  · rintro ⟨⟨past, hsplit⟩, hlast⟩
    rcases List.eq_nil_or_concat since with rfl | ⟨since', b, rfl⟩
    · exact Or.inl ⟨(List.append_inj' hsplit rfl).2 |> List.singleton_inj.mp, rfl⟩
    · rw [List.concat_eq_append] at hsplit hlast ⊢
      rw [← List.cons_append, ← List.append_assoc] at hsplit
      obtain ⟨rfl, hab⟩ := List.append_inj' hsplit rfl
      obtain rfl := List.singleton_inj.mp hab
      refine Or.inr ⟨since', rfl, ⟨⟨past, rfl⟩, fun now category hin => ?_⟩, ?_⟩
      · exact hlast now category (List.mem_append_left _ hin)
      · rintro now category rfl
        exact hlast now category (by simp)
  · rintro (⟨rfl, rfl⟩ | ⟨since', rfl, ⟨⟨past, rfl⟩, hlast⟩, hne⟩)
    · exact ⟨⟨acts, rfl⟩, by simp⟩
    · refine ⟨⟨past, by simp⟩, fun now category hin => ?_⟩
      rcases List.mem_append.mp hin with hin | hin
      · exact hlast now category hin
      · exact hne now category (List.mem_singleton.mp hin).symm

theorem stands_record : Stands (acts ++ [.record now worker category]) o ↔
    o = ⟨worker, category, now⟩ ∨ o.worker ≠ worker ∧ Stands acts o := by
  simp only [Stands, latest_concat]
  constructor
  · rintro ⟨since, ⟨hrecord, -⟩ | ⟨since', rfl, hlatest, hne⟩, hfresh⟩
    · cases hrecord
      exact Or.inl rfl
    · refine Or.inr ⟨?_, since', hlatest, fun cutoff hin => ?_⟩
      · rintro rfl
        exact hne now category rfl
      · exact hfresh cutoff (List.mem_append_left _ hin)
  · rintro (rfl | ⟨hne, since, hlatest, hfresh⟩)
    · exact ⟨[], Or.inl ⟨rfl, rfl⟩, by simp⟩
    · refine ⟨_, Or.inr ⟨since, rfl, hlatest, ?_⟩, fun cutoff hin => hfresh cutoff ?_⟩
      · rintro now category ⟨⟩
        exact hne rfl
      · simpa using hin

theorem stands_purge : Stands (acts ++ [.purge cutoff]) o ↔
    Stands acts o ∧ o.lastSeen.before cutoff = false := by
  simp only [Stands, latest_concat]
  constructor
  · rintro ⟨since, ⟨⟨⟩, -⟩ | ⟨since', rfl, hlatest, -⟩, hfresh⟩
    exact ⟨⟨since', hlatest, fun cutoff hin => hfresh cutoff (List.mem_append_left _ hin)⟩,
      hfresh cutoff (by simp)⟩
  · rintro ⟨⟨since, hlatest, hfresh⟩, hcutoff⟩
    refine ⟨_, Or.inr ⟨since, rfl, hlatest, by simp⟩, fun other hin => ?_⟩
    rcases List.mem_append.mp hin with hin | hin
    · exact hfresh other hin
    · cases List.mem_singleton.mp hin
      exact hcutoff

/-- After every history, what is reported is the latest record of each worker that no purge has
dropped since. -/
theorem mem_observations_after (acts : List Act) :
    o ∈ (after acts).observations ↔ Stands acts o := by
  induction acts using List.reverseRecOn with
  | nil =>
    refine iff_of_false (by simp [after, empty, observations]) ?_
    rintro ⟨since, ⟨⟨past, hsplit⟩, -⟩, -⟩
    simp at hsplit
  | append_singleton acts a ih =>
    rw [after_concat]
    cases a with
    | record now worker category =>
      have hkeyed : Keyed ((after acts).record now worker category) :=
        Keyed.act (keyed_after acts) (.record now worker category)
      rw [act, mem_observations_record (keyed_after acts) hkeyed, stands_record, ih]
    | purge cutoff =>
      rw [act, observations_purge, List.mem_filter, stands_purge, ih]
      simp

theorem lists_record (acts : List Act) (now : Timestamp) (worker : WorkerId)
    (category : Category) : (after (acts ++ [.record now worker category])).Lists worker :=
  ⟨⟨worker, category, now⟩, (mem_observations_after _).mpr (stands_record.mpr (Or.inl rfl)), rfl⟩

/-- A worker that was recorded is reported until a purge drops it. -/
theorem lists_of_not_drops {past : List Act} (hin : (after past).Lists worker)
    (since : List Act) : (∀ first cutoff rest, since = first ++ .purge cutoff :: rest →
      ¬ Drops (past ++ first) cutoff worker) → (after (past ++ since)).Lists worker := by
  induction since using List.reverseRecOn with
  | nil => intro _; rwa [List.append_nil]
  | append_singleton since a ih =>
    intro hkept
    have hbefore : (after (past ++ since)).Lists worker :=
      ih fun first cutoff rest hsplit => hkept first cutoff (rest ++ [a]) (by simp [hsplit])
    rw [← List.append_assoc]
    cases a with
    | record now other category =>
      obtain ⟨o, ho, rfl⟩ := hbefore
      rw [mem_observations_after] at ho
      by_cases h : o.worker = other
      · exact h ▸ lists_record ..
      · exact ⟨o, (mem_observations_after _).mpr (stands_record.mpr (Or.inr ⟨h, ho⟩)), rfl⟩
    | purge cutoff =>
      by_contra hnot
      exact hkept since cutoff [] rfl ⟨hbefore, hnot⟩

theorem lists_after_iff (acts : List Act) : (after acts).Lists worker ↔
    ∃ past now category since, acts = past ++ .record now worker category :: since ∧
      ∀ first cutoff rest, since = first ++ .purge cutoff :: rest →
        ¬ Drops (past ++ .record now worker category :: first) cutoff worker := by
  constructor
  · rintro ⟨o, ho, rfl⟩
    obtain ⟨since, ⟨⟨past, rfl⟩, hlast⟩, hfresh⟩ := (mem_observations_after acts).mp ho
    refine ⟨past, o.lastSeen, o.category, since, rfl, ?_⟩
    rintro first cutoff rest rfl ⟨-, hdropped⟩
    refine hdropped ⟨o, (mem_observations_after _).mpr ?_, rfl⟩
    refine stands_purge.mpr ⟨⟨first, ⟨⟨past, rfl⟩, fun now category hin => ?_⟩, ?_⟩, ?_⟩
    · exact hlast now category (List.mem_append_left _ hin)
    · exact fun other hin => hfresh other (List.mem_append_left _ hin)
    · exact hfresh cutoff (by simp)
  · rintro ⟨past, now, category, since, rfl, hkept⟩
    have hlists := lists_of_not_drops (lists_record past now worker category) since
      fun first cutoff rest hsplit => by simpa using hkept first cutoff rest hsplit
    simpa using hlists

/-- The workers are reported in the order of their names, each once. -/
theorem increasing_observations (hc : Keyed c) :
    (c.observations.map (·.worker.name)).Pairwise (· < ·) := by
  rw [observations, List.map_map, List.pairwise_map]
  refine Std.ExtTreeMap.ordered_keys_toList.imp_of_mem fun {a b} ha hb hlt => ?_
  rw [Std.ExtTreeMap.mem_toList_iff_getElem?_eq_some] at ha hb
  have hlt' : compare a.1.name b.1.name = .lt := hlt
  simpa [hc ha, hc hb] using compareOfLessAndEq_eq_lt.mp hlt'

/-- After every history of records and purges, at whatever times, the reports are those of a
register in which the last record of a worker counts, until a purge finds it too old. -/
theorem sightings_run (acts : List Act) : Sightings acts where
  listed _ := lists_after_iff acts
  latest _ := mem_observations_after acts
  increasing := increasing_observations (keyed_after acts)
  purged cutoff := ⟨observations_purge _ cutoff, purge_fst _ cutoff⟩
  counted _ _ := mem_byCategory
  once := nodup_byCategory _
  total := sum_byCategory _

end TaskExchange.Catalog
