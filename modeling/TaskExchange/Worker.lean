import TaskExchange.Ident
import TaskExchange.Category
import TaskExchange.Time.Timestamp

/-!
Workers: what is known of a worker is the category it last polled for, and when.  The catalog keeps
the latest observation of every worker until a purge finds it too old.
-/

namespace TaskExchange

/-- When a worker was last seen, and what it polled for. -/
structure Observation where
  worker : WorkerId
  category : Category
  lastSeen : Timestamp
  deriving DecidableEq, Inhabited

/-- The latest observation of every worker. -/
structure Catalog where
  seen : Std.ExtTreeMap WorkerId Observation

namespace Catalog

/-- No worker was ever seen. -/
def empty : Catalog := ⟨∅⟩

instance : Inhabited Catalog := ⟨empty⟩

/-- Records that a worker polls for a category. -/
def record (c : Catalog) (now : Timestamp) (worker : WorkerId) (category : Category) : Catalog :=
  ⟨c.seen.insert worker ⟨worker, category, now⟩⟩

/-- The latest observation of a worker. -/
def get? (c : Catalog) (worker : WorkerId) : Option Observation := c.seen[worker]?

/-- Every observation, in the order of the workers' names. -/
def observations (c : Catalog) : List Observation := c.seen.toList.map (·.2)

/-- Forgets the workers last seen before a time, and tells how many they were. -/
def purge (c : Catalog) (cutoff : Timestamp) : Nat × Catalog :=
  let kept := c.seen.filter fun _ o => !o.lastSeen.before cutoff
  (c.seen.size - kept.size, ⟨kept⟩)

/-- How many workers were last seen under each category, in the order of categories; a category
without workers is not listed. -/
def byCategory (c : Catalog) : List (Category × Nat) :=
  (c.observations.foldl
    (fun (counts : Std.ExtTreeMap Category Nat) o =>
      counts.insert o.category (counts.getD o.category 0 + 1)) ∅).toList

end Catalog

end TaskExchange
