import Std.Data.ExtTreeMap
import TaskExchange.Text.Scan

/-!
Categories: the pair of a graph and a worker version that decides which workers may run a task.  Two
workers with equal categories are interchangeable, and a worker is only ever given tasks of its own
category.  The pair is what counts: `a@b` with `c` and `a` with `b@c` are shown alike and are
different categories.
-/

namespace TaskExchange

/-- The routing key of tasks and workers. -/
structure Category where
  /-- The transport network that the worker has loaded. -/
  graph : String
  /-- The worker build that the task was written for. -/
  version : String
  deriving DecidableEq, Inhabited

/-- What can be wrong with the two fields of a category. -/
inductive CategoryFault where
  | blankGraph
  | blankVersion
  /-- A fault that the caller words itself. -/
  | other (reason : String)
  deriving DecidableEq

namespace CategoryFault

/-- The wording of a category's fault. -/
def reason : CategoryFault → String
  | blankGraph => "graphId cannot be empty"
  | blankVersion => "workerVersion cannot be empty"
  | other reason => reason

end CategoryFault

namespace Category

/-- A category of two fields that are not blank; the graph is looked at first, and the fields are
kept as they are. -/
def ofFields (graph version : String) : Except CategoryFault Category :=
  if Text.blank graph then .error .blankGraph
  else if Text.blank version then .error .blankVersion
  else .ok ⟨graph, version⟩

/-- The category as it is shown to people. -/
def label (c : Category) : String := c.graph ++ "@" ++ c.version

/-- Categories are ordered by graph, then by version, code point by code point. -/
instance : Ord Category := ⟨compareLex (compareOn graph) (compareOn version)⟩

theorem compare_eq (a b : Category) :
    compare a b = (compare a.graph b.graph).then (compare a.version b.version) := rfl

instance : Std.TransOrd Category :=
  inferInstanceAs (Std.TransCmp (compareLex (compareOn graph) (compareOn version)))

instance : Std.LawfulEqOrd Category where
  eq_of_compare {a b} h := by
    rw [compare_eq, Ordering.then_eq_eq] at h
    cases a; cases b
    simp only [Std.LawfulEqOrd.compare_eq_iff_eq] at h
    simp [h.1, h.2]

theorem ofFields_eq_ok_iff {graph version : String} {c : Category} :
    ofFields graph version = .ok c ↔
      Text.blank graph = false ∧ Text.blank version = false ∧ c = ⟨graph, version⟩ := by
  unfold ofFields
  by_cases hg : Text.blank graph = true
  · simp [hg]
  · by_cases hv : Text.blank version = true
    · simp [hg, hv]
    · simp only [Bool.not_eq_true] at hg hv
      simp [hg, hv, eq_comm]

end Category

end TaskExchange
