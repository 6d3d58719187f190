import Std.Data.ExtTreeMap
import TaskExchange.Text.Scan

/-!
Identifiers: tasks are numbered by the exchange, jobs and workers are named by those who bring
them.  A task number is read from a text that holds an optional plus sign and decimal digits and
stays below the limit of a 64-bit word.
-/

namespace TaskExchange

/-- The number under which a task was accepted. -/
structure TaskId where
  value : Nat
  deriving DecidableEq, Inhabited

/-- The name of a job, chosen by its producer. -/
structure JobId where
  name : String
  deriving DecidableEq, Inhabited

/-- The identity that a worker reports of itself. -/
structure WorkerId where
  name : String
  deriving DecidableEq, Inhabited

namespace TaskId

/-- Task numbers are smaller than this. -/
def bound : Nat := Text.wordBound

/-- The number that follows. -/
def next (id : TaskId) : TaskId := ⟨id.value + 1⟩

instance : Ord TaskId := ⟨compareOn value⟩

instance : Std.TransOrd TaskId := inferInstanceAs (Std.TransCmp (compareOn value))

instance : Std.LawfulEqOrd TaskId where
  eq_of_compare {a b} h := by
    cases a; cases b
    exact congrArg mk (Std.LawfulEqOrd.eq_of_compare h)

/-- Task numbers stand in order of acceptance. -/
instance : LE TaskId := ⟨fun a b => a.value ≤ b.value⟩

instance (a b : TaskId) : Decidable (a ≤ b) := inferInstanceAs (Decidable (a.value ≤ b.value))

/-- The task number that a text spells. -/
def ofString? (s : String) : Option TaskId := (Text.word? s).map mk

/-- The task number as it is shown. -/
def label (id : TaskId) : String := toString id.value

end TaskId

instance : Ord JobId := ⟨compareOn JobId.name⟩

instance : Std.TransOrd JobId := inferInstanceAs (Std.TransCmp (compareOn JobId.name))

instance : Std.LawfulEqOrd JobId where
  eq_of_compare {a b} h := by
    cases a; cases b
    exact congrArg JobId.mk (Std.LawfulEqOrd.eq_of_compare h)

instance : Ord WorkerId := ⟨compareOn WorkerId.name⟩

instance : Std.TransOrd WorkerId := inferInstanceAs (Std.TransCmp (compareOn WorkerId.name))

instance : Std.LawfulEqOrd WorkerId where
  eq_of_compare {a b} h := by
    cases a; cases b
    exact congrArg WorkerId.mk (Std.LawfulEqOrd.eq_of_compare h)

end TaskExchange
