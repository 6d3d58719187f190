import TaskExchange.Category

/-!
Lanes: a lane is a kind of work together with a category.  Tasks wait in lanes for workers and
workers wait in lanes for tasks.  `Lanes` holds one first-in, first-out line for every lane; a lane
without a line and a lane with an empty one are the same, since an empty line is never kept.  Main
statements: what each operation does to the line of every lane.
-/

namespace TaskExchange

/-- The two kinds of work. -/
inductive Kind where
  /-- Part of a job; its completion is only acknowledged. -/
  | regional
  /-- A single request whose sender waits for the result. -/
  | priority
  deriving DecidableEq, Inhabited

namespace Kind

/-- The place of a kind in their order. -/
def index : Kind → Nat
  | regional => 0
  | priority => 1

theorem index_injective {a b : Kind} (h : a.index = b.index) : a = b := by
  cases a <;> cases b <;> simp_all [index]

instance : Ord Kind := ⟨compareOn index⟩

instance : Std.TransOrd Kind := inferInstanceAs (Std.TransCmp (compareOn index))

instance : Std.LawfulEqOrd Kind where
  eq_of_compare h := index_injective (Std.LawfulEqOrd.eq_of_compare h)

/-- The name of a kind's polls. -/
def pollName : Kind → String
  | regional => "regional"
  | priority => "single"

end Kind

/-- Where work of one kind and one category is handed out. -/
structure Lane where
  kind : Kind
  category : Category
  deriving DecidableEq, Inhabited

namespace Lane

instance : Ord Lane := ⟨compareLex (compareOn kind) (compareOn category)⟩

theorem compare_eq (a b : Lane) :
    compare a b = (compare a.kind b.kind).then (compare a.category b.category) := rfl

instance : Std.TransOrd Lane :=
  inferInstanceAs (Std.TransCmp (compareLex (compareOn kind) (compareOn category)))

instance : Std.LawfulEqOrd Lane where
  eq_of_compare {a b} h := by
    rw [compare_eq, Ordering.then_eq_eq] at h
    cases a; cases b
    simp only [Std.LawfulEqOrd.compare_eq_iff_eq] at h
    simp [h.1, h.2]

end Lane

/-- One line for every lane. -/
structure Lanes (α : Type) where
  /-- The lines that are not empty. -/
  lines : Std.ExtTreeMap Lane (List α)
  /-- An empty line is not kept. -/
  nonempty : ∀ {lane : Lane} {xs : List α}, lines[lane]? = some xs → xs ≠ []

namespace Lanes

variable {α : Type}

/-- Nothing waits anywhere. -/
def empty : Lanes α := ⟨∅, by simp⟩

instance : Inhabited (Lanes α) := ⟨empty⟩

/-- What waits in a lane, the first to be served in front. -/
def line (m : Lanes α) (lane : Lane) : List α := m.lines[lane]?.getD []

/-- Gives a lane another line; an empty line is not kept. -/
def setLine (m : Lanes α) (lane : Lane) : List α → Lanes α
  | [] => ⟨m.lines.erase lane, by
      intro other xs h
      rw [Std.ExtTreeMap.getElem?_erase] at h
      split at h
      · cases h
      · exact m.nonempty h⟩
  | x :: xs => ⟨m.lines.insert lane (x :: xs), by
      intro other ys h
      rw [Std.ExtTreeMap.getElem?_insert] at h
      split at h
      · cases h; exact List.cons_ne_nil x xs
      · exact m.nonempty h⟩

/-- Puts some at the end of a lane's line, in their order. -/
def append (m : Lanes α) (lane : Lane) (xs : List α) : Lanes α :=
  m.setLine lane (m.line lane ++ xs)

/-- Puts one at the end of a lane's line. -/
def pushBack (m : Lanes α) (lane : Lane) (x : α) : Lanes α := m.append lane [x]

/-- Puts one at the head of a lane's line. -/
def pushFront (m : Lanes α) (lane : Lane) (x : α) : Lanes α := m.setLine lane (x :: m.line lane)

/-- Takes the head of a lane's line. -/
def pop? (m : Lanes α) (lane : Lane) : Option (α × Lanes α) :=
  match m.line lane with
  | [] => none
  | x :: rest => some (x, m.setLine lane rest)

/-- Keeps of a lane's line what a test holds of. -/
def keep (m : Lanes α) (lane : Lane) (p : α → Bool) : Lanes α :=
  m.setLine lane ((m.line lane).filter p)

/-- Takes one out of a lane's line, wherever it stands, if it stands there. -/
def remove? [DecidableEq α] (m : Lanes α) (lane : Lane) (x : α) : Option (Lanes α) :=
  if x ∈ m.line lane then some (m.keep lane (· ≠ x)) else none

/-- All that wait in the lanes of a kind. -/
def waiting (m : Lanes α) (kind : Kind) : List α :=
  (m.lines.toList.filter fun entry => entry.1.kind = kind).flatMap (·.2)

/-- How many wait in the lanes of a kind. -/
def count (m : Lanes α) (kind : Kind) : Nat := (m.waiting kind).length

/-! ### The lines after an operation -/

@[simp] theorem line_empty (lane : Lane) : (empty : Lanes α).line lane = [] := by
  simp [empty, line]

@[simp] theorem line_setLine_self (m : Lanes α) (lane : Lane) (xs : List α) :
    (m.setLine lane xs).line lane = xs := by
  cases xs <;> simp [setLine, line]

theorem line_setLine_of_ne (m : Lanes α) {lane other : Lane} (xs : List α) (h : lane ≠ other) :
    (m.setLine lane xs).line other = m.line other := by
  cases xs <;>
    simp [setLine, line, Std.ExtTreeMap.getElem?_erase, Std.ExtTreeMap.getElem?_insert, h]

theorem line_setLine (m : Lanes α) (lane other : Lane) (xs : List α) :
    (m.setLine lane xs).line other = if lane = other then xs else m.line other := by
  by_cases h : lane = other
  · subst h; simp
  · simp [h, line_setLine_of_ne m xs h]

theorem line_append (m : Lanes α) (lane other : Lane) (xs : List α) :
    (m.append lane xs).line other = if lane = other then m.line lane ++ xs else m.line other :=
  line_setLine ..

theorem line_keep (m : Lanes α) (lane other : Lane) (p : α → Bool) :
    (m.keep lane p).line other = if lane = other then (m.line lane).filter p else m.line other :=
  line_setLine ..

theorem line_keep_sublist (m : Lanes α) (lane other : Lane) (p : α → Bool) :
    ((m.keep lane p).line other).Sublist (m.line other) := by
  rw [line_keep]
  split
  · next h => exact h ▸ List.filter_sublist
  · exact List.Sublist.refl _

/-! ### Lanes with the same lines are the same -/

theorem getElem?_lines (m : Lanes α) (lane : Lane) :
    m.lines[lane]? = if m.line lane = [] then none else some (m.line lane) := by
  cases h : m.lines[lane]? with
  | none => simp [line, h]
  | some xs => simp [line, h, m.nonempty h]

theorem ext_line {m n : Lanes α} (h : ∀ lane, m.line lane = n.line lane) : m = n := by
  have hlines : m.lines = n.lines :=
    Std.ExtTreeMap.ext_getElem? fun {lane} => by rw [getElem?_lines, getElem?_lines, h lane]
  cases m; cases n
  cases hlines
  rfl

@[simp] theorem setLine_line (m : Lanes α) (lane : Lane) : m.setLine lane (m.line lane) = m :=
  ext_line fun other => by
    rw [line_setLine]
    split
    · next h => rw [h]
    · rfl

@[simp] theorem setLine_setLine (m : Lanes α) (lane : Lane) (xs ys : List α) :
    (m.setLine lane xs).setLine lane ys = m.setLine lane ys :=
  ext_line fun other => by
    simp only [line_setLine]
    split <;> rfl

@[simp] theorem append_nil (m : Lanes α) (lane : Lane) : m.append lane [] = m := by
  simp [append]

theorem append_cons (m : Lanes α) (lane : Lane) (x : α) (xs : List α) :
    m.append lane (x :: xs) = (m.pushBack lane x).append lane xs := by
  simp [append, pushBack]

end Lanes

end TaskExchange
