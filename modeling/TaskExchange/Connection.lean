import Std.Data.ExtTreeMap

/-!
Connections: a requester that waits for an answer holds one side of a connection, and the exchange
keeps a number by which it can answer.  A connection carries one value at most, and whoever waits
may leave at any time, after which an answer finds nobody.  A switchboard knows every waiting side
that has not left.
-/

namespace TaskExchange

/-- The number of a connection. -/
structure ConnectionId where
  value : Nat
  deriving DecidableEq, Inhabited

namespace ConnectionId

instance : Ord ConnectionId := ⟨compareOn value⟩

instance : Std.TransOrd ConnectionId := inferInstanceAs (Std.TransCmp (compareOn value))

instance : Std.LawfulEqOrd ConnectionId where
  eq_of_compare {a b} h := by
    cases a; cases b
    exact congrArg mk (Std.LawfulEqOrd.eq_of_compare h)

end ConnectionId

/-- What a waiting side holds. -/
inductive Waiting (α : Type) where
  /-- Nothing has come yet. -/
  | nothing
  /-- A value has come and is not read. -/
  | holding (value : α)
  /-- A value came and was read. -/
  | served
  deriving DecidableEq, Inhabited

/-- All waiting sides that have not left. -/
structure Switchboard (α : Type) where
  /-- The number that the next connection will have. -/
  next : Nat
  /-- The waiting sides; one that is missing has left, or never was. -/
  sides : Std.ExtTreeMap ConnectionId (Waiting α)

namespace Switchboard

variable {α : Type}

/-- Nobody has ever waited. -/
def empty : Switchboard α := ⟨0, ∅⟩

instance : Inhabited (Switchboard α) := ⟨empty⟩

/-- Opens a new connection. -/
def connect (b : Switchboard α) : ConnectionId × Switchboard α :=
  (⟨b.next⟩, ⟨b.next + 1, b.sides.insert ⟨b.next⟩ .nothing⟩)

/-- Holds when a value sent to a connection would be received. -/
def isOpen (b : Switchboard α) (c : ConnectionId) : Bool :=
  match b.sides[c]? with
  | some .nothing => true
  | _ => false

/-- Sends a value to a waiting side; `none` when nobody is there to receive it. -/
def send? (b : Switchboard α) (c : ConnectionId) (value : α) : Option (Switchboard α) :=
  if b.isOpen c then some { b with sides := b.sides.insert c (.holding value) } else none

/-- The value that a waiting side holds unread. -/
def held? (b : Switchboard α) (c : ConnectionId) : Option α :=
  match b.sides[c]? with
  | some (.holding value) => some value
  | _ => none

/-- Reads what has come to a waiting side. -/
def take (b : Switchboard α) (c : ConnectionId) : Option α × Switchboard α :=
  match b.held? c with
  | some value => (some value, { b with sides := b.sides.insert c .served })
  | none => (none, b)

/-- The waiting side leaves. -/
def leave (b : Switchboard α) (c : ConnectionId) : Switchboard α :=
  { b with sides := b.sides.erase c }

end Switchboard

end TaskExchange
