import TaskExchange.Number.Double

/-!
JSON values: what a JSON text says, without its spelling.  The members of an object are a list of
named values.  An object that was read stands in normal form: one member for a name, and the names
in increasing order; an object that is about to be written has its members in the order of writing.
-/

namespace TaskExchange

/-- A number is whole and exact, or a double. -/
inductive Number where
  | whole (n : Int)
  | double (d : Double)
  deriving DecidableEq, Inhabited

/-- A JSON value. -/
inductive Json where
  | null
  | bool (b : Bool)
  | number (n : Number)
  | string (s : String)
  | array (items : List Json)
  | object (members : List (String × Json))
  deriving Inhabited

/-- The named values of an object. -/
abbrev Members := List (String × Json)

namespace Members

/-- The value of the first member of a name. -/
def get? (name : String) : Members → Option Json
  | [] => none
  | (key, value) :: rest => if key = name then some value else get? name rest

/-- Puts a member at its place in increasing order; a member of the same name gives way. -/
def insert (name : String) (value : Json) : Members → Members
  | [] => [(name, value)]
  | (key, old) :: rest =>
    match compare name key with
    | .lt => (name, value) :: (key, old) :: rest
    | .eq => (name, value) :: rest
    | .gt => (key, old) :: insert name value rest

/-- The members without those of a name. -/
def erase (name : String) (members : Members) : Members := members.filter (·.1 ≠ name)

/-- The members in normal form; of several with one name the last one counts. -/
def normalize (members : Members) : Members :=
  members.foldl (fun done m => insert m.1 m.2 done) []

/-- Holds of members that stand in increasing order of their names. -/
def Ordered (members : Members) : Prop :=
  members.Pairwise fun a b => compare a.1 b.1 = .lt

end Members

namespace Json

/-- A whole number. -/
def ofNat (n : Nat) : Json := .number (.whole n)

/-- A list of values, each made by a function. -/
def ofList {α : Type} (f : α → Json) (items : List α) : Json := .array (items.map f)

/-- A value, or null. -/
def ofOption {α : Type} (f : α → Json) : Option α → Json
  | some a => f a
  | none => .null

/-- The member of an object, if the value is an object and has one. -/
def get? (name : String) : Json → Option Json
  | object members => Members.get? name members
  | _ => none

end Json

end TaskExchange
