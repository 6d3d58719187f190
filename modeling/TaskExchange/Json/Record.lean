import TaskExchange.Json.Document

/-!
Records: how values with named parts are read out of documents.  A record may be given as an object,
whose members stand in any order and none of them twice, or as an array of exactly its parts in
their order.  Everything is looked at from front to back, and the first thing that is wrong decides;
that a part is missing shows at the end only.
-/

namespace TaskExchange

/-- How a record is read: what each of its members must pass, and how they make up the record. -/
structure Record (α : Type) where
  /-- The names of the members, in their order, each with the test of its value. -/
  fields : List (String × (Document → Except Problem Unit))
  /-- The record that the values of the members make up. -/
  assemble : (String → Option Document) → Except Problem α

namespace Record

variable {α β : Type}

/-- A member that must be there. -/
def required (name : String) (decode : Document → Except Problem α) : Record α where
  fields := [(name, fun d => (decode d).map fun _ => ())]
  assemble value := match value name with
    | some d => decode d
    | none => .error .mismatch

/-- What an optional value decodes to; null stands for none. -/
def orNull (decode : Document → Except Problem α) : Document → Except Problem (Option α)
  | .null => .ok none
  | d => (decode d).map some

/-- A member that may be missing or null. -/
def optional (name : String) (decode : Document → Except Problem α) : Record (Option α) where
  fields := [(name, fun d => (orNull decode d).map fun _ => ())]
  assemble value := match value name with
    | some d => orNull decode d
    | none => .ok none

/-- A record made of another one. -/
def map (f : α → β) (r : Record α) : Record β where
  fields := r.fields
  assemble value := (r.assemble value).map f

/-- A function's record followed by that of its argument. -/
def seq (f : Record (α → β)) (r : Unit → Record α) : Record β where
  fields := f.fields ++ (r ()).fields
  assemble value := do
    let g ← f.assemble value
    let a ← (r ()).assemble value
    return g a

instance : Functor Record where
  map := map

instance : Seq Record where
  seq := seq

/-- The value of the first member of a name. -/
def lookup (members : List (Name × Document)) (name : String) : Option Document :=
  (members.find? (·.1 = .text name)).map (·.2)

/-- Goes through the members of an object: a member that the record names must pass its test and
must not have been there before, and every other one goes through a reader of its own.  A name must
be a text. -/
def scan (fields : List (String × (Document → Except Problem Unit)))
    (other : Document → Except Problem β) :
    List String → List (Name × Document) → Except Problem (List (String × β))
  | _, [] => .ok []
  | seen, (.text name, d) :: rest =>
    match fields.find? (·.1 = name) with
    | some (_, test) =>
      if name ∈ seen then .error .mismatch
      else do
        test d
        scan fields other (name :: seen) rest
    | none => do
      let b ← other d
      let more ← scan fields other seen rest
      return (name, b) :: more
  | _, (.garbled, _) :: _ => .error .malformed

/-- The record that an object's members make up, and what was read of the members that it does not
name. -/
def ofMembers (r : Record α) (other : Document → Except Problem β)
    (members : List (Name × Document)) (whole : Bool) :
    Except Problem (α × List (String × β)) := do
  let rest ← scan r.fields other [] members
  -- Only an object that has come to its end can lack a member.
  if whole then
    let a ← r.assemble (lookup members)
    return (a, rest)
  else throw .malformed

/-- Tests the items of an array as the values of members. -/
def scanItems : List (String × (Document → Except Problem Unit)) → List Document →
    Except Problem Unit
  | (_, test) :: fields, d :: rest => do
    test d
    scanItems fields rest
  | _, _ => .ok ()

/-- The record that an array's items make up. -/
def ofItems (r : Record α) (items : List Document) (whole : Bool) : Except Problem α := do
  scanItems r.fields items
  if !whole || r.fields.length < items.length then throw .malformed
  else if items.length < r.fields.length then throw .mismatch
  else r.assemble (lookup ((r.fields.map fun f => .text f.1).zip items))

/-- Reads a record from an object or an array; members that the record does not name may be
anything. -/
def decode (r : Record α) : Document → Except Problem α
  | .object members whole =>
    (r.ofMembers (fun _ => .ok ()) members whole).map (·.1)
  | .array items whole => r.ofItems items whole
  | d => .error d.unwanted

/-- Reads a record from an object, and with it the values of the members that it does not name; so
many levels of arrays and objects may be opened. -/
def decodeOpen (r : Record α) (levels : Nat) : Document → Except Problem (α × Members)
  | .object members whole => r.ofMembers (Document.toJson (levels - 1)) members whole
  | d => .error d.unwanted

end Record

namespace Document

/-- Reads a text. -/
def readString : Document → Except Problem String
  | string s => .ok s
  | d => .error d.unwanted

/-- Reads a whole number below a bound. -/
def readNat (bound : Nat) : Document → Except Problem Nat
  | number (.whole n) => if 0 ≤ n ∧ n < bound then .ok n.toNat else .error .mismatch
  | d => .error d.unwanted

/-- Reads an object of any members; so many levels of arrays and objects may be opened. -/
def readMembers : Nat → Document → Except Problem Members
  | 0, object _ _ => .error .malformed
  | levels + 1, object members whole => do
    let values ← toJsonMembers levels members
    ended whole (Members.normalize values)
  | _, d => .error d.unwanted

/-- Reads the items of an array, one after the other. -/
def readList {α : Type} (decode : Document → Except Problem α) :
    Document → Except Problem (List α)
  | array items whole => do
    let values ← items.mapM decode
    ended whole values
  | d => .error d.unwanted

/-- Reads one of some names: the name itself, or an object of one member of that name whose value is
null. -/
def readName {α : Type} (names : List (String × α)) : Document → Except Problem α
  | string s => chosen s
  | object ((.text s, d) :: rest) whole => do
    let a ← chosen s
    match d with
    | null => ended (whole && rest.isEmpty) a
    | d => .error d.unwanted
  | _ => .error .malformed
where
  /-- What a name stands for. -/
  chosen (s : String) : Except Problem α :=
    match names.find? (·.1 = s) with
    | some (_, a) => .ok a
    | none => .error .mismatch

end Document

end TaskExchange
