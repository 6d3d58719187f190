import TaskExchange.Json.Value

/-!
JSON documents: what was found in a text that should hold a JSON value, up to the place where it
stops being one.  A document keeps what a value forgets, members of the same name and their order,
and it marks where the text broke off: everything before that place is there to be looked at.
Strings and names that are no texts are kept as well, for they do no harm where nobody reads them.
So a reader can go through a document from front to back and answer with the first thing that is
wrong, whether the text is malformed there or says something that is not wanted.
-/

namespace TaskExchange

/-- Why a document does not stand for a value of the wanted kind. -/
inductive Problem where
  /-- The text is not a JSON text. -/
  | malformed
  /-- The text is one, and says something else. -/
  | mismatch
  deriving DecidableEq

/-- The name of a member. -/
inductive Name where
  | text (s : String)
  /-- A string whose content is no text. -/
  | garbled
  deriving DecidableEq

/-- What was found in a text. -/
inductive Document where
  | null
  | bool (b : Bool)
  | number (n : Number)
  /-- A number too great to be a double. -/
  | outOfRange
  | string (s : String)
  /-- A string whose content is no text. -/
  | garbled
  /-- The items of an array, and whether the array came to its end. -/
  | array (items : List Document) (whole : Bool)
  /-- The members of an object, and whether the object came to its end. -/
  | object (members : List (Name × Document)) (whole : Bool)
  /-- No value begins here. -/
  | broken
  deriving Inhabited

namespace Document

/-- How deep arrays and objects may stand inside one another. -/
def depthLimit : Nat := 127

/-- What is wrong with a document that is not of the wanted kind: a text that is not even well
formed is found to be so first. -/
def unwanted : Document → Problem
  | outOfRange | garbled | broken => .malformed
  | _ => .mismatch

/-- Answers with a result once a container has come to its end. -/
def ended {α : Type} (whole : Bool) (result : α) : Except Problem α :=
  if whole then .ok result else .error .malformed

mutual

/-- The value that a document stands for, when so many more levels of arrays and objects may be
opened. -/
def toJson : Nat → Document → Except Problem Json
  | _, null => .ok .null
  | _, bool b => .ok (.bool b)
  | _, number n => .ok (.number n)
  | _, string s => .ok (.string s)
  | 0, array _ _ => .error .malformed
  | levels + 1, array items whole => do
    let items ← toJsonItems levels items
    ended whole (.array items)
  | 0, object _ _ => .error .malformed
  | levels + 1, object members whole => do
    let members ← toJsonMembers levels members
    ended whole (.object (Members.normalize members))
  | _, outOfRange => .error .malformed
  | _, garbled => .error .malformed
  | _, broken => .error .malformed

/-- The values of an array's items. -/
def toJsonItems : Nat → List Document → Except Problem (List Json)
  | _, [] => .ok []
  | levels, d :: rest => do
    let value ← toJson levels d
    let values ← toJsonItems levels rest
    .ok (value :: values)

/-- The values of an object's members. -/
def toJsonMembers : Nat → List (Name × Document) → Except Problem (List (String × Json))
  | _, [] => .ok []
  | levels, (.text name, d) :: rest => do
    let value ← toJson levels d
    let values ← toJsonMembers levels rest
    .ok ((name, value) :: values)
  | _, (.garbled, _) :: _ => .error .malformed

end

mutual

/-- The document of a value's text. -/
def ofJson : Json → Document
  | .null => null
  | .bool b => bool b
  | .number n => number n
  | .string s => string s
  | .array items => array (ofItems items) true
  | .object members => object (ofMembers members) true

/-- The documents of an array's items. -/
def ofItems : List Json → List Document
  | [] => []
  | v :: rest => ofJson v :: ofItems rest

/-- The documents of an object's members. -/
def ofMembers : List (String × Json) → List (Name × Document)
  | [] => []
  | (name, v) :: rest => (.text name, ofJson v) :: ofMembers rest

end

end Document

end TaskExchange
