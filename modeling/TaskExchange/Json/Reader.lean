import TaskExchange.Json.Document
import TaskExchange.Json.Token

/-!
Reading documents: a machine that takes one token at a time and keeps the arrays and objects that
are still open on a stack.  It stops when a value is complete with nothing open around it, or at the
first token that does not fit; then every container that was open is closed as one that did not come
to its end.
-/

namespace TaskExchange

namespace Reader

/-- A container that is still open, its parts in reverse order. -/
inductive Frame where
  | array (items : List Document)
  /-- An object whose member of the given name awaits its value. -/
  | object (members : List (Name × Document)) (name : Name)

/-- What the machine expects. -/
inductive Stage where
  /-- A value. -/
  | value
  /-- A value, or the end of an array that has no items. -/
  | item
  /-- A name, or the end of an object that has no members. -/
  | firstName
  /-- A name. -/
  | name (members : List (Name × Document))
  /-- The colon behind a name. -/
  | colon (members : List (Name × Document)) (name : Name)
  /-- A comma or the end of what a complete value stands in. -/
  | after (d : Document)

/-- What a token leads to. -/
inductive Progress where
  | more (stage : Stage) (stack : List Frame)
  | stopped (d : Document)
  | complete (d : Document)

/-- The document in the midst of open containers, which did not come to their ends. -/
def unwind : List Frame → Document → Document
  | [], d => d
  | .array items :: stack, d => unwind stack (.array (d :: items).reverse false)
  | .object members name :: stack, d =>
    unwind stack (.object ((name, d) :: members).reverse false)

/-- Goes on behind a complete value. -/
def completed (d : Document) : List Frame → Progress
  | [] => .complete d
  | stack => .more (.after d) stack

/-- Begins a value with a token. -/
def begin (stack : List Frame) : Token → Progress
  | .null => completed .null stack
  | .bool b => completed (.bool b) stack
  | .number n => completed (.number n) stack
  | .outOfRange => completed .outOfRange stack
  | .string s => completed (.string s) stack
  | .garbled => completed .garbled stack
  | .openArray => .more .item (.array [] :: stack)
  | .openObject => .more .firstName stack
  | _ => .stopped (unwind stack .broken)

/-- Goes on behind a complete value that stands in a container. -/
def following (d : Document) : List Frame → Token → Progress
  | .array items :: stack, .comma => .more .value (.array (d :: items) :: stack)
  | .array items :: stack, .closeArray => completed (.array (d :: items).reverse true) stack
  | .array items :: stack, _ => .stopped (unwind stack (.array (d :: items).reverse false))
  | .object members name :: stack, .comma => .more (.name ((name, d) :: members)) stack
  | .object members name :: stack, .closeObject =>
    completed (.object ((name, d) :: members).reverse true) stack
  | .object members name :: stack, _ =>
    .stopped (unwind stack (.object ((name, d) :: members).reverse false))
  | [], _ => .complete d

/-- Begins a member of an object with a token. -/
def beginMember (members : List (Name × Document)) (stack : List Frame) : Token → Progress
  | .string s => .more (.colon members (.text s)) stack
  | .garbled => .more (.colon members .garbled) stack
  | _ => .stopped (unwind stack (.object members.reverse false))

/-- One step of the machine. -/
def step (stack : List Frame) : Stage → Token → Progress
  | .value, token => begin stack token
  | .item, .closeArray =>
    match stack with
    | .array items :: stack => completed (.array items.reverse true) stack
    | stack => .stopped (unwind stack .broken)
  | .item, token => begin stack token
  | .firstName, .closeObject => completed (.object [] true) stack
  | .firstName, token => beginMember [] stack token
  | .name members, token => beginMember members stack token
  | .colon members name, .colon => .more .value (.object members name :: stack)
  | .colon members name, _ => .stopped (unwind (.object members name :: stack) .broken)
  | .after d, token => following d stack token

/-- Runs the machine from a place on; gives the document, and the place after it if it is
complete.  A step takes a byte at least, so the number of bytes bounds the number of steps. -/
def run (bytes : ByteArray) : Nat → Nat → Stage → List Frame → Document × Option Nat
  | 0, _, _, stack => (unwind stack .broken, none)
  | steps + 1, i, stage, stack =>
    match Token.next bytes i with
    | (token, j) =>
      match step stack stage token with
      | .more stage stack => run bytes steps j stage stack
      | .stopped d => (d, none)
      | .complete d => (d, some j)

end Reader

namespace Document

/-- The document at the front of a text, and the place after it if it is complete. -/
def ofFront (bytes : ByteArray) : Document × Option Nat :=
  Reader.run bytes (bytes.size + 1) 0 .value []

/-- What a decoder makes of the document at the front of a text; what follows does not matter. -/
def decodeFront {α : Type} (decode : Document → Except Problem α) (bytes : ByteArray) :
    Except Problem α :=
  decode (ofFront bytes).1

/-- What a decoder makes of a text that is one document, with nothing but gaps behind it. -/
def decodeWhole {α : Type} (decode : Document → Except Problem α) (bytes : ByteArray) :
    Except Problem α := do
  let (d, rest) := ofFront bytes
  let result ← decode d
  match rest with
  | some i => ended (Token.onlyGaps bytes i) result
  | none => .error .malformed

end Document

end TaskExchange
