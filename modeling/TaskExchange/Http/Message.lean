/-!
Messages: the requests and responses of the service, without the way they travel.  The names of
headers are compared without regard to case, and of several headers with one name the first counts.
-/

namespace TaskExchange.Http

/-- Holds of the characters that names and unquoted values consist of. -/
def isToken (c : Char) : Bool := c.isAlphanum || c ∈ "!#$%&'*+-.^_`|~".toList

/-- Holds of a text that is a name. -/
def isName (s : String) : Bool := !s.isEmpty && s.toList.all isToken

/-- Holds of the characters that a header's value consists of: all but controls, and the tab. -/
def isValueChar (c : Char) : Bool := c = '\t' || (' ' ≤ c && c.toNat ≠ 127)

/-- The headers of a message, in their order. -/
abbrev Headers := List (String × String)

namespace Headers

/-- The value of the first header of a name, which is given in lower case. -/
def first? (name : String) (headers : Headers) : Option String :=
  (headers.find? (·.1.toLower = name)).map (·.2)

/-- A header's value as a text, if it holds nothing but visible characters of the basic set, spaces
and tabs. -/
def text? (name : String) (headers : Headers) : Option String :=
  (headers.first? name).filter fun value =>
    value.toList.all fun c => c = '\t' || (' ' ≤ c && c ≤ '~')

end Headers

/-- A request. -/
structure Request where
  method : String
  /-- The path of what it is sent to, without what may stand around it there. -/
  path : String
  headers : Headers
  body : ByteArray

/-- A response. -/
structure Response where
  status : Nat
  headers : Headers
  body : ByteArray

namespace Response

/-- A response without a body. -/
def bare (status : Nat) (headers : Headers) : Response := ⟨status, headers, .empty⟩

/-- A response with a body of a type. -/
def typed (status : Nat) (type : String) (body : ByteArray) : Response :=
  ⟨status, [("content-type", type)], body⟩

/-- A response with a plain text. -/
def plain (status : Nat) (text : String) : Response :=
  typed status "text/plain; charset=utf-8" text.toUTF8

/-- Says how long the body is. -/
def withLength (r : Response) : Response :=
  { r with headers := r.headers ++ [("content-length", toString r.body.size)] }

/-- Leaves the body away. -/
def withoutBody (r : Response) : Response := { r with body := .empty }

/-- What a page from elsewhere is told on every response: it may read this one. -/
def shared (r : Response) : Response :=
  { r with headers := r.headers ++
      [("vary", "origin, access-control-request-method, access-control-request-headers"),
        ("access-control-allow-origin", "*")] }

/-- What a page from elsewhere is told when it asks: it may send anything. -/
def permission : Headers :=
  [("access-control-allow-methods", "*"), ("access-control-allow-headers", "*")]

end Response

end TaskExchange.Http
