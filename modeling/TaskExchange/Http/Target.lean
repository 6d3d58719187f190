import TaskExchange.Http.Message

/-!
Targets: what a request is sent to.  Mostly this is a path with whatever follows it; it may be a
whole address too, whose path counts, or the star, which is the service itself, or the bare name of
a host, which has no path.  A text that is none of these is no target, and without one there is no
request; what is told then is the first thing that is wrong with it.
-/

namespace TaskExchange.Http

namespace Target

/-- Why a text is no target. -/
inductive Fault where
  | tooLong
  | empty
  | schemeTooLong
  /-- A character stands where it may not stand. -/
  | character
  /-- The characters of an authority do not make one up. -/
  | authority
  /-- The text is neither an address nor the name of a host. -/
  | form
  deriving DecidableEq

/-- What is told of a fault. -/
def Fault.message : Fault → String
  | tooLong => "uri too long"
  | empty => "empty string"
  | schemeTooLong => "scheme too long"
  | character => "invalid uri character"
  | authority => "invalid authority"
  | form => "invalid format"

/-- How many bytes a target may have. -/
def limit : Nat := 65534

/-- How many characters the scheme of an address may have. -/
def schemeLimit : Nat := 64

/-- How many colons may stand in one part of an authority. -/
def colonLimit : Nat := 8

/-- Holds of the characters of schemes. -/
def isSchemeChar (c : Char) : Bool := c.isAlphanum || c ∈ "+-.~".toList

/-- Holds of the characters that may stand anywhere in an authority. -/
def isAuthorityChar (c : Char) : Bool := c.isAlphanum || c ∈ "!$&'()*+,-.;=_~".toList

/-- Holds of the characters at which an authority ends. -/
def endsAuthority (c : Char) : Bool := c = '/' || c = '?' || c = '#'

/-- Holds of the characters that may stand both in paths and in queries: all but blanks, controls
and three marks. -/
def isVisibleChar (c : Char) : Bool := ' ' < c && c.toNat ≠ 127 && !(c ∈ "#<>".toList)

/-- Holds of the characters of paths. -/
def isPathChar (c : Char) : Bool := isVisibleChar c && !(c ∈ "?`".toList)

/-- Holds of the characters of queries. -/
def isQueryChar (c : Char) : Bool := isVisibleChar c && c ≠ '"'

/-! ### Authorities -/

/-- What is known of an authority after some of its characters. -/
structure Authority where
  /-- How many colons there are behind the last user or bracketed address. -/
  colons : Nat
  opened : Bool
  closed : Bool
  /-- Whether there is a percent sign behind the last user or bracketed address. -/
  percent : Bool

/-- What one more character makes of an authority. -/
def Authority.advance (a : Authority) (c : Char) : Except Fault Authority :=
  if c = ':' then
    if a.colons < colonLimit then .ok { a with colons := a.colons + 1 } else .error .authority
  else if c = '[' then
    if a.percent || a.opened then .error .authority else .ok { a with opened := true }
  else if c = ']' then
    if a.opened && !a.closed then .ok { a with closed := true, colons := 0, percent := false }
    else .error .authority
  else if c = '@' then .ok { a with colons := 0, percent := false }
  else if c = '%' then .ok { a with percent := true }
  else if isAuthorityChar c then .ok a
  else .error .character

/-- Holds of an authority that is complete; at most one colon, which ends the host, is left. -/
def Authority.complete (a : Authority) : Bool :=
  a.opened == a.closed && a.colons ≤ 1 && !a.percent

/-- Tests the characters of an authority. -/
def testAuthority (cs : List Char) : Except Fault Unit := do
  let a ← cs.foldlM Authority.advance ⟨0, false, false, false⟩
  if a.complete && cs.getLast? ≠ some '@' then .ok () else .error .authority

/-- The authority at the front of a text, which may be empty, and what stands behind it. -/
def splitAuthority (cs : List Char) : Except Fault (List Char × List Char) := do
  let authority := cs.takeWhile fun c => !endsAuthority c
  testAuthority authority
  return (authority, cs.drop authority.length)

/-! ### Paths -/

/-- The path at the front of what stands behind the authority, if all of it is well formed; what
stands behind a number sign does not matter. -/
def pathOf (cs : List Char) : Except Fault String :=
  let cs := cs.takeWhile (· ≠ '#')
  let path := cs.takeWhile (· ≠ '?')
  let query := (cs.drop path.length).drop 1
  if path.all isPathChar && query.all isQueryChar then
    .ok (if path.isEmpty then "/" else String.ofList path)
  else .error .character

/-- The path in an address, whose scheme is before this place. -/
def addressPath (cs : List Char) : Except Fault String := do
  let (authority, rest) ← splitAuthority cs
  if authority.isEmpty then .error .form else pathOf rest

/-- The path of a host that is named alone: there is none. -/
def hostPath (cs : List Char) : Except Fault String := do
  match ← splitAuthority cs with
  | (_, []) => return ""
  -- A text of one character that ends an authority holds nothing else that could be wrong.
  | _ => if cs.length = 1 then .error .character else .error .form

/-- The path that a target names. -/
def path (text : String) : Except Fault String :=
  if limit < text.utf8ByteSize then .error .tooLong
  else match text.toList with
    | [] => .error .empty
    | ['*'] => .ok "*"
    | '/' :: rest => pathOf ('/' :: rest)
    | cs =>
      let scheme := cs.takeWhile isSchemeChar
      match cs.drop scheme.length with
      | ':' :: '/' :: '/' :: rest =>
        if schemeLimit < scheme.length then .error .schemeTooLong else addressPath rest
      | _ => hostPath cs

end Target

/-! ### Requests -/

/-- Why some parts make up no request. -/
inductive Malformed where
  /-- The method is no name. -/
  | method
  | target (fault : Target.Fault)
  /-- A header has no name. -/
  | headerName
  /-- There are controls in a header's value. -/
  | headerValue
  deriving DecidableEq

/-- What is told of parts that make up no request. -/
def Malformed.message : Malformed → String
  | method => "invalid HTTP method"
  | target fault => fault.message
  | headerName => "invalid HTTP header name"
  | headerValue => "failed to parse header value"

/-- Tests headers, one after the other. -/
def Headers.test : Headers → Except Malformed Unit
  | [] => .ok ()
  | (name, value) :: rest =>
    if !isName name then .error .headerName
    else if !value.toList.all isValueChar then .error .headerValue
    else test rest

/-- The request that its parts make up, if they are what they should be. -/
def Request.ofParts (method target : String) (headers : Headers) (body : ByteArray) :
    Except Malformed Request := do
  if !isName method then throw .method
  let path ← (Target.path target).mapError .target
  headers.test
  return ⟨method, path, headers, body⟩

end TaskExchange.Http
