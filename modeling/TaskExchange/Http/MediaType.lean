import TaskExchange.Http.Message

/-!
Media types: what a message says its body is.  A media type is a type and a subtype, then
parameters, each introduced by a semicolon; a part of the subtype after its last plus sign is its
suffix.  Here it only has to be decided whether a text is a media type and, if it is one, whether it
says that the body is JSON.
-/

namespace TaskExchange.Http.MediaType

/-- Holds of the characters that quoted values consist of. -/
def isQuotable (c : Char) : Bool := 32 ≤ c.toNat && c.toNat ≠ 127

/-- Where one is in the parameters. -/
inductive Place where
  /-- Before a name, where spaces may stand. -/
  | beforeName
  | inName
  /-- At the first character of a value. -/
  | beforeValue
  | inValue
  /-- At the first character of a quoted value, which may not be its end. -/
  | openQuote
  | inQuotes
  /-- Behind a quoted value. -/
  | afterQuotes
  deriving DecidableEq

/-- What one more character leads to. -/
def advance? : Place → Char → Option Place
  | .beforeName, ' ' => some .beforeName
  | .beforeName, c => if isToken c then some .inName else none
  | .inName, '=' => some .beforeValue
  | .inName, c => if isToken c then some .inName else none
  | .beforeValue, '"' => some .openQuote
  | .beforeValue, c => if isToken c then some .inValue else none
  | .inValue, ';' => some .beforeName
  | .inValue, c => if isToken c then some .inValue else none
  | .openQuote, c => if isQuotable c then some .inQuotes else none
  | .inQuotes, '"' => some .afterQuotes
  | .inQuotes, c => if isQuotable c then some .inQuotes else none
  | .afterQuotes, ';' => some .beforeName
  | .afterQuotes, ' ' => some .afterQuotes
  | .afterQuotes, _ => none

/-- Holds of the places where the text may end. -/
def mayEnd : Place → Bool
  | .beforeName | .beforeValue | .inValue | .afterQuotes => true
  | _ => false

/-- Holds of well-formed parameters, without the first semicolon. -/
def parametersOk (cs : List Char) : Bool := (cs.foldlM advance? .beforeName).any mayEnd

/-- The characters before the last plus sign that is not the first character, and those after it. -/
def splitSuffix (cs : List Char) : List Char × Option (List Char) :=
  let suffix := (cs.drop 1).reverse.takeWhile (· ≠ '+')
  if suffix.length < (cs.drop 1).length then
    (cs.take (cs.length - suffix.length - 1), some suffix.reverse)
  else (cs, none)

/-- Holds of a text that is a media type and says that the body is JSON. -/
def isJson (text : String) : Bool :=
  let cs := text.toLower.toList
  let type := cs.takeWhile isToken
  match cs.drop type.length with
  | '/' :: rest =>
    let subtype := rest.takeWhile isToken
    let (name, suffix) := splitSuffix subtype
    let wellFormed := match rest.drop subtype.length with
      | [] => true
      | c :: parameters => c = ';' && !subtype.isEmpty && parametersOk parameters
    wellFormed && type = "application".toList &&
      (name = "json".toList || suffix = some "json".toList)
  | _ => false

/-- Holds of a message whose headers say that its body is JSON. -/
def saysJson (headers : Headers) : Bool := (headers.text? "content-type").any isJson

end TaskExchange.Http.MediaType
