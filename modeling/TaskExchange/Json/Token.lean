import TaskExchange.Json.Numeral

/-!
Tokens: the smallest pieces of a JSON text.  A token is read from the bytes at a place, together
with the place where the next one begins; blanks before it are passed over.  What cannot be a token
is a fault, and so is the end of the text: nothing more can be read there.
-/

namespace TaskExchange

/-- A piece of a JSON text. -/
inductive Token where
  | openArray | closeArray | openObject | closeObject | comma | colon
  | null
  | bool (b : Bool)
  | number (n : Number)
  | outOfRange
  | string (s : String)
  | garbled
  | fault

namespace Token

variable (bytes : ByteArray)

/-- Holds of the bytes that may stand between tokens. -/
def isGap (b : UInt8) : Bool := b == 0x20 || b == 0x0A || b == 0x09 || b == 0x0D

/-- The first place from here on that is no gap. -/
def skipGaps (i : Nat) : Nat :=
  if h : i < bytes.size then if isGap bytes[i] then skipGaps (i + 1) else i else i
termination_by bytes.size - i

/-- Holds of the bytes of decimal digits. -/
def isDigit (b : UInt8) : Bool := 0x30 ≤ b && b ≤ 0x39

/-- The digits from here on, behind those already read, and the place after them. -/
def digits (i : Nat) (done : List Nat) : List Nat × Nat :=
  if h : i < bytes.size then
    if isDigit bytes[i] then digits (i + 1) ((bytes[i].toNat - 48) :: done)
    else (done.reverse, i)
  else (done.reverse, i)
termination_by bytes.size - i

/-- At least one digit. -/
def someDigits (i : Nat) : Option (List Nat × Nat) :=
  let r := digits bytes i []
  if r.1.isEmpty then none else some r

/-- The digits after a point, if there is a point here. -/
def fraction (i : Nat) : Option (Option (List Nat) × Nat) :=
  if bytes[i]? = some 0x2E then (someDigits bytes (i + 1)).map fun r => (some r.1, r.2)
  else some (none, i)

/-- The power of ten, if one is written here. -/
def power (i : Nat) : Option (Option Int × Nat) :=
  if bytes[i]? = some 0x65 ∨ bytes[i]? = some 0x45 then
    let minus := bytes[i + 1]? = some 0x2D
    let start := if minus ∨ bytes[i + 1]? = some 0x2B then i + 2 else i + 1
    (someDigits bytes start).map fun r =>
      let n : Nat := r.1.foldl (fun n d => 10 * n + d) 0
      (some (if minus then -(n : Int) else n), r.2)
  else some (none, i)

/-- The numeral that begins here; a zero may only lead when it stands alone. -/
def numeral (i : Nat) : Option (Numeral × Nat) := do
  let negative := bytes[i]? = some 0x2D
  let (front, i) ← someDigits bytes (if negative then i + 1 else i)
  if front.head? = some 0 ∧ 1 < front.length then none
  else
    let (back, i) ← fraction bytes i
    let (power, i) ← power bytes i
    some (⟨negative, front, back, power⟩, i)

/-- The value of a hexadecimal digit. -/
def hexDigit? (b : UInt8) : Option Nat :=
  if isDigit b then some (b.toNat - 48)
  else if 0x41 ≤ b && b ≤ 0x46 then some (b.toNat - 55)
  else if 0x61 ≤ b && b ≤ 0x66 then some (b.toNat - 87)
  else none

/-- The four hexadecimal digits from here on. -/
def hexUnit? (i : Nat) : Option Nat := do
  let a ← hexDigit? (← bytes[i]?)
  let b ← hexDigit? (← bytes[i + 1]?)
  let c ← hexDigit? (← bytes[i + 2]?)
  let d ← hexDigit? (← bytes[i + 3]?)
  some (((a * 16 + b) * 16 + c) * 16 + d)

/-- Holds of the first of two units that make up one character. -/
def isHighUnit (n : Nat) : Bool := 0xD800 ≤ n && n ≤ 0xDBFF

/-- Holds of the second of two units that make up one character. -/
def isLowUnit (n : Nat) : Bool := 0xDC00 ≤ n && n ≤ 0xDFFF

/-- The character of a unit that is escaped here, with the number of bytes it takes: a high unit and
a low unit make one character, and either alone makes none. -/
def escapedUnit? (i : Nat) : Option (Option Char × Nat) :=
  (hexUnit? bytes i).map fun n =>
    if isHighUnit n then
      match bytes[i + 4]?, bytes[i + 5]?, hexUnit? bytes (i + 6) with
      | some 0x5C, some 0x75, some m =>
        if isLowUnit m then
          (some (Char.ofNat (0x10000 + (n - 0xD800) * 0x400 + (m - 0xDC00))), 10)
        else (none, 4)
      | _, _, _ => (none, 4)
    else if isLowUnit n then (none, 4)
    else (some (Char.ofNat n), 4)

/-- The character of an escape of one letter. -/
def escaped? (b : UInt8) : Option Char :=
  if b = 0x22 then some '"'
  else if b = 0x5C then some '\\'
  else if b = 0x2F then some '/'
  else if b = 0x62 then some (Char.ofNat 8)
  else if b = 0x66 then some (Char.ofNat 12)
  else if b = 0x6E then some '\n'
  else if b = 0x72 then some '\r'
  else if b = 0x74 then some '\t'
  else none

/-- Reads a string up to its closing quote, behind the content already read.  The content is none
once it is known to be no text. -/
def stringRest (i : Nat) (content : Option ByteArray) : Option (Option ByteArray × Nat) :=
  if h : i < bytes.size then
    let b := bytes[i]
    if b = 0x22 then some (content, i + 1)
    else if b = 0x5C then
      if h' : i + 1 < bytes.size then
        if bytes[i + 1] = 0x75 then
          match escapedUnit? bytes (i + 2) with
          | some (some c, n) =>
            stringRest (i + 2 + n) (content.map (· ++ (String.singleton c).toUTF8))
          | some (none, n) => stringRest (i + 2 + n) none
          | none => none
        else
          match escaped? bytes[i + 1] with
          | some c => stringRest (i + 2) (content.map (· ++ (String.singleton c).toUTF8))
          | none => none
      else none
    else if b < 0x20 then none
    else stringRest (i + 1) (content.map (·.push b))
  else none
termination_by bytes.size - i

/-- The string whose opening quote stands before this place. -/
def quoted (i : Nat) : Token × Nat :=
  match stringRest bytes i (some ByteArray.empty) with
  | some (some content, j) => ((String.fromUTF8? content).elim garbled .string, j)
  | some (none, j) => (garbled, j)
  | none => (fault, i)

/-- Reads a word whose first letter stands before this place. -/
def word (letters : List UInt8) (token : Token) (i : Nat) : Token × Nat :=
  if letters = (List.range letters.length).filterMap (fun k => bytes[i + k]?) then
    (token, i + letters.length)
  else (fault, i)

/-- The token that begins with a byte other than a gap. -/
def beginning (b : UInt8) (i : Nat) : Token × Nat :=
  if b = 0x5B then (openArray, i + 1)
  else if b = 0x5D then (closeArray, i + 1)
  else if b = 0x7B then (openObject, i + 1)
  else if b = 0x7D then (closeObject, i + 1)
  else if b = 0x2C then (comma, i + 1)
  else if b = 0x3A then (colon, i + 1)
  else if b = 0x22 then quoted bytes (i + 1)
  else if b = 0x6E then word bytes [0x75, 0x6C, 0x6C] null (i + 1)
  else if b = 0x74 then word bytes [0x72, 0x75, 0x65] (bool true) (i + 1)
  else if b = 0x66 then word bytes [0x61, 0x6C, 0x73, 0x65] (bool false) (i + 1)
  else if b = 0x2D || isDigit b then
    match numeral bytes i with
    | some (n, j) => (n.value?.elim outOfRange number, j)
    | none => (fault, i)
  else (fault, i)

/-- The next token, and the place after it. -/
def next (i : Nat) : Token × Nat :=
  let i := skipGaps bytes i
  match bytes[i]? with
  | some b => beginning bytes b i
  | none => (fault, i)

/-- Holds when nothing but gaps is left. -/
def onlyGaps (i : Nat) : Bool := skipGaps bytes i == bytes.size

end Token

end TaskExchange
