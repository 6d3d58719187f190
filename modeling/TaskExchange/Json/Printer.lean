import TaskExchange.Json.Value
import TaskExchange.Number.Shortest

/-!
JSON texts: how values are written.  Nothing is written that need not be: no blanks, and no escapes
but those of quotes, backslashes and control characters.  A whole number is its digits; a double is
its shortest decimal, which always shows a point or an exponent, so that the two cannot be taken for
one another.
-/

namespace TaskExchange

/-- Where decimals are written with a point in its place, and where with a power of ten. -/
structure DecimalStyle where
  /-- The least power of the first digit that is written without an exponent. -/
  leastPlain : Int
  /-- The greatest power of the first digit that is written without an exponent. -/
  greatestPlain : Int
  deriving DecidableEq

namespace Json

/-- Decimals from a hundred-thousandth up to sixteen places before the point are written in full. -/
def decimalStyle : DecimalStyle := ⟨-5, 15⟩

/-- Digits with a point after the digit of the given power, zeros being filled in. -/
def plainText (digits : List Char) (power : Int) : List Char :=
  if power < 0 then
    ['0', '.'] ++ List.replicate (power.natAbs - 1) '0' ++ digits
  else
    let places := power.toNat + 1
    let front := digits.take places ++ List.replicate (places - digits.length) '0'
    let back := digits.drop places
    front ++ '.' :: (if back.isEmpty then ['0'] else back)

/-- Digits with a point after the first one, if there are more, and the power of ten. -/
def poweredText (digits : List Char) (power : Int) : List Char :=
  let fraction := if digits.tail.isEmpty then [] else '.' :: digits.tail
  let sign := if power < 0 then '-' else '+'
  digits.take 1 ++ fraction ++ 'e' :: sign :: Nat.toDigits 10 power.natAbs

/-- The text of a double. -/
def doubleText (d : Double) : List Char :=
  let sign := if d.negative then ['-'] else []
  sign ++ match d.shortest? with
    | none => ['0', '.', '0']
    | some r =>
      if decimalStyle.leastPlain ≤ r.power ∧ r.power ≤ decimalStyle.greatestPlain then
        plainText r.digits r.power
      else poweredText r.digits r.power

/-- The text of a number. -/
def numberText : Number → List Char
  | .whole n => (toString n).toList
  | .double d => doubleText d

/-- Two hexadecimal digits. -/
def hexPair (n : Nat) : List Char := [Nat.digitChar (n / 16), Nat.digitChar (n % 16)]

/-- A character as it stands inside a string. -/
def escapeChar (c : Char) : List Char :=
  if c = '"' then ['\\', '"']
  else if c = '\\' then ['\\', '\\']
  else if c.toNat = 8 then ['\\', 'b']
  else if c.toNat = 12 then ['\\', 'f']
  else if c = '\n' then ['\\', 'n']
  else if c = '\r' then ['\\', 'r']
  else if c = '\t' then ['\\', 't']
  else if c.toNat < 32 then ['\\', 'u', '0', '0'] ++ hexPair c.toNat
  else [c]

/-- The text of a string. -/
def stringText (s : String) : List Char := '"' :: s.toList.flatMap escapeChar ++ ['"']

mutual

/-- The characters of a value's text. -/
def chars : Json → List Char
  | null => ['n', 'u', 'l', 'l']
  | bool true => ['t', 'r', 'u', 'e']
  | bool false => ['f', 'a', 'l', 's', 'e']
  | number n => numberText n
  | string s => stringText s
  | array items => '[' :: itemChars items
  | object members => '{' :: memberChars members

/-- The characters of an array's items and its end. -/
def itemChars : List Json → List Char
  | [] => [']']
  | [v] => chars v ++ [']']
  | v :: w :: rest => chars v ++ ',' :: itemChars (w :: rest)

/-- The characters of an object's members and its end. -/
def memberChars : List (String × Json) → List Char
  | [] => ['}']
  | [(k, v)] => stringText k ++ ':' :: chars v ++ ['}']
  | (k, v) :: m :: rest => stringText k ++ ':' :: chars v ++ ',' :: memberChars (m :: rest)

end

/-- The text of a value. -/
def text (v : Json) : String := String.ofList v.chars

/-! ### Texts of lists and objects -/

/-- A whole number is its decimal digits. -/
theorem text_ofNat (n : Nat) : (ofNat n).text = toString n := by
  rw [text, ofNat, chars, numberText, String.ofList_toList]
  rfl

theorem ofList_itemChars : ∀ items : List Json,
    String.ofList (itemChars items) = ",".intercalate (items.map text) ++ "]"
  | [] => rfl
  | [_] => String.ofList_append
  | v :: w :: rest => by
    have hsplit : itemChars (v :: w :: rest) = chars v ++ ([','] ++ itemChars (w :: rest)) := rfl
    rw [hsplit, String.ofList_append, String.ofList_append, ofList_itemChars (w :: rest)]
    simp only [List.map_cons, String.intercalate_cons_cons, String.append_assoc]
    rfl

/-- A list is its items between brackets, with commas between them. -/
theorem text_array (items : List Json) :
    (array items).text = "[" ++ ",".intercalate (items.map text) ++ "]" := by
  rw [text, chars, ← List.singleton_append, String.ofList_append, ofList_itemChars,
    String.append_assoc]

/-- The text of a member of an object: its name, a colon and its value. -/
def memberText (m : String × Json) : String := (string m.1).text ++ ":" ++ m.2.text

theorem ofList_member_append (m : String × Json) (cs : List Char) :
    String.ofList (stringText m.1 ++ ':' :: chars m.2 ++ cs) =
      memberText m ++ String.ofList cs := by
  have hsplit : stringText m.1 ++ ':' :: chars m.2 ++ cs =
      stringText m.1 ++ [':'] ++ chars m.2 ++ cs := by simp
  rw [hsplit, String.ofList_append, String.ofList_append, String.ofList_append]
  rfl

theorem ofList_memberChars : ∀ members : List (String × Json),
    String.ofList (memberChars members) = ",".intercalate (members.map memberText) ++ "\x7d"
  | [] => rfl
  | [m] => ofList_member_append m ['\x7d']
  | m :: n :: rest => by
    have hsplit : memberChars (m :: n :: rest) =
        stringText m.1 ++ ':' :: chars m.2 ++ ([','] ++ memberChars (n :: rest)) := by
      simp [memberChars]
    rw [hsplit, ofList_member_append, String.ofList_append, ofList_memberChars (n :: rest)]
    simp only [List.map_cons, String.intercalate_cons_cons, String.append_assoc]

/-- An object is its members between braces, with commas between them. -/
theorem text_object (members : List (String × Json)) :
    (object members).text = "\x7b" ++ ",".intercalate (members.map memberText) ++ "\x7d" := by
  rw [text, chars, ← List.singleton_append, String.ofList_append, ofList_memberChars,
    String.append_assoc]

end Json

end TaskExchange
