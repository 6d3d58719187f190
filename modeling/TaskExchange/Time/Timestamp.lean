import Std.Data.ExtTreeMap
import TaskExchange.Text.Scan
import TaskExchange.Time.Calendar

/-!
Time stamps: points of civil time, to the nanosecond, read and written as RFC 3339 texts.  Reading
is lenient: blanks may stand between the parts, a space may replace the `T`, and the offset may be
any number of hours and minutes.  Writing always gives universal time, marked `Z`, with the fewest
of zero, three, six or nine fraction digits that say it exactly.
-/

namespace TaskExchange

/-- A point of civil time.  A leap second repeats its second with `nanos` of a thousand million and
more. -/
structure Timestamp where
  /-- Whole seconds since the beginning of 1970, universal time. -/
  seconds : Int
  /-- Nanoseconds since the beginning of that second. -/
  nanos : Nat
  deriving DecidableEq, Inhabited

namespace Timestamp

instance : Ord Timestamp := ⟨compareLex (compareOn seconds) (compareOn nanos)⟩

theorem compare_eq (a b : Timestamp) :
    compare a b = (compare a.seconds b.seconds).then (compare a.nanos b.nanos) := rfl

instance : Std.TransOrd Timestamp :=
  inferInstanceAs (Std.TransCmp (compareLex (compareOn seconds) (compareOn nanos)))

instance : Std.LawfulEqOrd Timestamp where
  eq_of_compare {a b} h := by
    rw [compare_eq, Ordering.then_eq_eq] at h
    cases a; cases b
    simp only [Std.LawfulEqOrd.compare_eq_iff_eq] at h
    simp [h.1, h.2]

/-- Holds when the first time stamp is earlier than the second. -/
def before (a b : Timestamp) : Bool := (compare a b).isLT

/-- The seconds of a day. -/
def daySeconds : Int := 86400

/-- The first second that a time stamp can name. -/
def firstSecond : Int := Date.first.toDays * daySeconds

/-- The last second that a time stamp can name. -/
def lastSecond : Int := Date.final.toDays * daySeconds + (daySeconds - 1)

/-- The time stamp some seconds earlier, if it can be named. -/
def minusSeconds? (t : Timestamp) (n : Nat) : Option Timestamp :=
  if firstSecond ≤ t.seconds - n then some ⟨t.seconds - n, t.nanos⟩ else none

/-! ### Writing -/

/-- A number with zeros in front to make up a width. -/
def padded (width n : Nat) : List Char :=
  let digits := Nat.toDigits 10 n
  List.replicate (width - digits.length) '0' ++ digits

/-- A year: four digits, and a sign when four unsigned digits would not do. -/
def yearText (year : Int) : List Char :=
  if 0 ≤ year ∧ year ≤ 9999 then padded 4 year.toNat
  else (if year < 0 then '-' else '+') :: padded 4 year.natAbs

/-- The fraction of a second, in the fewest of zero, three, six or nine digits. -/
def fractionText (nanos : Nat) : List Char :=
  if nanos = 0 then []
  else if nanos % 1000000 = 0 then '.' :: padded 3 (nanos / 1000000)
  else if nanos % 1000 = 0 then '.' :: padded 6 (nanos / 1000)
  else '.' :: padded 9 nanos

/-- The time stamp in universal time. -/
def text (t : Timestamp) : String :=
  let date := Date.ofDays (t.seconds.fdiv daySeconds)
  let inDay := (t.seconds.fmod daySeconds).toNat
  let leap := 1000000000 ≤ t.nanos
  let second := inDay % 60 + if leap then 1 else 0
  let nanos := if leap then t.nanos - 1000000000 else t.nanos
  let day := yearText date.year ++ ['-'] ++ padded 2 date.month ++ ['-'] ++ padded 2 date.day
  let time := padded 2 (inDay / 3600) ++ [':'] ++ padded 2 (inDay / 60 % 60) ++ [':'] ++
    padded 2 second ++ fractionText nanos
  String.ofList (day ++ ['T'] ++ time ++ ['Z'])

/-! ### Reading

Every reader takes what it needs from the front of a text and gives the rest back. -/

/-- The characters left to read. -/
abbrev Rest := List Char

/-- The value of a decimal digit. -/
def digitValue (c : Char) : Nat := c.toNat - 48

/-- The value of a list of decimal digits. -/
def digitsValue (cs : List Char) : Nat := cs.foldl (fun n c => 10 * n + digitValue c) 0

/-- At least one digit and at most as many as allowed, with how many there were. -/
def readDigits (limit : Nat) (cs : Rest) : Option (List Char × Rest) :=
  let digits := (cs.take limit).takeWhile Char.isDigit
  if digits.isEmpty then none else some (digits, cs.drop digits.length)

/-- A number of at most so many digits, with blanks before it. -/
def readNumber (limit : Nat) (cs : Rest) : Option (Nat × Rest) :=
  (readDigits limit (Text.dropBlanks cs)).map fun r => (digitsValue r.1, r.2)

/-- A year: four digits at most, or a sign and any number of digits. -/
def readYear (cs : Rest) : Option (Int × Rest) :=
  match Text.dropBlanks cs with
  | '-' :: rest => (readDigits rest.length rest).map fun r => (-(digitsValue r.1 : Int), r.2)
  | '+' :: rest => (readDigits rest.length rest).map fun r => ((digitsValue r.1 : Int), r.2)
  | rest => (readDigits 4 rest).map fun r => ((digitsValue r.1 : Int), r.2)

/-- A mark that may have blanks before it. -/
def readMark (mark : Char) (cs : Rest) : Option Rest :=
  match Text.dropBlanks cs with
  | c :: rest => if c = mark then some rest else none
  | [] => none

/-- The sign between a date and a time. -/
def readSeparator : Rest → Option Rest
  | c :: rest => if c = 'T' || c = 't' || c = ' ' then some rest else none
  | [] => none

/-- The fraction of a second in nanoseconds; digits after the ninth are read and dropped. -/
def readFraction : Rest → Option (Nat × Rest)
  | '.' :: cs => (readDigits 9 cs).map fun r =>
      (digitsValue r.1 * Nat.pow 10 (9 - r.1.length), r.2.dropWhile Char.isDigit)
  | cs => some (0, cs)

/-- Two digits and no fewer. -/
def readTwoDigits : Rest → Option (Nat × Rest)
  | a :: b :: rest =>
    if a.isDigit && b.isDigit then some (10 * digitValue a + digitValue b, rest) else none
  | _ => none

/-- The sign of an offset; the typographic minus counts as one. -/
def readSign : Rest → Option (Int × Rest)
  | c :: rest =>
    if c = '+' then some (1, rest) else if c = '-' || c = '−' then some (-1, rest) else none
  | [] => none

/-- Holds of what may stand between the hours and the minutes of an offset. -/
def isOffsetGap (c : Char) : Bool := c == ':' || Text.isBlank c

/-- The offset from universal time in seconds. -/
def readOffset (cs : Rest) : Option (Int × Rest) :=
  match Text.dropBlanks cs with
  | [] => none
  | c :: rest =>
    if c.toUpper = 'U' && (rest.take 2).map Char.toUpper = ['T', 'C'] then some (0, rest.drop 2)
    else if c = 'Z' || c = 'z' then some (0, rest)
    else do
      let (sign, rest) ← readSign (c :: rest)
      let (hours, rest) ← readTwoDigits rest
      let (minutes, rest) ← readTwoDigits (rest.dropWhile isOffsetGap)
      if minutes ≤ 59 then
        some (sign * (hours * 3600 + minutes * 60 : Nat), rest)
      else none

/-- The time stamp that a text spells, if its day and time exist and can be named. -/
def ofString? (s : String) : Option Timestamp := do
  let (year, cs) ← readYear s.toList
  let cs ← readMark '-' cs
  let (month, cs) ← readNumber 2 cs
  let cs ← readMark '-' cs
  let (day, cs) ← readNumber 2 cs
  let cs ← readSeparator cs
  let (hour, cs) ← readNumber 2 cs
  let cs ← readMark ':' cs
  let (minute, cs) ← readNumber 2 cs
  let cs ← readMark ':' cs
  let (second, cs) ← readNumber 2 cs
  let (nanos, cs) ← readFraction cs
  let (offset, cs) ← readOffset cs
  let date : Date := ⟨year, month, day⟩
  if Text.dropBlanks cs = [] ∧ date.isValid ∧ hour ≤ 23 ∧ minute ≤ 59 ∧ second ≤ 60 ∧
      offset.natAbs < 86400 then
    let leap := second = 60
    let inDay : Nat := hour * 3600 + minute * 60 + (if leap then 59 else second)
    let seconds := date.toDays * daySeconds + inDay - offset
    if firstSecond ≤ seconds ∧ seconds ≤ lastSecond then
      some ⟨seconds, nanos + if leap then 1000000000 else 0⟩
    else none
  else none

end Timestamp

end TaskExchange
