import TaskExchange.Json.Value

/-!
Numerals: the numbers that JSON texts spell.  Digits are taken into a 64-bit word for as long as
they fit.  If all of a whole number fits, it is that number exactly.  Of any other number, digits
before the point that do not fit count as powers of ten and digits after the point that do not fit
are dropped; the word is then rounded to a double and scaled.
-/

namespace TaskExchange

/-- The parts of a numeral. -/
structure Numeral where
  negative : Bool
  /-- The digits before the point. -/
  front : List Nat
  /-- The digits after the point, if there is one. -/
  back : Option (List Nat)
  /-- The power of ten, if one is written. -/
  power : Option Int
  deriving DecidableEq

namespace Numeral

/-- The greatest number of a 64-bit word. -/
def greatestWord : Nat := Nat.pow 2 64 - 1

/-- Takes digits into a word for as long as they fit; gives the word, how many digits were taken and
how many were not. -/
def absorb : Nat → List Nat → Nat × Nat × Nat
  | word, [] => (word, 0, 0)
  | word, d :: rest =>
    if word * 10 + d ≤ greatestWord then
      let (result, taken, left) := absorb (word * 10 + d) rest
      (result, taken + 1, left)
    else (word, 0, rest.length + 1)

/-- The number that a numeral spells, unless it is too great for a double. -/
def value? (n : Numeral) : Option Number :=
  let (word, _, left) := absorb 0 n.front
  if left = 0 ∧ n.back = none ∧ n.power = none ∧
      (!n.negative ∨ (word ≠ 0 ∧ word ≤ Nat.pow 2 63)) then
    some (.whole (if n.negative then -(word : Int) else word))
  else
    let (word, taken, _) := absorb word (n.back.getD [])
    let power : Int := left - taken + n.power.getD 0
    ((Double.nearest? word 1).bind (Double.scaleByTen? · power)).map fun d =>
      .double (d.withSign n.negative)

end Numeral

end TaskExchange
