import TaskExchange.Number.Double

/-!
Shortest decimals: the fewest significant digits that read back as a given double, and of several
such decimals the one nearest to it.  The numbers that read back as a double fill an interval that
reaches half way to its neighbours, its ends included when the mantissa is even.  Among the decimals
of a fixed number of digits, one lies in the interval only if one of the two next to the double
does.
-/

namespace TaskExchange

/-- The number `d₁.d₂…dₙ` times a power of ten. -/
structure Decimal where
  /-- The significant digits, the first of them not zero. -/
  digits : List Char
  /-- The power of ten that the first digit counts. -/
  power : Int
  deriving DecidableEq

namespace Double

/-- The decimal digits of a number. -/
def decimalDigits (n : Nat) : List Char := Nat.toDigits 10 n

/-- The power of ten that the first significant digit of a positive fraction counts. -/
def leadingPower (num den : Nat) : Int :=
  if den ≤ num then ((decimalDigits (num / den)).length : Int) - 1
  else -((decimalDigits ((den + num - 1) / num - 1)).length : Int)

/-- The numbers between two ends, and one that is singled out, over a common denominator. -/
structure Interval where
  den : Nat
  low : Nat
  value : Nat
  high : Nat
  /-- Holds when the ends belong to the interval. -/
  closed : Bool

/-- The numbers that read back as a double: half way to its neighbour on either side, of which the
lower one is nearer below a power of two. -/
def interval (d : Double) : Interval :=
  let (num, den) := d.magnitude
  let unit := if 0 ≤ d.exponent then Nat.pow 2 d.exponent.toNat else 1
  let narrow := d.mantissa == mantissaBound / 2 && leastExponent < d.exponent
  { den := 4 * den
    low := if narrow then 4 * num - unit else 4 * num - 2 * unit
    value := 4 * num
    high := 4 * num + 2 * unit
    closed := d.mantissa % 2 == 0 }

/-- Holds when `c` units of a decimal place, given as the fraction `num / den`, lie in an
interval. -/
def Interval.contains (i : Interval) (c num den : Nat) : Bool :=
  let x := c * num * i.den
  let low := i.low * den
  let high := i.high * den
  if i.closed then low ≤ x && x ≤ high else low < x && x < high

/-- The decimal of a given place that lies in an interval and is nearest to its value. -/
def Interval.pick? (i : Interval) (num den : Nat) : Option Nat :=
  let below := i.value * den / (i.den * num)
  let rest := i.value * den % (i.den * num)
  match i.contains below num den, i.contains (below + 1) num den with
  | true, true =>
    let twice := 2 * rest
    let unit := i.den * num
    if twice < unit || (twice == unit && below % 2 == 0) then some below else some (below + 1)
  | true, false => some below
  | false, true => some (below + 1)
  | false, false => none

/-- The digits of a count of decimal places, without zeros at the end. -/
def significant (digits : List Char) : List Char :=
  (digits.reverse.dropWhile (· == '0')).reverse

/-- Tries the decimals of more and more digits, until one reads back. -/
def search (i : Interval) (power : Int) : Nat → Nat → Option Decimal
  | 0, _ => none
  | fuel + 1, places =>
    let place := power - places
    let (num, den) :=
      if 0 ≤ place then (Nat.pow 10 place.toNat, 1) else (1, Nat.pow 10 place.natAbs)
    match i.pick? num den with
    | some c =>
      if c = 0 then search i power fuel (places + 1)
      else
        let digits := decimalDigits c
        some ⟨significant digits, place + digits.length - 1⟩
    | none => search i power fuel (places + 1)

/-- Seventeen digits always suffice. -/
def enoughDigits : Nat := 18

/-- The shortest decimal that reads back as a double other than zero. -/
def shortest? (d : Double) : Option Decimal :=
  if d.mantissa = 0 then none
  else search d.interval (leadingPower d.magnitude.1 d.magnitude.2) enoughDigits 0

end Double

end TaskExchange
