/-!
Doubles: the numbers of 53 binary digits and a bounded exponent.  They are kept as a sign, a whole
mantissa and a power of two, so that everything about them is arithmetic on whole numbers.  The one
operation is rounding a fraction to the nearest double, a tie going to the even mantissa; products
and quotients are rounded fractions.
-/

namespace TaskExchange

/-- The number `mantissa * 2 ^ exponent` under its sign. -/
structure Double where
  negative : Bool
  mantissa : Nat
  exponent : Int
  deriving DecidableEq, Inhabited

namespace Double

/-- Mantissas are smaller than this. -/
def mantissaBound : Nat := Nat.pow 2 53

/-- The exponent of the finest doubles. -/
def leastExponent : Int := -1074

/-- The exponent of the coarsest doubles. -/
def greatestExponent : Int := 971

/-- Zero under a sign. -/
def zero (negative : Bool) : Double := ⟨negative, 0, 0⟩

/-- The same number under another sign. -/
def withSign (d : Double) (negative : Bool) : Double := { d with negative }

/-- The quotient rounded to a whole number; a tie goes to the even one. -/
def roundQuotient (num den : Nat) : Nat :=
  let q := num / den
  let twice := 2 * (num % den)
  if twice > den || (twice == den && q % 2 == 1) then q + 1 else q

/-- A fraction divided by a power of two, as numerator and denominator. -/
def scaledDown (num den : Nat) (exponent : Int) : Nat × Nat :=
  if 0 ≤ exponent then (num, den * Nat.pow 2 exponent.toNat)
  else (num * Nat.pow 2 exponent.natAbs, den)

/-- The exponent at which a fraction has a mantissa of 53 digits, but not below the least one. -/
def exponentOf (num den : Nat) : Int :=
  let e : Int := (num.log2 : Int) - den.log2 - 53
  let (n, d) := scaledDown num den e
  max leastExponent (if n / d < mantissaBound then e else e + 1)

/-- The double nearest to a fraction, unless that lies beyond the greatest one. -/
def nearest? (num den : Nat) : Option Double :=
  if num = 0 then some (zero false)
  else
    let e := exponentOf num den
    let (n, d) := scaledDown num den e
    let m := roundQuotient n d
    if m = 0 then some (zero false)
    else
      let (m, e) := if m = mantissaBound then (m / 2, e + 1) else (m, e)
      if e ≤ greatestExponent then some ⟨false, m, e⟩ else none

/-- The size of a double as a fraction. -/
def magnitude (d : Double) : Nat × Nat :=
  if 0 ≤ d.exponent then (d.mantissa * Nat.pow 2 d.exponent.toNat, 1)
  else (d.mantissa, Nat.pow 2 d.exponent.natAbs)

/-- The rounded product of two sizes. -/
def times? (a b : Double) : Option Double :=
  nearest? (a.magnitude.1 * b.magnitude.1) (a.magnitude.2 * b.magnitude.2)

/-- The rounded quotient of two sizes. -/
def dividedBy? (a b : Double) : Option Double :=
  nearest? (a.magnitude.1 * b.magnitude.2) (a.magnitude.2 * b.magnitude.1)

/-- The greatest power of ten that is a double. -/
def greatestPower : Nat := 308

/-- The double nearest to a power of ten. -/
def powerOfTen? (k : Nat) : Option Double := nearest? (Nat.pow 10 k) 1

/-- A size multiplied by a power of ten, each factor and each step rounded: one step where the power
is a double, and steps by the greatest power while it is too small for one. -/
def scaleByTen? (d : Double) (k : Int) : Option Double :=
  if d.mantissa = 0 then some d
  else if (greatestPower : Int) < k then none
  else if 0 ≤ k then (powerOfTen? k.toNat).bind d.times?
  else if -(greatestPower : Int) ≤ k then (powerOfTen? k.natAbs).bind d.dividedBy?
  else (powerOfTen? greatestPower).bind fun p => (d.dividedBy? p).bind fun q =>
    scaleByTen? q (k + greatestPower)
termination_by k.natAbs
decreasing_by
  have : (greatestPower : Int) = 308 := rfl
  omega

end Double

end TaskExchange
