/-! Finite binary floating point numbers with a 53-bit significand, as exact integers with a power
of two. Every operation computes its exact quotient first and rounds it once, to the nearest
number, a tie going to the even significand. -/
namespace DocumentServer

/-- The number `significand * 2 ^ exponent`, with a sign of its own so that zero has two. -/
structure Binary64 where
  /-- Whether the number carries a minus sign. -/
  negative : Bool
  significand : Nat
  exponent : Int
  deriving DecidableEq, Repr

/-- The quotient rounded to the nearest integer, a half going to the even neighbour. -/
def roundHalfEven (num den : Nat) : Nat :=
  let floor := num / den
  let twice := 2 * (num % den)
  if den < twice || (twice == den && floor % 2 == 1) then floor + 1 else floor

namespace Binary64

/-- The least exponent, that of the numbers next to zero. -/
def minExponent : Int := -1074

def maxExponent : Int := 971

/-- The least significand of a number that is not next to zero, `2 ^ 52`. -/
def leastNormal : Nat := 4503599627370496

def zero (negative : Bool) : Binary64 := ⟨negative, 0, minExponent⟩

def isZero (x : Binary64) : Bool := x.significand == 0

/-- A quotient with a power of two multiplied in, as numerator and denominator. -/
def scale (num den : Nat) (power : Int) : Nat × Nat :=
  (num * Nat.pow 2 power.toNat, den * Nat.pow 2 (-power).toNat)

/-- The exponent that gives the quotient a significand of 53 bits, or the least one. -/
def exponentFor (num den : Nat) : Int :=
  let guess := (num.log2 : Int) - den.log2 - 52
  let (n, d) := scale num den (-guess)
  max minExponent (if n < d * leastNormal then guess - 1 else guess)

/-- The number nearest to a quotient, unless it is too great. -/
def ofRatio (negative : Bool) (num den : Nat) : Option Binary64 :=
  if num = 0 then some (zero negative)
  else
    let exponent := exponentFor num den
    let (n, d) := scale num den (-exponent)
    let rounded := roundHalfEven n d
    let (significand, exponent) :=
      if rounded = 2 * leastNormal then (leastNormal, exponent + 1) else (rounded, exponent)
    if maxExponent < exponent then none
    else if significand = 0 then some (zero negative)
    else some ⟨negative, significand, exponent⟩

/-- The number without its sign as a numerator and a denominator. -/
def magnitude (x : Binary64) : Nat × Nat := scale x.significand 1 x.exponent

def mul (x y : Binary64) : Option Binary64 :=
  let (a, b) := x.magnitude
  let (c, d) := y.magnitude
  ofRatio (x.negative != y.negative) (a * c) (b * d)

def div (x y : Binary64) : Option Binary64 :=
  let (a, b) := x.magnitude
  let (c, d) := y.magnitude
  ofRatio (x.negative != y.negative) (a * d) (b * c)

def ofInt (n : Int) : Option Binary64 := ofRatio (n < 0) n.natAbs 1

def ofDecimal (negative : Bool) (digits : Nat) (power : Int) : Option Binary64 :=
  ofRatio negative (digits * Nat.pow 10 power.toNat) (Nat.pow 10 (-power).toNat)

def neg (x : Binary64) : Binary64 := { x with negative := !x.negative }

end Binary64

end DocumentServer
