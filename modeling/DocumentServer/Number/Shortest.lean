import DocumentServer.Number.Binary64

/-! The shortest decimal that reads back as a given binary number. The decimals that round to the
number form an interval; the coarsest decimal grid with a point in it gives the digits, the nearer
of two such points winning and a tie going to the even digit. -/
namespace DocumentServer

/-- The number `digits * 10 ^ power`, where `digits` does not end in a zero unless it is zero. -/
structure Decimal where
  digits : Nat
  power : Int
  deriving DecidableEq, Repr

namespace Decimal

/-- Drops at most `fuel` zeros from the end of the digits. -/
def trimFrom : Nat → Nat → Int → Decimal
  | 0, digits, power => ⟨digits, power⟩
  | fuel + 1, digits, power =>
    if digits ≠ 0 ∧ digits % 10 = 0 then trimFrom fuel (digits / 10) (power + 1)
    else ⟨digits, power⟩

/-- The number `digits * 10 ^ power` without zeros at the end of its digits. -/
def trim (digits : Nat) (power : Int) : Decimal := trimFrom 20 digits power

def text (d : Decimal) : List Char := Nat.toDigits 10 d.digits

/-- How many digits stand before the decimal point when the number is written positionally; zero
or less when it is below one. -/
def point (d : Decimal) : Int := d.text.length + d.power

end Decimal

namespace Binary64

/-- Whether a quotient is at least a power of ten. -/
def reaches (num den : Nat) (power : Int) : Bool :=
  decide (den * Nat.pow 10 power.toNat ≤ num * Nat.pow 10 (-power).toNat)

/-- The power of ten of the first digit of a positive quotient. -/
def leadingPower (num den : Nat) : Int :=
  let guess := ((num.log2 : Int) - den.log2) * 30103 / 100000
  if reaches num den (guess + 1) then guess + 1
  else if reaches num den guess then guess
  else guess - 1

/-- The ends of the interval that rounds to a number, as multiples of a quarter of its last place,
with the number itself between them. -/
def interval (x : Binary64) : Nat × Nat × Nat :=
  let middle := 4 * x.significand
  let below := if x.significand = leastNormal ∧ minExponent < x.exponent then 1 else 2
  (middle - below, middle, middle + 2)

/-- Whether a decimal point lies in the interval, ends included when the significand is even. -/
def within (x : Binary64) (low value high : Nat) : Bool :=
  if x.significand % 2 = 0 then low ≤ value && value ≤ high else low < value && value < high

/-- The point of the grid of step `10 ^ power` that stands for the number, if one does. -/
def onGrid (x : Binary64) (power : Int) : Option Nat :=
  let (low, middle, high) := x.interval
  -- All are multiples of `2 ^ (exponent - 2)`; bring them and the step to one denominator.
  let (unit, den) := scale 1 1 (x.exponent - 2)
  let unit := unit * Nat.pow 10 (-power).toNat
  let step := den * Nat.pow 10 power.toNat
  let floor := middle * unit / step
  let fits (n : Nat) : Bool := x.within (low * unit) (n * step) (high * unit)
  match fits floor, fits (floor + 1) with
  | true, true => some (roundHalfEven (middle * unit) step)
  | true, false => some floor
  | false, true => some (floor + 1)
  | false, false => none

/-- Tries grids of `count + 1` digits and finer ones, at most `fuel` of them. -/
def shortestFrom (x : Binary64) (leading : Int) : Nat → Nat → Decimal
  | 0, _ => ⟨0, 0⟩
  | fuel + 1, count =>
    match x.onGrid (leading - count) with
    | some digits => Decimal.trim digits (leading - count)
    | none => shortestFrom x leading fuel (count + 1)

/-- The shortest decimal that reads back as the number without its sign. Seventeen digits always
suffice. -/
def shortest (x : Binary64) : Decimal :=
  if x.isZero then ⟨0, 0⟩
  else
    let (num, den) := x.magnitude
    shortestFrom x (leadingPower num den) 17 0

end Binary64

end DocumentServer
