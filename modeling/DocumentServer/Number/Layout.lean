import DocumentServer.Number.Shortest

/-! How the digits of a number are laid out as text: with the point among them, or with an exponent
behind them. A layout says where positional writing ends. -/
namespace DocumentServer

def zeros (n : Nat) : List Char := List.replicate n '0'

namespace Decimal

/-- The number with its point in place, and `.0` behind a whole number. -/
def positional (d : Decimal) : List Char :=
  let digits := d.text
  let point := d.point
  if point ≤ 0 then '0' :: '.' :: (zeros (-point).toNat ++ digits)
  else if digits.length ≤ point.toNat then
    digits ++ zeros (point.toNat - digits.length) ++ ['.', '0']
  else digits.take point.toNat ++ '.' :: digits.drop point.toNat

/-- The number with one digit before its point and a signed power of ten behind. -/
def scientific (d : Decimal) : List Char :=
  let power := d.point - 1
  let mantissa :=
    match d.text with
    | first :: second :: rest => first :: '.' :: second :: rest
    | digits => digits
  let sign := if power < 0 then '-' else '+'
  mantissa ++ 'e' :: sign :: Nat.toDigits 10 power.natAbs

end Decimal

/-- The places of the decimal point between which a number is written positionally. -/
structure NumberLayout where
  /-- The least place. -/
  first : Int
  /-- The greatest place. -/
  last : Int

namespace NumberLayout

/-- Documents write a number positionally from `0.00001` on and below `10 ^ 16`. -/
def document : NumberLayout := ⟨-4, 16⟩

/-- A configuration file writes every number positionally. -/
def configuration : NumberLayout := ⟨-400, 400⟩

def text (layout : NumberLayout) (x : Binary64) : String :=
  let d := x.shortest
  let digits :=
    if x.isZero then ['0', '.', '0']
    else if layout.first ≤ d.point ∧ d.point ≤ layout.last then d.positional
    else d.scientific
  String.ofList (if x.negative then '-' :: digits else digits)

end NumberLayout

end DocumentServer
