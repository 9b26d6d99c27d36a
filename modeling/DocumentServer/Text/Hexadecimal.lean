/-! Hexadecimal digits as bytes and as characters, and those of smaller bases among them. -/
namespace DocumentServer.Hexadecimal

/-- The value of a digit, whose letters may be small or capital. -/
def value? (byte : UInt8) : Option Nat :=
  if 48 ≤ byte && byte ≤ 57 then some (byte.toNat - 48)
  else if 65 ≤ byte && byte ≤ 70 then some (byte.toNat - 55)
  else if 97 ≤ byte && byte ≤ 102 then some (byte.toNat - 87)
  else none

/-- The value of a digit of a base up to sixteen. -/
def digitOf? (base : Nat) (c : Char) : Option Nat :=
  if c.toNat < 128 then (value? c.toNat.toUInt8).filter (· < base) else none

/-- The last digit of a number, a small letter above nine. -/
def digit (n : Nat) : Char := Nat.digitChar (n % 16)

/-- The last digit of a number, a capital letter above nine. -/
def capitalDigit (n : Nat) : Char := (digit n).toUpper

end DocumentServer.Hexadecimal
