import DocumentServer.Document.Basic
import DocumentServer.Text.Hexadecimal
import DocumentServer.Toml.Value

/-! Integers and binary numbers as they are written in configurations. A number is given as a whole
word; underscores may stand between two digits. -/
namespace DocumentServer.Toml

/-- The digits of a word without the underscores, each of which has to stand between two digits.
`afterDigit` says whether a digit comes just before. -/
def plainDigits (base : Nat) : Bool → List Char → Option (List Nat)
  | afterDigit, [] => if afterDigit then some [] else none
  | afterDigit, c :: rest =>
    if c = '_' then if afterDigit then plainDigits base false rest else none
    else
      match Hexadecimal.digitOf? base c with
      | none => none
      | some digit => (plainDigits base true rest).map (digit :: ·)

/-- The number that digits stand for. -/
def ofDigits (base : Nat) (digits : List Nat) : Nat :=
  digits.foldl (fun n digit => n * base + digit) 0

def splitSign : List Char → Bool × List Char
  | '-' :: rest => (true, rest)
  | '+' :: rest => (false, rest)
  | word => (false, word)

/-- The decimal digits of a word, no zero leading others. -/
def decimalDigits (word : List Char) : Option (List Nat) :=
  match plainDigits 10 false word with
  | some (0 :: _ :: _) => none
  | found => found

def bounded (n : Int) : Option Int :=
  if Document.minInteger ≤ n ∧ n ≤ Document.maxSigned then some n else none

/-- The integer that a word stands for: decimal with an optional sign, or in base sixteen, eight or
two behind a mark. -/
def integer? : List Char → Option Int
  | '0' :: 'x' :: word =>
    (plainDigits 16 false word).bind fun digits => bounded (ofDigits 16 digits)
  | '0' :: 'o' :: word => (plainDigits 8 false word).bind fun digits => bounded (ofDigits 8 digits)
  | '0' :: 'b' :: word => (plainDigits 2 false word).bind fun digits => bounded (ofDigits 2 digits)
  | word =>
    let (negative, word) := splitSign word
    (decimalDigits word).bind fun digits =>
      let n : Int := ofDigits 10 digits
      bounded (if negative then -n else n)

/-- The number `digits * 10 ^ power`. Greater ones than can be told apart become infinite if they
are negative and are refused if not. -/
def realOf (negative : Bool) (digits : List Nat) (power : Int) : Option Real :=
  let significand := ofDigits 10 digits
  let size := power + digits.length
  if significand = 0 ∨ size < -400 then some (.finite (.zero negative))
  else
    let x := if 400 < power + (Nat.toDigits 10 significand).length then none
      else Binary64.ofDecimal negative significand power
    match x with
    | some x => some (.finite x)
    | none => if negative then some (.infinite true) else none

def exponent? (word : List Char) : Option Int :=
  let (negative, word) := splitSign word
  (plainDigits 10 false word).map fun digits =>
    if negative then -(ofDigits 10 digits : Int) else ofDigits 10 digits

def isExponentMark (c : Char) : Bool := c = 'e' || c = 'E'

/-- The binary number that a word stands for: an integer part with a fraction, an exponent or both,
or the name of an infinity or of no number. -/
def real? (word : List Char) : Option Real :=
  let (negative, word) := splitSign word
  if word = ['i', 'n', 'f'] then some (.infinite negative)
  else if word = ['n', 'a', 'n'] then some .notANumber
  else
    let (mantissa, tail) := word.span (!isExponentMark ·)
    let (whole, fraction) := mantissa.span (· ≠ '.')
    if tail.isEmpty && fraction.isEmpty then none
    else do
      let whole ← decimalDigits whole
      let fraction ← if fraction.isEmpty then some [] else plainDigits 10 false fraction.tail
      let exponent ← if tail.isEmpty then some 0 else exponent? tail.tail
      realOf negative (whole ++ fraction) (exponent - fraction.length)

end DocumentServer.Toml
