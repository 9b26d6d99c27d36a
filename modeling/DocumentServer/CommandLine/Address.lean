import DocumentServer.Text.Hexadecimal

/-! The hosts that a server can listen at: four decimal numbers between points, or a longer address
in brackets, whose groups are hexadecimal numbers between colons. Two colons stand for groups of
zeros, and the last two groups may be written as four decimal numbers. -/
namespace DocumentServer.Address

/-- What a reader gives: how far it came, or nothing. -/
abbrev Rest := Option (List Char)

/-- Reads a number of at most so many digits and up to a limit. A number that begins with a zero may
have no further digits where `plain` is set. -/
def readNumber (base digits limit : Nat) (plain : Bool) (text : List Char) : Rest :=
  let isDigit (c : Char) : Bool := (Hexadecimal.digitOf? base c).isSome
  let found := text.takeWhile isDigit
  let value := found.foldl (fun sum c => sum * base + (Hexadecimal.digitOf? base c).getD 0) 0
  if found.isEmpty || digits < found.length || limit < value then none
  else if plain && found.head? = some '0' && 1 < found.length then none
  else some (text.dropWhile isDigit)

def readMark (mark : Char) : List Char → Rest
  | c :: rest => if c = mark then some rest else none
  | [] => none

/-- Reads a decimal number below 256. -/
def readByte (text : List Char) : Rest := readNumber 10 3 255 true text

/-- Reads four decimal numbers between points. -/
def readFour (text : List Char) : Rest := do
  let text ← readMark '.' (← readByte text)
  let text ← readMark '.' (← readByte text)
  let text ← readMark '.' (← readByte text)
  readByte text

def readGroup (text : List Char) : Rest := readNumber 16 4 65535 false text

/-- Reads what separates a group from the one before it, if there is one. -/
def readSeparator (first : Bool) (text : List Char) : Rest :=
  if first then some text else readMark ':' text

/-- Reads at most so many groups. Gives how many are left, whether the last two were written as four
numbers, and the rest of the text. -/
def readGroups : Nat → Bool → List Char → Nat × Bool × List Char
  | 0, _, text => (0, false, text)
  | limit + 1, first, text =>
    let four := if limit = 0 then none else (readSeparator first text).bind readFour
    match four with
    | some rest => (limit - 1, true, rest)
    | none =>
      match (readSeparator first text).bind readGroup with
      | some rest => readGroups limit false rest
      | none => (limit + 1, false, text)

/-- Reads groups, some of which two colons may stand for. -/
def readLong (text : List Char) : Rest :=
  match readGroups 8 true text with
  | (0, _, rest) => some rest
  | (_, true, _) => none
  | (left, false, rest) => do
    let rest ← readMark ':' (← readMark ':' rest)
    let (_, _, rest) := readGroups (left - 1) true rest
    return rest

/-- Reads the number of a zone, if there is one. -/
def readZone (text : List Char) : List Char :=
  ((readMark '%' text).bind fun rest =>
    readNumber 10 rest.length 4294967295 false rest).getD text

def readBracketed (text : List Char) : Rest := do
  readMark ']' (readZone (← readLong (← readMark '[' text)))

def isHost (text : String) : Bool :=
  readFour text.toList = some [] || readBracketed text.toList = some []

end DocumentServer.Address
