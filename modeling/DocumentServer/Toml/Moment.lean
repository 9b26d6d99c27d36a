import DocumentServer.Toml.Number

/-! Dates and times as they are written in configurations, and their normal form: a capital T
between the date and the time, at most nine places of a second without zeros at their end, and a
capital Z or a signed distance from universal time. -/
namespace DocumentServer.Toml

/-- The number that exactly `count` decimal digits at the front stand for. -/
def fixedDigits (count : Nat) (word : List Char) : Reading Nat :=
  let (digits, rest) := (word.take count, word.drop count)
  if digits.length = count ∧ digits.all Char.isDigit then
    some (ofDigits 10 (digits.map (·.toNat - 48)), rest)
  else none

def daysInMonth (year month : Nat) : Nat :=
  if month = 2 then
    if year % 4 = 0 ∧ (year % 100 ≠ 0 ∨ year % 400 = 0) then 29 else 28
  else if month = 4 ∨ month = 6 ∨ month = 9 ∨ month = 11 then 30
  else 31

def padded (width n : Nat) : List Char :=
  let digits := Nat.toDigits 10 n
  List.replicate (width - digits.length) '0' ++ digits

def readDate (word : List Char) : Option (List Char × List Char) := do
  let (year, rest) ← fixedDigits 4 word
  let '-' :: rest := rest | none
  let (month, rest) ← fixedDigits 2 rest
  let '-' :: rest := rest | none
  let (day, rest) ← fixedDigits 2 rest
  if 1 ≤ month ∧ month ≤ 12 ∧ 1 ≤ day ∧ day ≤ daysInMonth year month then
    some (padded 4 year ++ '-' :: (padded 2 month ++ '-' :: padded 2 day), rest)
  else none

/-- The normal form of the places of a second: the first nine without zeros at their end. -/
def normalPlaces (places : List Char) : List Char :=
  let kept := ((places.take 9).reverse.dropWhile (· = '0')).reverse
  if kept.isEmpty then [] else '.' :: kept

/-- Reads the places of a second if there are any. -/
def readPlaces : List Char → Reading (List Char)
  | '.' :: rest =>
    let (places, rest) := rest.span Char.isDigit
    if places.isEmpty then none else some (normalPlaces places, rest)
  | rest => some ([], rest)

/-- Reads a time of the day and gives its normal form. A minute may have sixty-one seconds. -/
def readTime (word : List Char) : Option (List Char × List Char) := do
  let (hour, rest) ← fixedDigits 2 word
  let ':' :: rest := rest | none
  let (minute, rest) ← fixedDigits 2 rest
  let ':' :: rest := rest | none
  let (second, rest) ← fixedDigits 2 rest
  let (places, rest) ← readPlaces rest
  if hour ≤ 23 ∧ minute ≤ 59 ∧ second ≤ 60 then
    some (padded 2 hour ++ ':' :: (padded 2 minute ++ ':' :: (padded 2 second ++ places)), rest)
  else none

/-- The normal form of a distance from universal time, if the word is one. -/
def offset? : List Char → Option (List Char)
  | [] => some []
  | ['Z'] => some ['Z']
  | ['z'] => some ['Z']
  | sign :: word => do
    if sign ≠ '+' ∧ sign ≠ '-' then none
    let (hour, rest) ← fixedDigits 2 word
    let ':' :: rest := rest | none
    let (minute, rest) ← fixedDigits 2 rest
    if rest = [] ∧ hour ≤ 23 ∧ minute ≤ 59 then
      let sign := if hour = 0 ∧ minute = 0 then '+' else sign
      some (sign :: (padded 2 hour ++ ':' :: padded 2 minute))
    else none

/-- The normal form of a time with its distance, if the word is one. -/
def timeAndOffset? (word : List Char) : Option (List Char) := do
  let (time, rest) ← readTime word
  let offset ← offset? rest
  some (time ++ offset)

/-- The normal form of a moment, if the word is one. -/
def moment? (word : List Char) : Option (List Char) :=
  match readDate word with
  | some (date, []) => some date
  | some (date, mark :: rest) =>
    if mark = 'T' ∨ mark = 't' then (timeAndOffset? rest).map fun time => date ++ 'T' :: time
    else none
  | none =>
    match readTime word with
    | some (time, []) => some time
    | _ => none

/-- Whether a word is a date without a time. -/
def isDate (word : List Char) : Bool :=
  match readDate word with
  | some (_, []) => true
  | _ => false

end DocumentServer.Toml
