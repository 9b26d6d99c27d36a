import DocumentServer.Document.Basic
import DocumentServer.Document.Fault
import DocumentServer.Text.Hexadecimal

/-! Reading a document from its text. Readers take what is left of the text and give what they read
with what is left behind it. Loops over items, members and string contents carry fuel; the length
of the text is always enough, since every round takes a byte.

Documents may nest `nestingLimit` levels deep. A number with a fraction, an exponent or too many
digits is computed in rounded steps: the leading digits that fit 64 bits become a binary number,
which is then multiplied or divided by a power of ten. -/
namespace DocumentServer.Document

/-- The levels of brackets that can be read. -/
def nestingLimit : Nat := 127

/-- What was read with the rest of the text, or the first fault. -/
abbrev Reading (α : Type) := Except Fault (α × Bytes)

/-! ### Blanks and words -/

def isBlank (b : UInt8) : Bool := b == 32 || b == 10 || b == 13 || b == 9

def skipBlanks (input : Bytes) : Bytes := input.dropWhile isBlank

def readWord (value : Document) : Bytes → Bytes → Reading Document
  | [], input => .ok (value, input)
  | _ :: _, [] => .error (FaultCause.endInValue.before [])
  | want :: word, b :: rest =>
    if b = want then readWord value word rest else .error (FaultCause.expectedWord.before rest)

/-! ### Numbers -/

def isDigit (b : UInt8) : Bool := 48 ≤ b && b ≤ 57

def digitValue (b : UInt8) : Nat := b.toNat - 48

def digitNext : Bytes → Bool
  | b :: _ => isDigit b
  | [] => false

/-- The greatest number that digits are collected into. -/
def maxSignificand : Nat := 18446744073709551615

/-- The greatest exponent that is told from infinity. -/
def maxDecimalExponent : Nat := 2147483647

/-- Reads digits onto `number` as long as it stays within `limit`, counting them. -/
def readDigits (limit number count : Nat) : Bytes → Nat × Nat × Bytes
  | [] => (number, count, [])
  | b :: rest =>
    if isDigit b && number * 10 + digitValue b ≤ limit then
      readDigits limit (number * 10 + digitValue b) (count + 1) rest
    else (number, count, b :: rest)

/-- Divides by a power of ten, in steps of at most `10 ^ 308`. Three steps bring every number that
starts from 64 bits to zero. -/
def divideByTens : Nat → Binary64 → Nat → Option Binary64
  | 0, _, _ => some (.zero false)
  | fuel + 1, x, power =>
    if power ≤ 308 then do x.div (← Binary64.ofDecimal false 1 power)
    else if x.isZero then some x
    else do divideByTens fuel (← x.div (← Binary64.ofDecimal false 1 308)) (power - 308)

/-- The number `significand * 10 ^ power`, rounded after each step, unless it is too great. -/
def scaleByTens (significand : Nat) (power : Int) : Option Binary64 := do
  let x ← Binary64.ofInt significand
  if power < 0 then divideByTens 3 x power.natAbs
  else if power ≤ 308 then x.mul (← Binary64.ofDecimal false 1 power)
  else if x.isZero then some x
  else none

def finishReal (negative : Bool) (significand : Nat) (power : Int) (rest : Bytes) :
    Reading Document :=
  match scaleByTens significand power with
  | some x => .ok (.real { x with negative := negative }, rest)
  | none => .error (FaultCause.numberOutOfRange.before rest)

def readExponent (negative : Bool) (significand : Nat) (power : Int) (input : Bytes) :
    Reading Document :=
  let (lowers, input) :=
    match input with
    | 43 :: rest => (false, rest)
    | 45 :: rest => (true, rest)
    | _ => (false, input)
  match input with
  | [] => .error (FaultCause.endInValue.before [])
  | b :: rest =>
    if isDigit b then
      let (exponent, _, rest) := readDigits maxDecimalExponent (digitValue b) 0 rest
      if digitNext rest then
        if significand ≠ 0 && !lowers then .error (FaultCause.numberOutOfRange.past rest)
        else .ok (.real (.zero negative), rest.dropWhile isDigit)
      else
        finishReal negative significand (if lowers then power - exponent else power + exponent) rest
    else .error (FaultCause.invalidNumber.before rest)

/-- Reads an exponent if there is one and ends the number. -/
def readTail (negative : Bool) (significand : Nat) (power : Int) : Bytes → Reading Document
  | b :: rest =>
    if b = 101 || b = 69 then readExponent negative significand power rest
    else finishReal negative significand power (b :: rest)
  | [] => finishReal negative significand power []

/-- Reads a fraction behind its point. Digits beyond 64 bits are dropped. -/
def readFraction (negative : Bool) (significand : Nat) (power : Int) (input : Bytes) :
    Reading Document :=
  let (significand, count, rest) := readDigits maxSignificand significand 0 input
  if digitNext rest then
    readTail negative significand (power - count) (rest.dropWhile isDigit)
  else if count = 0 then
    match rest with
    | [] => .error (FaultCause.endInValue.before [])
    | _ => .error (FaultCause.invalidNumber.past rest)
  else readTail negative significand (power - count) rest

/-- An integer as a document; one that does not fit 64 bits, or is a negative zero, becomes a binary
number. -/
def integerOf (negative : Bool) (significand : Nat) : Document :=
  if negative then
    if significand = 0 ∨ -minInteger < significand then
      .real ((Binary64.ofInt significand).getD (.zero false)).neg
    else .integer (-significand)
  else .integer significand

/-- Reads what may follow the integer part of a number. -/
def readAfterInteger (negative : Bool) (significand : Nat) : Bytes → Reading Document
  | b :: rest =>
    if b = 46 then readFraction negative significand 0 rest
    else if b = 101 || b = 69 then readExponent negative significand 0 rest
    else .ok (integerOf negative significand, b :: rest)
  | [] => .ok (integerOf negative significand, [])

/-- Reads on behind the digits of an integer that fit 64 bits, when more digits follow. -/
def readLongInteger (negative : Bool) (significand : Nat) (input : Bytes) : Reading Document :=
  let power := (input.takeWhile isDigit).length
  match input.dropWhile isDigit with
  | 46 :: rest => readFraction negative significand power rest
  | rest => readTail negative significand power rest

def readNumber (negative : Bool) : Bytes → Reading Document
  | [] => .error (FaultCause.endInValue.before [])
  | b :: rest =>
    if b = 48 then
      if digitNext rest then .error (FaultCause.invalidNumber.past rest)
      else readAfterInteger negative 0 rest
    else if isDigit b then
      let (significand, _, rest) := readDigits maxSignificand (digitValue b) 0 rest
      if digitNext rest then readLongInteger negative significand rest
      else readAfterInteger negative significand rest
    else .error (FaultCause.invalidNumber.before rest)

/-! ### Strings -/

def readHex : Bytes → Reading Nat
  | a :: b :: c :: d :: rest =>
    match [a, b, c, d].mapM Hexadecimal.value? with
    | some digits => .ok (digits.foldl (fun value digit => value * 16 + digit) 0, rest)
    | none => .error (FaultCause.invalidEscape.before rest)
  | _ => .error (FaultCause.endInString.before [])

/-- Reads the second escape of a surrogate pair whose first half is `high`. -/
def readLowSurrogate (high : Nat) : Bytes → Reading Char
  | [] => .error (FaultCause.endInString.before [])
  | b :: rest =>
    if b = 92 then
      match rest with
      | [] => .error (FaultCause.endInString.before [])
      | b :: rest =>
        if b = 117 then
          match readHex rest with
          | .error fault => .error fault
          | .ok (low, rest) =>
            if low < 0xdc00 ∨ 0xdfff < low then .error (FaultCause.loneSurrogate.before rest)
            else .ok (Char.ofNat ((high - 0xd800) * 1024 + (low - 0xdc00) + 0x10000), rest)
        else .error (FaultCause.endOfEscape.before rest)
    else .error (FaultCause.endOfEscape.before rest)

/-- Reads the digits of a numbered escape, and a second escape when the first is half of a pair. -/
def readNumbered (input : Bytes) : Reading Char :=
  match readHex input with
  | .error fault => .error fault
  | .ok (code, rest) =>
    if 0xdc00 ≤ code ∧ code ≤ 0xdfff then .error (FaultCause.loneSurrogate.before rest)
    else if 0xd800 ≤ code ∧ code ≤ 0xdbff then readLowSurrogate code rest
    else .ok (Char.ofNat code, rest)

/-- The character that a letter behind a backslash stands for. -/
def escaped? (b : UInt8) : Option Char :=
  if b = 34 then some '"'
  else if b = 92 then some '\\'
  else if b = 47 then some '/'
  else if b = 98 then some '\x08'
  else if b = 102 then some '\x0c'
  else if b = 110 then some '\n'
  else if b = 114 then some '\r'
  else if b = 116 then some '\t'
  else none

def readEscape : Bytes → Reading Char
  | [] => .error (FaultCause.endInString.before [])
  | b :: rest =>
    if b = 117 then readNumbered rest
    else
      match escaped? b with
      | some c => .ok (c, rest)
      | none => .error (FaultCause.invalidEscape.before rest)

/-- Reads the contents of a string and its closing quote. `seen` holds the bytes before, the last
one first. -/
def readContents : Nat → Bytes → Bytes → Reading Bytes
  | 0, _, _ => .error (FaultCause.endInString.before [])
  | _ + 1, _, [] => .error (FaultCause.endInString.before [])
  | fuel + 1, seen, b :: rest =>
    if b = 34 then .ok (seen.reverse, rest)
    else if b = 92 then
      match readEscape rest with
      | .error fault => .error fault
      | .ok (c, rest) => readContents fuel ((String.utf8EncodeChar c).reverse ++ seen) rest
    else if b < 32 then .error (FaultCause.controlCharacter.before rest)
    else readContents fuel (b :: seen) rest

def readString (fuel : Nat) (input : Bytes) : Reading String :=
  match readContents fuel [] input with
  | .error fault => .error fault
  | .ok (contents, rest) =>
    match contents.text? with
    | some text => .ok (text, rest)
    | none => .error (FaultCause.invalidCodePoint.past (input.drop input.validLength))

/-! ### Arrays and objects -/

/-- Reads the items behind the first one, each with its comma, and the closing bracket. -/
def readItems (readValue : Bytes → Reading Document) :
    Nat → List Document → Bytes → Reading Document
  | 0, _, _ => .error (FaultCause.endInArray.past [])
  | fuel + 1, items, input =>
    match skipBlanks input with
    | [] => .error (FaultCause.endInArray.past [])
    | b :: rest =>
      if b = 93 then .ok (.array items.reverse, rest)
      else if b = 44 then
        match skipBlanks rest with
        | [] => .error (FaultCause.endInValue.past [])
        | b :: after =>
          if b = 93 then .error (FaultCause.trailingComma.past (b :: after))
          else
            match readValue (b :: after) with
            | .error fault => .error fault
            | .ok (item, rest) => readItems readValue fuel (item :: items) rest
      else .error (FaultCause.expectedCommaOrBracket.past (b :: rest))

def readArray (readValue : Bytes → Reading Document) (fuel : Nat) (input : Bytes) :
    Reading Document :=
  match skipBlanks input with
  | [] => .error (FaultCause.endInArray.past [])
  | b :: rest =>
    if b = 93 then .ok (.array [], rest)
    else
      match readValue (b :: rest) with
      | .error fault => .error fault
      | .ok (item, rest) => readItems readValue fuel [item] rest

def readMember (readValue : Bytes → Reading Document) (fuel : Nat) (input : Bytes) :
    Reading (String × Document) :=
  match readString fuel input with
  | .error fault => .error fault
  | .ok (name, rest) =>
    match skipBlanks rest with
    | [] => .error (FaultCause.endInObject.past [])
    | b :: rest =>
      if b = 58 then
        match readValue rest with
        | .error fault => .error fault
        | .ok (value, rest) => .ok ((name, value), rest)
      else .error (FaultCause.expectedColon.past (b :: rest))

/-- Reads the members behind the first one, each with its comma, and the closing brace. -/
def readMembers (readValue : Bytes → Reading Document) :
    Nat → List (String × Document) → Bytes → Reading Document
  | 0, _, _ => .error (FaultCause.endInObject.past [])
  | fuel + 1, members, input =>
    match skipBlanks input with
    | [] => .error (FaultCause.endInObject.past [])
    | b :: rest =>
      if b = 125 then .ok (ofMembers members.reverse, rest)
      else if b = 44 then
        match skipBlanks rest with
        | [] => .error (FaultCause.endInValue.past [])
        | b :: after =>
          if b = 34 then
            match readMember readValue fuel after with
            | .error fault => .error fault
            | .ok (member, rest) => readMembers readValue fuel (member :: members) rest
          else if b = 125 then .error (FaultCause.trailingComma.past (b :: after))
          else .error (FaultCause.nameNotString.past (b :: after))
      else .error (FaultCause.expectedCommaOrBrace.past (b :: rest))

def readObject (readValue : Bytes → Reading Document) (fuel : Nat) (input : Bytes) :
    Reading Document :=
  match skipBlanks input with
  | [] => .error (FaultCause.endInObject.past [])
  | b :: rest =>
    if b = 125 then .ok (emptyObject, rest)
    else if b = 34 then
      match readMember readValue fuel rest with
      | .error fault => .error fault
      | .ok (member, rest) => readMembers readValue fuel [member] rest
    else .error (FaultCause.nameNotString.past (b :: rest))

/-! ### Documents -/

/-- Reads a document whose items and members are read by `nested`; without one, brackets nest too
deep. -/
def readWith (fuel : Nat) (nested : Option (Bytes → Reading Document)) (input : Bytes) :
    Reading Document :=
  match skipBlanks input with
  | [] => .error (FaultCause.endInValue.past [])
  | b :: rest =>
    if b = 91 then
      match nested with
      | none => .error (FaultCause.nestingTooDeep.past (b :: rest))
      | some readValue => readArray readValue fuel rest
    else if b = 123 then
      match nested with
      | none => .error (FaultCause.nestingTooDeep.past (b :: rest))
      | some readValue => readObject readValue fuel rest
    else if b = 34 then
      match readString fuel rest with
      | .error fault => .error fault
      | .ok (text, rest) => .ok (.string text, rest)
    else if b = 45 then readNumber true rest
    else if isDigit b then readNumber false (b :: rest)
    else if b = 110 then readWord .null [117, 108, 108] rest
    else if b = 116 then readWord (.bool true) [114, 117, 101] rest
    else if b = 102 then readWord (.bool false) [97, 108, 115, 101] rest
    else .error (FaultCause.expectedValue.past (b :: rest))

/-- Reads a document with room for the given levels of brackets. -/
def readValue (fuel : Nat) : Nat → Bytes → Reading Document
  | 0 => readWith fuel none
  | room + 1 => readWith fuel (some (readValue fuel room))

/-- The document that a text holds, with nothing but blanks around it. -/
def decode (input : Bytes) : Except Fault Document :=
  match readValue (input.length + 1) nestingLimit input with
  | .error fault => .error fault
  | .ok (document, rest) =>
    match skipBlanks rest with
    | [] => .ok document
    | b :: rest => .error (FaultCause.trailingCharacters.past (b :: rest))

end DocumentServer.Document
