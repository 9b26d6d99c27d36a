import DocumentServer.Bytes

/-! What can be wrong with the text of a document, and where. A fault remembers how many bytes lie
behind its place; the line and the column are counted from the whole text when the fault is told. -/
namespace DocumentServer

/-- What is wrong with the text of a document. -/
inductive FaultCause where
  | endInValue
  | endInString
  | endInArray
  | endInObject
  | expectedColon
  | expectedCommaOrBracket
  | expectedCommaOrBrace
  | expectedWord
  | expectedValue
  | invalidEscape
  | invalidNumber
  | numberOutOfRange
  | invalidCodePoint
  | controlCharacter
  | nameNotString
  | loneSurrogate
  | trailingComma
  | trailingCharacters
  | endOfEscape
  | nestingTooDeep
  deriving DecidableEq, Repr

/-- What is wrong with the text of a document, and how many bytes lie behind the place. -/
structure Fault where
  cause : FaultCause
  remaining : Nat
  deriving DecidableEq, Repr

namespace FaultCause

def text : FaultCause → String
  | endInValue => "EOF while parsing a value"
  | endInString => "EOF while parsing a string"
  | endInArray => "EOF while parsing a list"
  | endInObject => "EOF while parsing an object"
  | expectedColon => "expected `:`"
  | expectedCommaOrBracket => "expected `,` or `]`"
  | expectedCommaOrBrace => "expected `,` or `\x7d`"
  | expectedWord => "expected ident"
  | expectedValue => "expected value"
  | invalidEscape => "invalid escape"
  | invalidNumber => "invalid number"
  | numberOutOfRange => "number out of range"
  | invalidCodePoint => "invalid unicode code point"
  | controlCharacter => "control character (\\u0000-\\u001F) found while parsing a string"
  | nameNotString => "key must be a string"
  | loneSurrogate => "lone leading surrogate in hex escape"
  | trailingComma => "trailing comma"
  | trailingCharacters => "trailing characters"
  | endOfEscape => "unexpected end of hex escape"
  | nestingTooDeep => "recursion limit exceeded"

/-- The fault just before the given rest of the text. -/
def before (cause : FaultCause) (rest : Bytes) : Fault := ⟨cause, rest.length⟩

/-- The fault just past the first byte of the given rest of the text, or at the end of it. -/
def past (cause : FaultCause) (rest : Bytes) : Fault := ⟨cause, rest.length - 1⟩

end FaultCause

/-- A place in a text. Lines count from one, columns from zero. -/
structure Place where
  line : Nat
  column : Nat
  deriving DecidableEq, Repr

namespace Place

/-- One byte further. -/
def step (place : Place) (byte : UInt8) : Place :=
  if byte = 10 then ⟨place.line + 1, 0⟩ else ⟨place.line, place.column + 1⟩

def behind (bytes : Bytes) : Place := bytes.foldl step ⟨1, 0⟩

end Place

namespace Fault

/-- The wording of a fault in a text, with its place. -/
def message (input : Bytes) (fault : Fault) : String :=
  let place := Place.behind (input.take (input.length - fault.remaining))
  s!"{fault.cause.text} at line {place.line} column {place.column}"

end Fault

end DocumentServer
