import DocumentServer.Http.Frame

/-! What a client sees of a response: the status and the headers of its start frame, and a body that
ends with the final frame or breaks off. Headers that can not stand in an answer are left out, and
empty pieces of the body do not show. -/
namespace DocumentServer

/-- Why a body breaks off. -/
inductive BodyFault where
  /-- The frames end without a final one. -/
  | truncated
  /-- A second start frame comes. -/
  | startedTwice
  deriving DecidableEq, Repr

def BodyFault.text : BodyFault → String
  | truncated => "response ended without a final body frame"
  | startedTwice => "start frame sent twice"

structure Answer where
  status : Nat
  /-- Names in small letters with their values, in the order they were added. -/
  headers : List (Bytes × Bytes)
  /-- The pieces of the body, none of them empty. -/
  chunks : List Bytes
  /-- Why the body breaks off behind its pieces, if it does. -/
  fault : Option BodyFault
  deriving DecidableEq, Repr

namespace Answer

/-! ### Status and headers -/

/-- The code of an answer that could not be given. -/
def brokenStatus : Nat := 500

/-- The code that is sent for the code of a start frame. -/
def statusFor (code : Nat) : Nat := if 100 ≤ code ∧ code ≤ 999 then code else brokenStatus

/-- The marks that may stand in the name of a header. -/
def nameMarks : List Char :=
  ['!', '#', '$', '%', '&', '\'', '*', '+', '-', '.', '^', '_', '|', '~', '\x60']

def isNameByte (byte : UInt8) : Bool :=
  let c := Char.ofNat byte.toNat
  c.isAlphanum || nameMarks.contains c

def longestName : Nat := 65535

/-- A header's name in small letters, if it is one. -/
def headerName? (name : Bytes) : Option Bytes :=
  if name.isEmpty || longestName < name.length || !name.all isNameByte then none
  else some (name.map fun byte => (Char.ofNat byte.toNat).toLower.toNat.toUInt8)

def isValueByte (byte : UInt8) : Bool := byte == 9 || (32 ≤ byte && byte != 127)

def header? (header : Bytes × Bytes) : Option (Bytes × Bytes) :=
  match headerName? header.1 with
  | some name => if header.2.all isValueByte then some (name, header.2) else none
  | none => none

/-! ### Body -/

/-- The pieces of a body and why it breaks off. -/
abbrev Pieces := List Bytes × Option BodyFault

/-- A piece in front of others; an empty one does not show. -/
def addPiece (data : Bytes) (pieces : Pieces) : Pieces :=
  if data.isEmpty then pieces else (data :: pieces.1, pieces.2)

/-- The body that frames behind a start frame make up. Nothing behind the final frame is seen. -/
def pieces : List Frame → Pieces
  | [] => ([], some .truncated)
  | .start .. :: _ => ([], some .startedTwice)
  | .body data false :: _ => addPiece data ([], none)
  | .body data true :: rest => addPiece data (pieces rest)

/-! ### Answers -/

/-- The answer when frames do not begin with a start frame. -/
def broken : Answer := ⟨brokenStatus, [], [], none⟩

/-- The answer that a list of frames makes up. -/
def ofFrames : List Frame → Answer
  | .start status headers :: rest =>
    let (chunks, fault) := pieces rest
    ⟨statusFor status, headers.filterMap header?, chunks, fault⟩
  | _ => broken

def bare (status : Nat) : Answer := ⟨status, [], [], none⟩

def plain (status : Nat) (text : String) : Answer where
  status
  headers := [
    (.ofString "content-type", .ofString "text/plain; charset=utf-8"),
    (.ofString "content-length", .ofString (toString text.utf8ByteSize))]
  chunks := if text.isEmpty then [] else [.ofString text]
  fault := none

def withoutBody (answer : Answer) : Answer := { answer with chunks := [], fault := none }

def body (answer : Answer) : Bytes := answer.chunks.flatten

end Answer

end DocumentServer
