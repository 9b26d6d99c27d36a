import DocumentServer.Bytes
import DocumentServer.Text.Hexadecimal

/-! Percent encoding: a percent sign and two hexadecimal digits stand for a byte. Decoding leaves a
percent sign alone that no two digits follow. -/
namespace DocumentServer.Percent

def sign : UInt8 := 37

/-- The byte that a percent sign stands for before these bytes, if two digits follow. -/
def pairValue? : Bytes → Option UInt8
  | high :: low :: _ =>
    match Hexadecimal.value? high, Hexadecimal.value? low with
    | some a, some b => some (16 * a + b).toUInt8
    | _, _ => none
  | _ => none

def decode : Bytes → Bytes
  | [] => []
  | byte :: rest =>
    match if byte = sign then pairValue? rest else none with
    | some value => value :: decode (rest.drop 2)
    | none => byte :: decode rest
termination_by bytes => bytes.length
decreasing_by all_goals simp only [List.length_cons, List.length_drop]; omega

/-- Whether a byte is an ASCII letter or digit. -/
def isPlain (byte : UInt8) : Bool := (Char.ofNat byte.toNat).isAlphanum

/-- A byte in its encoded form: letters and digits stand for themselves. -/
def encodeByte (byte : UInt8) : List Char :=
  if isPlain byte then [Char.ofNat byte.toNat]
  else ['%', Hexadecimal.capitalDigit (byte.toNat / 16), Hexadecimal.capitalDigit byte.toNat]

/-- The encoded form of a text, which is that of its bytes. -/
def encode (text : String) : String := .ofList ((Bytes.ofString text).flatMap encodeByte)

end DocumentServer.Percent
