/-! Byte strings, and the UTF-8 texts among them. `text?_ofString` says that the bytes of a text
read back as that text. -/
namespace DocumentServer

abbrev Bytes := List UInt8

namespace Bytes

/-- The UTF-8 bytes of a text. -/
def ofString (text : String) : Bytes := text.toByteArray.data.toList

/-- The text that these bytes encode, if they are UTF-8. -/
def text? (bytes : Bytes) : Option String := String.fromUTF8? ⟨bytes.toArray⟩

/-- The character that the bytes begin with, if they begin with one. -/
def firstChar? (bytes : Bytes) : Option Char := ByteArray.utf8DecodeChar? ⟨(bytes.take 4).toArray⟩ 0

/-- How many bytes precede the first one that begins no character, looking at no more than
`fuel` characters. -/
def validLengthFrom : Nat → Nat → Bytes → Nat
  | 0, seen, _ => seen
  | _ + 1, seen, [] => seen
  | fuel + 1, seen, bytes =>
    match firstChar? bytes with
    | none => seen
    | some c => validLengthFrom fuel (seen + c.utf8Size) (bytes.drop c.utf8Size)

/-- The length of the longest beginning that is UTF-8 up to the first byte that begins no
character. -/
def validLength (bytes : Bytes) : Nat := validLengthFrom bytes.length 0 bytes

def splitOn (mark : UInt8) : Bytes → List Bytes
  | [] => [[]]
  | byte :: rest =>
    if byte = mark then [] :: splitOn mark rest
    else
      match splitOn mark rest with
      | [] => [[byte]]
      | part :: parts => (byte :: part) :: parts

@[simp] theorem text?_ofString (text : String) : text? (ofString text) = some text := by
  have valid : ByteArray.IsValidUTF8 ⟨text.toByteArray.data.toList.toArray⟩ := text.isValidUTF8
  simp only [text?, ofString, String.fromUTF8?, valid, ↓reduceDIte, Option.some.injEq]
  rfl

end Bytes

end DocumentServer
