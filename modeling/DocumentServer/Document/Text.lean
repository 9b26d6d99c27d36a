import DocumentServer.Document.Basic
import DocumentServer.Number.Layout
import DocumentServer.Bytes
import DocumentServer.Text.Hexadecimal

/-! The compact text of a document: no blanks, members in the order of the object, and escapes only
where a string needs them. `write` appends the text to what is already written, and
`toList_write` says that it appends nothing but the text. -/
namespace DocumentServer.Document

/-- A character as it stands in a string: a quote, a backslash and the control characters are
escaped. -/
def escape (c : Char) : List Char :=
  if c = '"' then ['\\', '"']
  else if c = '\\' then ['\\', '\\']
  else if c = '\x08' then ['\\', 'b']
  else if c = '\x0c' then ['\\', 'f']
  else if c = '\n' then ['\\', 'n']
  else if c = '\r' then ['\\', 'r']
  else if c = '\t' then ['\\', 't']
  else if c.toNat < 32 then
    ['\\', 'u', '0', '0', Hexadecimal.digit (c.toNat / 16), Hexadecimal.digit c.toNat]
  else [c]

def quote (text : String) : List Char := '"' :: (text.toList.flatMap escape ++ ['"'])

/-- The decimal digits of an integer behind its sign. -/
def integerText (value : Int) : List Char :=
  if value < 0 then '-' :: Nat.toDigits 10 value.natAbs else Nat.toDigits 10 value.natAbs

def scalarText : Document → List Char
  | .null => "null".toList
  | .bool true => "true".toList
  | .bool false => "false".toList
  | .integer value => integerText value
  | .real value => (NumberLayout.document.text value).toList
  | .string text => quote text
  | .array _ => []
  | .object _ => []

def append (out : String) (chars : List Char) : String := chars.foldl String.push out

mutual

def write (out : String) : Document → String
  | .array [] => append out ['[', ']']
  | .array (item :: rest) => writeItems (write (out.push '[') item) rest
  | .object [] => append out ['\x7b', '\x7d']
  | .object ((name, value) :: rest) =>
    writeMembers (write ((append (out.push '\x7b') (quote name)).push ':') value) rest
  | scalar => append out scalar.scalarText

/-- Appends the items behind the first one and closes the array. -/
def writeItems (out : String) : List Document → String
  | [] => out.push ']'
  | item :: rest => writeItems (write (out.push ',') item) rest

/-- Appends the members behind the first one and closes the object. -/
def writeMembers (out : String) : List (String × Document) → String
  | [] => out.push '\x7d'
  | (name, value) :: rest =>
    writeMembers (write ((append (out.push ',') (quote name)).push ':') value) rest

end

mutual

def chars : Document → List Char
  | .array [] => ['[', ']']
  | .array (item :: rest) => '[' :: (chars item ++ itemChars rest)
  | .object [] => ['\x7b', '\x7d']
  | .object ((name, value) :: rest) =>
    '\x7b' :: (quote name ++ ':' :: (chars value ++ memberChars rest))
  | scalar => scalar.scalarText

/-- The text of an array behind its first item. -/
def itemChars : List Document → List Char
  | [] => [']']
  | item :: rest => ',' :: (chars item ++ itemChars rest)

/-- The text of an object behind its first member. -/
def memberChars : List (String × Document) → List Char
  | [] => ['\x7d']
  | (name, value) :: rest =>
    ',' :: (quote name ++ ':' :: (chars value ++ memberChars rest))

end

def text (document : Document) : String := write "" document

/-- The UTF-8 bytes of a document's text. -/
def encode (document : Document) : Bytes := Bytes.ofString document.text

@[simp] theorem toList_append (out : String) (cs : List Char) :
    (append out cs).toList = out.toList ++ cs := by
  induction cs generalizing out with
  | nil => simp [append]
  | cons c rest ih =>
    rw [append, List.foldl_cons, ← append, ih]
    simp

mutual

theorem toList_write (out : String) (document : Document) :
    (write out document).toList = out.toList ++ chars document := by
  match document with
  | .null => simp [write, chars]
  | .bool _ => simp [write, chars]
  | .integer _ => simp [write, chars]
  | .real _ => simp [write, chars]
  | .string _ => simp [write, chars]
  | .array [] => simp [write, chars]
  | .array (item :: rest) =>
    rw [write, chars, toList_writeItems, toList_write]
    simp
  | .object [] => simp [write, chars]
  | .object ((name, value) :: rest) =>
    rw [write, chars, toList_writeMembers, toList_write]
    simp

theorem toList_writeItems (out : String) (items : List Document) :
    (writeItems out items).toList = out.toList ++ itemChars items := by
  match items with
  | [] => simp [writeItems, itemChars]
  | item :: rest =>
    rw [writeItems, itemChars, toList_writeItems, toList_write]
    simp

theorem toList_writeMembers (out : String) (members : List (String × Document)) :
    (writeMembers out members).toList = out.toList ++ memberChars members := by
  match members with
  | [] => simp [writeMembers, memberChars]
  | (name, value) :: rest =>
    rw [writeMembers, memberChars, toList_writeMembers, toList_write]
    simp

end

@[simp] theorem toList_text (document : Document) : document.text.toList = chars document := by
  simp [text, toList_write]

end DocumentServer.Document
