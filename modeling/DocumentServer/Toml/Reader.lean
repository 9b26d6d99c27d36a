import DocumentServer.Toml.Assembly
import DocumentServer.Toml.Moment

/-! Reading a configuration text. Values and statements are read from the characters that are left;
loops carry fuel, of which the length of the text is enough, and nested values carry the levels of
brackets that are left. Only whether a text is well formed is told, not what is wrong with it. -/
namespace DocumentServer.Toml

/-- The levels of nested arrays and tables in values, and one more than the parts of a key. -/
def depthLimit : Nat := 79

/-! ### Characters -/

/-- A blank within a line. -/
def isBlank (c : Char) : Bool := c = ' ' || c = '\t'

/-- A character that may stand in a comment or a string: anything but controls, the tab excepted. -/
def isText (c : Char) : Bool := c = '\t' || (32 ≤ c.toNat && c.toNat ≠ 127)

/-- A character of a key without quotes. -/
def isBare (c : Char) : Bool := c.isAlphanum || c = '_' || c = '-'

/-- A character of a number, a date, a time or a word. -/
def isWordChar (c : Char) : Bool :=
  c.isAlphanum || c = '+' || c = '-' || c = '_' || c = '.' || c = ':'

def skipBlanks (input : List Char) : List Char := input.dropWhile isBlank

/-- The text behind the end of a line, which may be the end of the text. -/
def skipNewline : List Char → Option (List Char)
  | [] => some []
  | '\n' :: rest => some rest
  | '\r' :: '\n' :: rest => some rest
  | _ => none

/-- The text behind what may follow on a line: blanks, a comment and the end of the line. -/
def skipLineEnd (input : List Char) : Option (List Char) :=
  match skipBlanks input with
  | '#' :: rest => skipNewline (rest.dropWhile isText)
  | rest => skipNewline rest

/-- The text behind blanks, ends of lines and comments. -/
def skipSpace : Bool → List Char → List Char
  | _, [] => []
  | _, '\n' :: rest => skipSpace false rest
  | _, '\r' :: '\n' :: rest => skipSpace false rest
  | true, c :: rest => if isText c then skipSpace true rest else c :: rest
  | false, c :: rest =>
    if isBlank c then skipSpace false rest
    else if c = '#' then skipSpace true rest
    else c :: rest

/-! ### Strings -/

/-- The character with a code given in hexadecimal digits. -/
def charOfHex (digits : List Char) : Option Char :=
  match plainDigits 16 false digits with
  | none => none
  | some values =>
    let code := ofDigits 16 values
    if digits.contains '_' then none
    else if code.isValidChar then some (Char.ofNat code)
    else none

/-- Reads the code of an escape, which has a fixed count of digits. -/
def readCode (count : Nat) (input : List Char) : Reading Char :=
  if (input.take count).length = count then
    (charOfHex (input.take count)).map fun c => (c, input.drop count)
  else none

/-- Reads an escape behind its backslash. -/
def readEscape : List Char → Reading Char
  | 'b' :: rest => some ('\x08', rest)
  | 'f' :: rest => some ('\x0c', rest)
  | 'n' :: rest => some ('\n', rest)
  | 'r' :: rest => some ('\r', rest)
  | 't' :: rest => some ('\t', rest)
  | '"' :: rest => some ('"', rest)
  | '\\' :: rest => some ('\\', rest)
  | 'u' :: rest => readCode 4 rest
  | 'U' :: rest => readCode 8 rest
  | _ => none

/-- Reads the contents of a string in double quotes and the closing quote. `seen` holds the
characters before, the last one first. -/
def readBasic : Nat → List Char → List Char → Reading String
  | 0, _, _ => none
  | _ + 1, _, [] => none
  | fuel + 1, seen, c :: rest =>
    if c = '"' then some (String.ofList seen.reverse, rest)
    else if c = '\\' then
      match readEscape rest with
      | none => none
      | some (c, rest) => readBasic fuel (c :: seen) rest
    else if isText c then readBasic fuel (c :: seen) rest
    else none

/-- Reads the contents of a string in single quotes and the closing quote. -/
def readLiteral : List Char → List Char → Reading String
  | _, [] => none
  | seen, c :: rest =>
    if c = '\'' then some (String.ofList seen.reverse, rest)
    else if isText c then readLiteral (c :: seen) rest
    else none

/-- The text behind an end of line, if there is one. -/
def dropNewline : List Char → List Char
  | '\n' :: rest => rest
  | '\r' :: '\n' :: rest => rest
  | input => input

/-- The text behind blanks and ends of lines, when an end of line follows the blanks. -/
def skipContinuation (input : List Char) : Option (List Char) :=
  match skipBlanks input with
  | '\n' :: rest => some (skipRest rest)
  | '\r' :: '\n' :: rest => some (skipRest rest)
  | _ => none
where
  /-- The text behind further blanks and ends of lines. -/
  skipRest : List Char → List Char
    | '\n' :: rest => skipRest rest
    | '\r' :: '\n' :: rest => skipRest rest
    | c :: rest => if isBlank c then skipRest rest else c :: rest
    | [] => []

/-- What a run of quotes does in a string between triple quotes: one or two are contents; three or
more end the string, with up to two contents before. -/
def quoteRun (count : Nat) : Option Nat := if count < 3 then none else some (min (count - 3) 2)

/-- Reads the contents of a string between triple quotes and the closing quotes. The mark is the
kind of quote; only double quotes allow escapes. -/
def readLines (mark : Char) : Nat → List Char → List Char → Reading String
  | 0, _, _ => none
  | _ + 1, _, [] => none
  | fuel + 1, seen, '\r' :: '\n' :: rest => readLines mark fuel ('\n' :: seen) rest
  | fuel + 1, seen, c :: rest =>
    if c = mark then
      let count := ((c :: rest).takeWhile (· = mark)).length
      match quoteRun count with
      | none =>
        readLines mark fuel (List.replicate count mark ++ seen) ((c :: rest).drop count)
      | some extra =>
        some (String.ofList (List.replicate extra mark ++ seen).reverse,
          (c :: rest).drop (extra + 3))
    else if c = '\\' ∧ mark = '"' then
      match skipContinuation rest with
      | some rest => readLines mark fuel seen rest
      | none =>
        match readEscape rest with
        | none => none
        | some (c, rest) => readLines mark fuel (c :: seen) rest
    else if isText c ∨ c = '\n' then readLines mark fuel (c :: seen) rest
    else none

/-! ### Keys -/

def readKeyPart (fuel : Nat) : List Char → Reading String
  | '"' :: rest => readBasic fuel [] rest
  | '\'' :: rest => readLiteral [] rest
  | input =>
    let (name, rest) := input.span isBare
    if name.isEmpty then none else some (String.ofList name, rest)

/-- Reads the parts of a key behind those in `seen`, with blanks around each. -/
def readKeyParts (fuel : Nat) : Nat → List String → List Char → Reading (List String)
  | 0, _, _ => none
  | count + 1, seen, input =>
    match readKeyPart fuel (skipBlanks input) with
    | none => none
    | some (part, rest) =>
      match skipBlanks rest with
      | '.' :: rest => readKeyParts fuel count (part :: seen) rest
      | rest => some ((part :: seen).reverse, rest)

def readKey (fuel : Nat) (input : List Char) : Reading (List String) :=
  readKeyParts fuel depthLimit [] input

/-! ### Values -/

def scalar? (word : List Char) : Option Value :=
  if word = ['t', 'r', 'u', 'e'] then some (.boolean true)
  else if word = ['f', 'a', 'l', 's', 'e'] then some (.boolean false)
  else
    match moment? word with
    | some moment => some (.moment (String.ofList moment))
    | none =>
      match real? word with
      | some x => some (.real x)
      | none => (integer? word).map .integer

/-- Reads a word and gives its value. A date may have its time behind a blank. -/
def readScalar (input : List Char) : Reading Value :=
  let (word, rest) := input.span isWordChar
  match isDate word, rest with
  | true, ' ' :: after =>
    let (time, behind) := after.span isWordChar
    match timeAndOffset? time with
    | some time =>
      (readDate word).map fun date =>
        (.moment (String.ofList (date.1 ++ 'T' :: time)), behind)
    | none => (scalar? word).map fun value => (value, rest)
  | _, _ => (scalar? word).map fun value => (value, rest)

/-- Reads the items of an array behind those in `seen`, and the closing bracket. -/
def readItems (readValue : List Char → Reading Value) :
    Nat → List Value → List Char → Reading Value
  | 0, _, _ => none
  | fuel + 1, seen, input =>
    match skipSpace false input with
    | ']' :: rest => some (.array seen.reverse, rest)
    | input =>
      match readValue input with
      | none => none
      | some (value, rest) =>
        match skipSpace false rest with
        | ',' :: rest => readItems readValue fuel (value :: seen) rest
        | ']' :: rest => some (.array (value :: seen).reverse, rest)
        | _ => none

def readPair (readValue : List Char → Reading Value) (fuel : Nat) (input : List Char) :
    Reading (List String × Value) :=
  match readKey fuel input with
  | some (path, '=' :: rest) =>
    (readValue (skipBlanks rest)).map fun (value, rest) => ((path, value), rest)
  | _ => none

/-- Reads the entries of a table in braces behind those in `seen`, and the closing brace. -/
def readPairs (readValue : List Char → Reading Value) (fuel : Nat) :
    Nat → List (List String × Value) → List Char → Reading (List (List String × Value))
  | 0, _, _ => none
  | count + 1, seen, input =>
    match readPair readValue fuel input with
    | none => none
    | some (pair, rest) =>
      match skipBlanks rest with
      | ',' :: rest => readPairs readValue fuel count (pair :: seen) rest
      | '\x7d' :: rest => some ((pair :: seen).reverse, rest)
      | _ => none

def readBraces (readValue : List Char → Reading Value) (fuel : Nat) (input : List Char) :
    Reading Value :=
  match skipBlanks input with
  | '\x7d' :: rest => some (.table [], rest)
  | input =>
    match readPairs readValue fuel fuel [] input with
    | none => none
    | some (pairs, rest) =>
      (Table.ofPairs pairs).map fun table => (.table (entryValues table.entries), rest)

/-- Reads a value whose items and entries are read by `nested`; without one, brackets nest too deep.
-/
def readWith (fuel : Nat) (nested : Option (List Char → Reading Value)) :
    List Char → Reading Value
  | '"' :: '"' :: '"' :: rest => (readLines '"' fuel [] (dropNewline rest)).map (·.map .string id)
  | '"' :: rest => (readBasic fuel [] rest).map (·.map .string id)
  | '\'' :: '\'' :: '\'' :: rest =>
    (readLines '\'' fuel [] (dropNewline rest)).map (·.map .string id)
  | '\'' :: rest => (readLiteral [] rest).map (·.map .string id)
  | '[' :: rest => nested.bind fun readValue => readItems readValue fuel [] rest
  | '\x7b' :: rest => nested.bind fun readValue => readBraces readValue fuel rest
  | input => readScalar input

/-- Reads a value with room for the given levels of brackets. -/
def readValue (fuel : Nat) : Nat → List Char → Reading Value
  | 0 => readWith fuel none
  | room + 1 => readWith fuel (some (readValue fuel room))

/-! ### Texts -/

/-- Reads the line of a header behind its opening brackets, `closing` being its closing ones. -/
def readHeader (fuel : Nat) (closing : List Char) (input : List Char) : Reading (List String) :=
  match readKey fuel input with
  | none => none
  | some (path, rest) =>
    if closing.isPrefixOf rest then
      (skipLineEnd (rest.drop closing.length)).map fun rest => (path, rest)
    else none

def readEntry (fuel : Nat) (input : List Char) : Reading Statement :=
  match readPair (readValue fuel depthLimit) fuel input with
  | none => none
  | some ((path, value), rest) =>
    (skipLineEnd rest).map fun rest => (.assign path value, rest)

/-- Reads the line of a header or of an entry. -/
def readStatement (fuel : Nat) : List Char → Reading Statement
  | '[' :: '[' :: rest => (readHeader fuel [']', ']'] rest).map (·.map .itemHeader id)
  | '[' :: rest => (readHeader fuel [']'] rest).map (·.map .header id)
  | input => readEntry fuel input

/-- Reads statements behind those in `seen`, up to the end of the text. -/
def readStatements (fuel : Nat) : Nat → List Statement → List Char → Option (List Statement)
  | 0, _, _ => none
  | count + 1, seen, input =>
    match skipSpace false input with
    | [] => some seen.reverse
    | input =>
      match readStatement fuel input with
      | none => none
      | some (statement, rest) => readStatements fuel count (statement :: seen) rest

/-- The text behind a byte order mark. -/
def skipMark : List Char → List Char
  | '\ufeff' :: rest => rest
  | input => input

/-- The entries of a configuration text, if it is well formed. -/
def parse (text : String) : Option (List (String × Value)) :=
  let input := skipMark text.toList
  let fuel := input.length + 1
  (readStatements fuel fuel [] input).bind Assembly.ofStatements

end DocumentServer.Toml
