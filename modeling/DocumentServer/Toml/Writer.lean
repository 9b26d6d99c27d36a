import DocumentServer.Number.Layout
import DocumentServer.Toml.Value
import DocumentServer.Text.Hexadecimal

/-! Writing a table as a configuration text. Plain values of a table come first, each on a line;
tables in it follow under headers of their own, and so do arrays of tables. A header is left out
when it would stand over nothing but other headers. Arrays of two or more items take a line for
each. -/
namespace DocumentServer.Toml

/-! ### Strings and keys -/

/-- The longest run of a character. -/
def longestRun (mark : Char) (text : List Char) : Nat :=
  (text.foldl (fun (longest, current) c =>
    let current := if c = mark then current + 1 else 0
    (max longest current, current)) (0, 0)).1

def needsCode (c : Char) : Bool := (c.toNat < 32 && c ≠ '\t' && c ≠ '\n') || c.toNat = 127

/-- The ways to write a string. -/
inductive Quoting where
  | basic
  | literal
  /-- Between three double quotes. -/
  | basicLines
  /-- Between three single quotes. -/
  | literalLines
  deriving DecidableEq, Repr

namespace Quoting

/-- The first way that needs no escapes, and one with escapes if there is none. -/
def ofText (text : List Char) : Quoting :=
  let codes := text.any needsCode
  let newline := text.contains '\n'
  let backslash := text.contains '\\'
  if !codes && !backslash && !newline && longestRun '"' text = 0 then .basic
  else if !codes && !newline && longestRun '\'' text = 0 then .literal
  else if !codes && !backslash && longestRun '"' text ≤ 2 then .basicLines
  else if !codes && longestRun '\'' text ≤ 2 then .literalLines
  else if newline then .basicLines
  else .basic

/-- The first way that needs no escapes for a key, or double quotes. -/
def ofKey (text : List Char) : Quoting :=
  let codes := text.any fun c => c.toNat < 32 || c.toNat = 127
  if !codes && !text.contains '\\' && !text.contains '"' then .basic
  else if !codes && !text.contains '\'' then .literal
  else .basic

def quotes : Quoting → List Char
  | basic => ['"']
  | literal => ['\'']
  | basicLines => ['"', '"', '"']
  | literalLines => ['\'', '\'', '\'']

end Quoting

/-- An escape by the number of a character below 256. -/
def codeEscape (c : Char) : List Char :=
  ['\\', 'u', '0', '0', Hexadecimal.capitalDigit (c.toNat / 16),
    Hexadecimal.capitalDigit c.toNat]

/-- A character other than a quote in a string with escapes. -/
def escapedChar (lines : Bool) (c : Char) : List Char :=
  if c = '\x08' then ['\\', 'b']
  else if c = '\t' then ['\\', 't']
  else if c = '\n' then if lines then ['\n'] else ['\\', 'n']
  else if c = '\x0c' then ['\\', 'f']
  else if c = '\r' then ['\\', 'r']
  else if c = '\\' then ['\\', '\\']
  else if c.toNat < 32 ∨ c.toNat = 127 then codeEscape c
  else [c]

/-- The contents of a string in double quotes. A quote is escaped when more than `allowed` would
stand in a row; `run` counts those that do. -/
def escapedText (lines : Bool) (allowed : Nat) : Nat → List Char → List Char
  | _, [] => []
  | run, c :: rest =>
    if c = '"' then
      if run < allowed then c :: escapedText lines allowed (run + 1) rest
      else '\\' :: '"' :: escapedText lines allowed 0 rest
    else escapedChar lines c ++ escapedText lines allowed 0 rest

/-- A string in the given quotes. A string of several lines begins on a line of its own. -/
def quotedText (quoting : Quoting) (text : List Char) : List Char :=
  let contents :=
    match quoting with
    | .basic => escapedText false 0 0 text
    | .literal => text
    | .basicLines => escapedText true 2 0 text
    | .literalLines => text
  let lead :=
    if (quoting = .basicLines || quoting = .literalLines) && text.contains '\n' then ['\n'] else []
  quoting.quotes ++ lead ++ contents ++ quoting.quotes

def stringText (text : String) : List Char := quotedText (.ofText text.toList) text.toList

/-- One part of a key, in quotes unless it is a word. -/
def keyText (key : String) : List Char :=
  let chars := key.toList
  if !chars.isEmpty && chars.all (fun c => c.isAlphanum || c = '_' || c = '-') then chars
  else quotedText (.ofKey chars) chars

def pathText (path : List String) : List Char := ['.'].intercalate (path.map keyText)

/-! ### Values -/

def realText : Real → List Char
  | .finite x => (NumberLayout.configuration.text x).toList
  | .infinite negative => if negative then ['-', 'i', 'n', 'f'] else ['i', 'n', 'f']
  | .notANumber => ['n', 'a', 'n']

def integerText (n : Int) : List Char :=
  if n < 0 then '-' :: Nat.toDigits 10 n.natAbs else Nat.toDigits 10 n.natAbs

mutual

/-- A value as it stands behind its key. -/
def valueText : Value → List Char
  | .string text => stringText text
  | .integer n => integerText n
  | .real x => realText x
  | .boolean true => ['t', 'r', 'u', 'e']
  | .boolean false => ['f', 'a', 'l', 's', 'e']
  | .moment text => text.toList
  | .array [] => ['[', ']']
  | .array [item] => '[' :: (valueText item ++ [']'])
  | .array (item :: items) =>
    '[' :: (['\n', ' ', ' ', ' ', ' '] ++ valueText item ++ ',' :: itemLines items)
  | .table [] => ['\x7b', '\x7d']
  | .table ((key, value) :: rest) =>
    '\x7b' :: ' ' :: (keyText key ++ [' ', '=', ' '] ++ valueText value ++ pairsText rest)

/-- The items of an array behind the first one, each on a line, and the closing bracket. -/
def itemLines : List Value → List Char
  | [] => ['\n', ']']
  | item :: rest => ['\n', ' ', ' ', ' ', ' '] ++ valueText item ++ ',' :: itemLines rest

/-- The entries of a table in braces behind the first one, and the closing brace. -/
def pairsText : List (String × Value) → List Char
  | [] => [' ', '\x7d']
  | (key, value) :: rest =>
    ',' :: ' ' :: (keyText key ++ [' ', '=', ' '] ++ valueText value ++ pairsText rest)

end

/-! ### Tables -/

def Value.isTable : Value → Bool
  | .table _ => true
  | _ => false

def Value.hasHeader : Value → Bool
  | .table _ => true
  | .array items => !items.isEmpty && items.all Value.isTable
  | _ => false

/-- The entries that stand on lines below the header of their table. -/
def plainEntries (entries : List (String × Value)) : List (String × Value) :=
  entries.filter (!·.2.hasHeader)

def entryLines (entries : List (String × Value)) : List Char :=
  entries.flatMap fun entry =>
    keyText entry.1 ++ [' ', '=', ' '] ++ valueText entry.2 ++ ['\n']

/-- The header of a table, in double brackets when it is an item of an array. -/
def headerLine (isItem : Bool) (path : List String) : List Char :=
  if isItem then '[' :: '[' :: (pathText path ++ [']', ']', '\n'])
  else '[' :: (pathText path ++ [']', '\n'])

/-- The header of a table with its lines, unless nothing but other headers would follow. -/
def ownSection (isItem : Bool) (path : List String) (entries : List (String × Value)) :
    List (List Char) :=
  let plain := plainEntries entries
  if isItem || !plain.isEmpty || entries.isEmpty then
    [headerLine isItem path ++ entryLines plain]
  else []

mutual

/-- The sections of a value under its path: that of a table and those of the tables in it. -/
def sections (isItem : Bool) (path : List String) : Value → List (List Char)
  | .table entries => ownSection isItem path entries ++ entrySections path entries
  | .array items => if items.all Value.isTable then itemSections path items else []
  | _ => []

def entrySections (path : List String) : List (String × Value) → List (List Char)
  | [] => []
  | (key, value) :: rest => sections false (path ++ [key]) value ++ entrySections path rest

def itemSections (path : List String) : List Value → List (List Char)
  | [] => []
  | item :: rest => sections true path item ++ itemSections path rest

end

/-- The text of a table, with an empty line between its sections. -/
def write (entries : List (String × Value)) : String :=
  let plain := entryLines (plainEntries entries)
  let parts := entrySections [] entries
  String.ofList (['\n'].intercalate (if plain.isEmpty then parts else plain :: parts))

end DocumentServer.Toml
