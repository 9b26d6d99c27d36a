import DocumentServer.Bytes
import DocumentServer.Text.Ascii

/-! What a request says about keeping its connection. Only the first header of that name counts, and
of its tokens the first that is one of the two known ones. -/
namespace DocumentServer.Connection

/-- The text of a header's value, if it consists of visible ASCII characters, blanks and tabs. -/
def visibleText? (value : Bytes) : Option String :=
  if value.all fun byte => byte == 9 || (32 ≤ byte && byte < 127) then value.text? else none

/-- Whether a header has a name, in any letter case. -/
def named (name : String) (header : Bytes × Bytes) : Bool :=
  header.1.text?.any (Ascii.sameName · name)

/-- What a token says about keeping the connection. -/
def tokenPreference? (token : String) : Option Bool :=
  if Ascii.sameName token "close" then some false
  else if Ascii.sameName token "keep-alive" then some true
  else none

/-- Whether the connection is to be kept, if the headers of a request say. -/
def preference? (headers : List (Bytes × Bytes)) : Option Bool :=
  match headers.find? (named "connection") with
  | none => none
  | some header =>
    (visibleText? header.2).bind fun text =>
      (text.splitOn ",").findSome? fun token => tokenPreference? token.trimAscii.toString

end DocumentServer.Connection
