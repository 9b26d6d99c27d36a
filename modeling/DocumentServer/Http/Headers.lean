import DocumentServer.Text.Ascii
import DocumentServer.Bytes

/-! Header lists. Names are looked up without regard to ASCII letter case but keep the letters they
were given; a name may occur more than once. -/
namespace DocumentServer

structure Header where
  name : String
  value : String
  deriving DecidableEq, Repr

structure Headers where
  entries : List Header
  deriving DecidableEq, Repr

namespace Headers

def empty : Headers := ⟨[]⟩

instance : EmptyCollection Headers := ⟨empty⟩

instance : Inhabited Headers := ⟨empty⟩

/-- Adds a header behind the others. -/
def append (headers : Headers) (name value : String) : Headers :=
  ⟨headers.entries ++ [⟨name, value⟩]⟩

def erase (headers : Headers) (name : String) : Headers :=
  ⟨headers.entries.filter (!Ascii.sameName ·.name name)⟩

/-- Gives a name one value in place of those it had. -/
def insert (headers : Headers) (name value : String) : Headers :=
  (headers.erase name).append name value

def getAll (headers : Headers) (name : String) : List String :=
  (headers.entries.filter (Ascii.sameName ·.name name)).map (·.value)

def get? (headers : Headers) (name : String) : Option String :=
  (headers.entries.find? (Ascii.sameName ·.name name)).map (·.value)

def contains (headers : Headers) (name : String) : Bool :=
  headers.entries.any (Ascii.sameName ·.name name)

/-- Adds a header unless its name occurs already. -/
def setDefault (headers : Headers) (name value : String) : Headers :=
  if headers.contains name then headers else headers.append name value

/-- The value in effect for a name once a default is added. -/
def valueOrDefault (headers : Headers) (name value : String) : String :=
  (headers.get? name).getD value

def size (headers : Headers) : Nat := headers.entries.length

/-- The headers that a list of pairs describes, later ones in place of earlier ones. -/
def ofList (pairs : List (String × String)) : Headers :=
  pairs.foldl (fun headers pair => headers.insert pair.1 pair.2) empty

/-- The headers that a list of headers describes, later ones in place of earlier ones. -/
def ofHeaders (given : List Header) : Headers :=
  given.foldl (fun headers header => headers.insert header.name header.value) empty

/-- The headers as a start frame carries them: names in small letters, everything in bytes. -/
def wire (headers : Headers) : List (Bytes × Bytes) :=
  headers.entries.map fun h => (Bytes.ofString (Ascii.lower h.name), Bytes.ofString h.value)

inductive Edit where
  | insert (name value : String)
  | append (name value : String)
  | setDefault (name value : String)
  | erase (name : String)
  deriving DecidableEq, Repr

def edit (headers : Headers) : Edit → Headers
  | .insert name value => headers.insert name value
  | .append name value => headers.append name value
  | .setDefault name value => headers.setDefault name value
  | .erase name => headers.erase name

end Headers

end DocumentServer
