import DocumentServer.KeyMap
import DocumentServer.Number.Binary64

/-! JSON documents. An object lists its members in ascending order of their names; `Canonical` says
so at every level, and `ofMembers` and `set` build objects that keep it. `Integral` documents are
those whose numbers are integers of 64 bits, and `depth` counts the levels of brackets. -/
namespace DocumentServer

inductive Document where
  | null
  | bool (value : Bool)
  | integer (value : Int)
  | real (value : Binary64)
  | string (text : String)
  | array (items : List Document)
  | object (members : List (String × Document))

namespace Document

instance : Inhabited Document := ⟨.null⟩

/-- The greatest integer that is written without an exponent. -/
def maxInteger : Int := 18446744073709551615

/-- The least integer that is written without an exponent. -/
def minInteger : Int := -9223372036854775808

/-- The greatest signed integer of 64 bits. -/
def maxSigned : Int := 9223372036854775807

def emptyObject : Document := .object []

/-- The members that a list describes, later ones in place of earlier ones. -/
def ofMembers (members : List (String × Document)) : Document :=
  .object (KeyMap.ofList members).entries

def member? (name : String) : Document → Option Document
  | .object members => members.lookup name
  | _ => none

mutual

/-- The levels of nested brackets. -/
def depth : Document → Nat
  | .array items => depthOfItems items + 1
  | .object members => depthOfMembers members + 1
  | _ => 0

def depthOfItems : List Document → Nat
  | [] => 0
  | item :: rest => max (depth item) (depthOfItems rest)

def depthOfMembers : List (String × Document) → Nat
  | [] => 0
  | (_, value) :: rest => max (depth value) (depthOfMembers rest)

end

/-- Objects list their members in ascending order, at every level. -/
inductive Canonical : Document → Prop
  | null : Canonical .null
  | bool (value : Bool) : Canonical (.bool value)
  | integer (value : Int) : Canonical (.integer value)
  | real (value : Binary64) : Canonical (.real value)
  | string (text : String) : Canonical (.string text)
  | array {items : List Document} : (∀ item ∈ items, Canonical item) → Canonical (.array items)
  | object {members : List (String × Document)} : Ascending members →
      (∀ entry ∈ members, Canonical entry.2) → Canonical (.object members)

/-- Every number is an integer of 64 bits, signed or not, at every level. -/
inductive Integral : Document → Prop
  | null : Integral .null
  | bool (value : Bool) : Integral (.bool value)
  | integer {value : Int} : minInteger ≤ value → value ≤ maxInteger → Integral (.integer value)
  | string (text : String) : Integral (.string text)
  | array {items : List Document} : (∀ item ∈ items, Integral item) → Integral (.array items)
  | object {members : List (String × Document)} :
      (∀ entry ∈ members, Integral entry.2) → Integral (.object members)

end Document

end DocumentServer
