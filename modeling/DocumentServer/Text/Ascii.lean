/-! Letter case within ASCII. Every other character stays as it is, in folding as in comparison. -/
namespace DocumentServer.Ascii

/-- Capital ASCII letters become small ones. -/
def lower (text : String) : String := text.map Char.toLower

/-- Small ASCII letters become capital ones. -/
def upper (text : String) : String := text.map Char.toUpper

/-- Two characters that are equal or the two cases of one ASCII letter. -/
def sameLetter (a b : Char) : Bool :=
  a = b || (a.isUpper && a.toNat + 32 = b.toNat) || (b.isUpper && b.toNat + 32 = a.toNat)

/-- Two character lists that differ in ASCII letter case at most. -/
def sameLetters : List Char → List Char → Bool
  | [], [] => true
  | a :: as, b :: bs => sameLetter a b && sameLetters as bs
  | _, _ => false

/-- Two texts that differ in ASCII letter case at most. -/
def sameName (a b : String) : Bool := sameLetters a.toList b.toList

end DocumentServer.Ascii
