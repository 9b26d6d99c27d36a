import DocumentServer.Number.Binary64

/-! The values of a configuration text: strings, 64-bit integers, binary numbers, booleans, moments
of time, arrays and tables. A table lists its entries in the order of the text. -/
namespace DocumentServer.Toml

/-- A number with a fraction or an exponent, an infinity, or no number. -/
inductive Real where
  | finite (x : Binary64)
  | infinite (negative : Bool)
  | notANumber
  deriving DecidableEq, Repr

inductive Value where
  | string (text : String)
  | integer (value : Int)
  | real (value : Real)
  | boolean (value : Bool)
  /-- A date, a time or both, in its normal form. -/
  | moment (text : String)
  | array (items : List Value)
  | table (entries : List (String × Value))

instance : Inhabited Value := ⟨.table []⟩

/-- What was read with the rest of the text, if the text is well formed. -/
abbrev Reading (α : Type) := Option (α × List Char)

end DocumentServer.Toml
