import DocumentServer.Document.Text
import DocumentServer.Proofs.Bytes
import Mathlib.Tactic.SplitIfs

/-! The text of a document stands on one line. Strings escape the line feed, and numbers, words and
brackets have none, so that a line feed behind each of several texts marks where they end. -/
namespace DocumentServer

/-- A text without line feeds. -/
def OneLine (chars : List Char) : Prop := '\n' ∉ chars

namespace OneLine

@[simp] theorem nil : OneLine [] := List.not_mem_nil

@[simp] theorem cons_iff {c : Char} {chars : List Char} :
    OneLine (c :: chars) ↔ c ≠ '\n' ∧ OneLine chars := by
  rw [OneLine, List.mem_cons, not_or, ne_comm]
  rfl

@[simp] theorem append_iff {chars chars' : List Char} :
    OneLine (chars ++ chars') ↔ OneLine chars ∧ OneLine chars' := by
  rw [OneLine, List.mem_append, not_or]
  rfl

theorem of_subset {chars chars' : List Char} (h : OneLine chars) (hsub : chars' ⊆ chars) :
    OneLine chars' := fun hmem => h (hsub hmem)

theorem flatMap {α : Type} {items : List α} {f : α → List Char} (h : ∀ item, OneLine (f item)) :
    OneLine (items.flatMap f) := by
  intro hmem
  obtain ⟨item, -, hmem⟩ := List.mem_flatMap.1 hmem
  exact h item hmem

theorem replicate {c : Char} (h : c ≠ '\n') (count : Nat) : OneLine (List.replicate count c) :=
  fun hmem => h (List.eq_of_mem_replicate hmem).symm

theorem toDigits (n : Nat) : OneLine (Nat.toDigits 10 n) := by
  intro hmem
  have hdigit : '\n'.isDigit := Nat.isDigit_of_mem_toDigits (by decide) (by decide) hmem
  exact absurd hdigit (by decide)

/-- The bytes of a text on one line have no line feed among them. -/
theorem ofChars {chars : List Char} (h : OneLine chars) : 10 ∉ Bytes.ofChars chars :=
  fun hmem => h (Bytes.mem_of_mem_ofChars (c := '\n') (by decide) hmem)

end OneLine

/-! ### Numbers -/

theorem Decimal.oneLine_positional (d : Decimal) : OneLine d.positional := by
  have hdigits : OneLine d.text := .toDigits _
  have hzeros (n : Nat) : OneLine (zeros n) := .replicate (by decide) n
  unfold positional
  dsimp only
  split_ifs
  · simp [hdigits, hzeros]
  · simp [hdigits, hzeros]
  · have htake : OneLine (d.text.take d.point.toNat) := hdigits.of_subset (List.take_subset _ _)
    have hdrop : OneLine (d.text.drop d.point.toNat) := hdigits.of_subset (List.drop_subset _ _)
    simp [htake, hdrop]

theorem Decimal.oneLine_scientific (d : Decimal) : OneLine d.scientific := by
  have hdigits : OneLine d.text := .toDigits _
  have hpower : OneLine (Nat.toDigits 10 (d.point - 1).natAbs) := .toDigits _
  have hsign : (if d.point - 1 < 0 then '-' else '+') ≠ '\n' := by split_ifs <;> decide
  unfold scientific
  dsimp only
  generalize (if d.point - 1 < 0 then '-' else '+') = sign at hsign ⊢
  split
  next first second rest htext =>
    rw [htext] at hdigits
    simp only [OneLine.cons_iff] at hdigits
    simp [hdigits, hpower, hsign]
  next => simp [hdigits, hpower, hsign]

theorem NumberLayout.oneLine_text (layout : NumberLayout) (x : Binary64) :
    OneLine (layout.text x).toList := by
  unfold text
  dsimp only
  rw [String.toList_ofList]
  have hpositional := x.shortest.oneLine_positional
  have hscientific := x.shortest.oneLine_scientific
  split_ifs <;> simp [hpositional, hscientific]

/-! ### Documents -/

namespace Document

theorem digit_ne_newline (n : Nat) : Hexadecimal.digit n ≠ '\n' := by
  have hall : ∀ m < 16, Nat.digitChar m ≠ '\n' := by decide
  exact hall _ (Nat.mod_lt n (by decide))

theorem oneLine_escape (c : Char) : OneLine (escape c) := by
  unfold escape
  split_ifs with _ _ _ _ hnewline
  all_goals simp [digit_ne_newline]
  exact hnewline

theorem oneLine_quote (text : String) : OneLine (quote text) := by
  simp [quote, OneLine.flatMap oneLine_escape]

theorem oneLine_integerText (value : Int) : OneLine (integerText value) := by
  unfold integerText
  split_ifs <;> simp [OneLine.toDigits]

theorem oneLine_scalarText (document : Document) : OneLine document.scalarText := by
  cases document with
  | null => simp [scalarText]
  | bool value => cases value <;> simp [scalarText]
  | integer value => exact oneLine_integerText value
  | real value => exact NumberLayout.oneLine_text _ value
  | string text => exact oneLine_quote text
  | array => exact .nil
  | object => exact .nil

mutual

theorem oneLine_chars (document : Document) : OneLine (chars document) := by
  match document with
  | .null => exact oneLine_scalarText .null
  | .bool value => exact oneLine_scalarText (.bool value)
  | .integer value => exact oneLine_scalarText (.integer value)
  | .real value => exact oneLine_scalarText (.real value)
  | .string text => exact oneLine_scalarText (.string text)
  | .array [] => simp [chars]
  | .array (item :: rest) => simp [chars, oneLine_chars item, oneLine_itemChars rest]
  | .object [] => simp [chars]
  | .object ((name, value) :: rest) =>
    simp [chars, oneLine_quote, oneLine_chars value, oneLine_memberChars rest]

theorem oneLine_itemChars (items : List Document) : OneLine (itemChars items) := by
  match items with
  | [] => simp [itemChars]
  | item :: rest => simp [itemChars, oneLine_chars item, oneLine_itemChars rest]

theorem oneLine_memberChars (members : List (String × Document)) :
    OneLine (memberChars members) := by
  match members with
  | [] => simp [memberChars]
  | (name, value) :: rest =>
    simp [memberChars, oneLine_quote, oneLine_chars value, oneLine_memberChars rest]

end

/-- The bytes of a document have no line feed among them. -/
theorem newline_not_mem_encode (document : Document) : 10 ∉ document.encode := by
  rw [encode, Bytes.ofString_eq, toList_text]
  exact (oneLine_chars document).ofChars

end Document

end DocumentServer
