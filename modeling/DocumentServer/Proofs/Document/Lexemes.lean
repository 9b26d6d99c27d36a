import DocumentServer.Document.Reader
import DocumentServer.Document.Text
import DocumentServer.Proofs.Bytes
import Mathlib.Tactic.SplitIfs

/-! Strings and integers read back from their texts. A string's bytes are read one at a time; an
escape is read as the character that it was written for, and the bytes of any other character stand
for themselves. An integer's digits are read up to a byte that can not go on with a number. -/
namespace DocumentServer.Document

open Bytes (ofChars ofChars_cons ofChars_cons_ascii utf8EncodeChar_ascii toNat_ofNat_ascii)

/-! ### Strings -/

def Literal (b : UInt8) : Prop := b ≠ 34 ∧ b ≠ 92 ∧ ¬ b < 32

theorem readContents_literals {bytes : Bytes} (h : ∀ b ∈ bytes, Literal b) (fuel : Nat)
    (seen rest : Bytes) :
    readContents (fuel + bytes.length) seen (bytes ++ rest) =
      readContents fuel (bytes.reverse ++ seen) rest := by
  induction bytes generalizing seen with
  | nil => rfl
  | cons b bytes ih =>
    obtain ⟨⟨hquote, hslash, hcontrol⟩, hbytes⟩ := List.forall_mem_cons.1 h
    rw [List.length_cons, ← Nat.add_assoc, List.cons_append, readContents, if_neg hquote,
      if_neg hslash, if_neg hcontrol, ih hbytes]
    simp

/-- A control character that is written by its number is read as itself. -/
theorem readEscape_numbered {n : Nat} (h : n < 32) (rest : Bytes) :
    readEscape
        (ofChars ['u', '0', '0', Hexadecimal.digit (n / 16), Hexadecimal.digit n] ++ rest) =
      .ok (Char.ofNat n, rest) := by
  let high := UInt8.ofNat (Hexadecimal.digit (n / 16)).toNat
  let low := UInt8.ofNat (Hexadecimal.digit n).toNat
  have hbytes : ofChars ['u', '0', '0', Hexadecimal.digit (n / 16), Hexadecimal.digit n] =
      [117, 48, 48, high, low] := by
    have all : ∀ n < 32,
        ofChars ['u', '0', '0', Hexadecimal.digit (n / 16), Hexadecimal.digit n] =
          [117, 48, 48, UInt8.ofNat (Hexadecimal.digit (n / 16)).toNat,
            UInt8.ofNat (Hexadecimal.digit n).toNat] := by decide
    exact all n h
  have hdigits : [48, 48, high, low].mapM Hexadecimal.value? = some [0, 0, n / 16, n % 16] := by
    have all : ∀ n < 32,
        [48, 48, UInt8.ofNat (Hexadecimal.digit (n / 16)).toNat,
            UInt8.ofNat (Hexadecimal.digit n).toNat].mapM Hexadecimal.value? =
          some [0, 0, n / 16, n % 16] := by decide
    exact all n h
  have hvalue : ((0 * 16 + 0) * 16 + n / 16) * 16 + n % 16 = n := by omega
  rw [hbytes]
  simp only [List.cons_append, List.nil_append, readEscape, readNumbered, readHex, hdigits,
    List.foldl_cons, List.foldl_nil, ↓reduceIte, hvalue]
  rw [if_neg (by omega), if_neg (by omega)]

/-- A character is written as it is, or as an escape that is read as it. -/
theorem escape_cases (c : Char) :
    (escape c = [c] ∧ c ≠ '"' ∧ c ≠ '\\' ∧ 32 ≤ c.toNat) ∨
      ∃ tail, escape c = '\\' :: tail ∧
        ∀ rest, readEscape (ofChars tail ++ rest) = .ok (c, rest) := by
  unfold escape
  split_ifs with hquote hslash hb hf hn hr ht hcontrol
  · exact .inr ⟨_, rfl, fun rest => by subst hquote; rfl⟩
  · exact .inr ⟨_, rfl, fun rest => by subst hslash; rfl⟩
  · exact .inr ⟨_, rfl, fun rest => by subst hb; rfl⟩
  · exact .inr ⟨_, rfl, fun rest => by subst hf; rfl⟩
  · exact .inr ⟨_, rfl, fun rest => by subst hn; rfl⟩
  · exact .inr ⟨_, rfl, fun rest => by subst hr; rfl⟩
  · exact .inr ⟨_, rfl, fun rest => by subst ht; rfl⟩
  · refine .inr ⟨_, rfl, fun rest => ?_⟩
    rw [readEscape_numbered hcontrol, Char.ofNat_toNat]
  · exact .inl ⟨rfl, hquote, hslash, Nat.not_lt.1 hcontrol⟩

theorem literal_of_mem {c : Char} (hquote : c ≠ '"') (hslash : c ≠ '\\') (hcontrol : 32 ≤ c.toNat)
    {b : UInt8} (member : b ∈ String.utf8EncodeChar c) : Literal b := by
  have other (d : Char) (hne : c ≠ d) : c.toNat ≠ d.toNat := fun h => hne (Char.toNat_inj.1 h)
  have hquote := other _ hquote
  have hslash := other _ hslash
  have hb : b.toNat ≠ 34 ∧ b.toNat ≠ 92 ∧ 32 ≤ b.toNat := by
    by_cases hascii : c.toNat < 128
    · rw [utf8EncodeChar_ascii hascii, List.mem_singleton] at member
      rw [member, toNat_ofNat_ascii hascii]
      exact ⟨hquote, hslash, hcontrol⟩
    · have := Bytes.le_of_mem_utf8EncodeChar (Nat.not_lt.1 hascii) member
      omega
  refine ⟨?_, ?_, ?_⟩
  · rintro rfl
    exact hb.1 rfl
  · rintro rfl
    exact hb.2.1 rfl
  · rw [UInt8.lt_iff_toNat_lt]
    exact Nat.not_lt.2 hb.2.2

theorem readContents_escape (c : Char) (fuel : Nat) (seen rest : Bytes)
    (hfuel : (ofChars (escape c)).length ≤ fuel) :
    ∃ left, fuel ≤ left + (ofChars (escape c)).length ∧
      readContents fuel seen (ofChars (escape c) ++ rest) =
        readContents left ((String.utf8EncodeChar c).reverse ++ seen) rest := by
  rcases escape_cases c with ⟨hself, hquote, hslash, hcontrol⟩ | ⟨tail, hescape, hread⟩
  · have hbytes : ofChars (escape c) = String.utf8EncodeChar c := by
      rw [hself, ofChars_cons, Bytes.ofChars_nil, List.append_nil]
    rw [hbytes] at hfuel ⊢
    obtain ⟨left, rfl⟩ := Nat.exists_eq_add_of_le' hfuel
    refine ⟨left, Nat.le_refl _, ?_⟩
    exact readContents_literals (fun b => literal_of_mem hquote hslash hcontrol) left seen rest
  · rw [hescape, ofChars_cons_ascii (by decide)] at hfuel ⊢
    obtain ⟨left, rfl⟩ := Nat.exists_eq_add_of_le' hfuel
    refine ⟨left + (ofChars tail).length, by simp, ?_⟩
    rw [List.length_cons, ← Nat.add_assoc, List.cons_append]
    simp only [readContents, hread]
    rfl

/-- The escaped characters of a string read as its bytes, up to the closing quote. -/
theorem readContents_chars (chars : List Char) (fuel : Nat) (seen rest : Bytes)
    (hfuel : (ofChars (chars.flatMap escape)).length < fuel) :
    readContents fuel seen (ofChars (chars.flatMap escape) ++ 34 :: rest) =
      .ok (seen.reverse ++ ofChars chars, rest) := by
  induction chars generalizing fuel seen with
  | nil =>
    obtain ⟨left, rfl⟩ := Nat.exists_eq_add_of_lt hfuel
    simp [readContents]
  | cons c chars ih =>
    rw [List.flatMap_cons, Bytes.ofChars_append, List.length_append] at hfuel
    rw [List.flatMap_cons, Bytes.ofChars_append, List.append_assoc]
    obtain ⟨left, hleft, hread⟩ := readContents_escape c fuel seen
      (ofChars (chars.flatMap escape) ++ 34 :: rest) (by omega)
    rw [hread, ih left _ (by omega), ofChars_cons]
    simp

theorem ofChars_quote (text : String) :
    ofChars (quote text) = 34 :: (ofChars (text.toList.flatMap escape) ++ [34]) := by
  rw [quote, ofChars_cons_ascii (by decide), Bytes.ofChars_append,
    ofChars_cons_ascii (by decide), Bytes.ofChars_nil]
  rfl

/-- The contents of a quoted text read as that text. -/
theorem readString_contents (text : String) (fuel : Nat) (rest : Bytes)
    (hfuel : (ofChars (text.toList.flatMap escape)).length < fuel) :
    readString fuel (ofChars (text.toList.flatMap escape) ++ 34 :: rest) = .ok (text, rest) := by
  have hread := readContents_chars text.toList fuel [] rest hfuel
  rw [List.reverse_nil, List.nil_append, ← Bytes.ofString_eq] at hread
  simp only [readString, hread, Bytes.text?_ofString]

/-! ### Integers -/

/-- The bytes can not go on with a number. -/
def EndsNumber (rest : Bytes) : Prop :=
  ∀ b ∈ rest.head?, isDigit b = false ∧ b ≠ 46 ∧ b ≠ 101 ∧ b ≠ 69

theorem EndsNumber.digitNext {rest : Bytes} (h : EndsNumber rest) : digitNext rest = false := by
  cases rest with
  | nil => rfl
  | cons b rest => exact (h b rfl).1

theorem EndsNumber.readAfterInteger {rest : Bytes} (h : EndsNumber rest) (negative : Bool)
    (significand : Nat) :
    Document.readAfterInteger negative significand rest =
      .ok (integerOf negative significand, rest) := by
  cases rest with
  | nil => rfl
  | cons b rest =>
    obtain ⟨-, hpoint, hsmall, hcapital⟩ := h b rfl
    simp [Document.readAfterInteger, hpoint, hsmall, hcapital]

theorem digit_byte {c : Char} (h : c.isDigit) :
    c.toNat < 128 ∧ isDigit (UInt8.ofNat c.toNat) = true ∧
      digitValue (UInt8.ofNat c.toNat) = c.toNat - 48 := by
  obtain ⟨hlow, hhigh⟩ : 48 ≤ c.toNat ∧ c.toNat ≤ 57 := by
    simpa [Char.isDigit, UInt32.le_iff_toNat_le] using h
  have hascii : c.toNat < 128 := by omega
  have hbyte := toNat_ofNat_ascii hascii
  refine ⟨hascii, ?_, ?_⟩
  · simp only [isDigit, UInt8.le_iff_toNat_le, hbyte, Bool.and_eq_true, decide_eq_true_eq]
    exact ⟨hlow, hhigh⟩
  · rw [digitValue, hbyte]

theorem le_ofDigitChars (digits : List Char) (number : Nat) :
    number ≤ Nat.ofDigitChars 10 digits number := by
  induction digits generalizing number with
  | nil => exact Nat.le_refl _
  | cons c digits ih =>
    rw [Nat.ofDigitChars_cons]
    exact Nat.le_trans (by omega) (ih _)

/-- Digits are read as the number that they stand for, when it stays within the limit. -/
theorem readDigits_chars {digits : List Char} (h : ∀ c ∈ digits, c.isDigit) {limit : Nat}
    (number count : Nat) {rest : Bytes} (hrest : EndsNumber rest)
    (hlimit : Nat.ofDigitChars 10 digits number ≤ limit) :
    readDigits limit number count (ofChars digits ++ rest) =
      (Nat.ofDigitChars 10 digits number, count + digits.length, rest) := by
  induction digits generalizing number count with
  | nil =>
    cases rest with
    | nil => rfl
    | cons b rest =>
      have hother : isDigit b = false := hrest.digitNext
      simp [readDigits, hother]
  | cons c digits ih =>
    obtain ⟨hc, hdigits⟩ := List.forall_mem_cons.1 h
    obtain ⟨hascii, hdigit, hvalue⟩ := digit_byte hc
    have hnumber : number * 10 + (c.toNat - 48) = 10 * number + (c.toNat - '0'.toNat) := by
      rw [Nat.mul_comm]
      rfl
    rw [Nat.ofDigitChars_cons] at hlimit ⊢
    have hfits := Nat.le_trans (le_ofDigitChars digits _) hlimit
    rw [ofChars_cons_ascii hascii, List.cons_append, readDigits, hdigit, hvalue, hnumber,
      decide_eq_true hfits, Bool.and_true, if_pos rfl, ih hdigits _ _ hlimit, List.length_cons]
    congr 2
    omega

/-- No number but zero is written with a leading zero. -/
theorem toDigits_head {n : Nat} (h : 0 < n) :
    ∃ c digits, Nat.toDigits 10 n = c :: digits ∧ c ≠ '0' := by
  induction n using Nat.strongRecOn with
  | _ n ih =>
    rw [Nat.toDigits_eq_if (by decide)]
    split
    next hsmall => exact ⟨_, _, rfl, by simpa using Nat.ne_of_gt h⟩
    next hgreat =>
      obtain ⟨c, digits, hdigits, hc⟩ := ih (n / 10) (by omega) (by omega)
      exact ⟨c, digits ++ [(n % 10).digitChar], by rw [hdigits, List.cons_append], hc⟩

/-- The digits of a number of 64 bits read as that number. -/
theorem readNumber_toDigits (negative : Bool) {n : Nat} (hn : n ≤ maxSignificand) {rest : Bytes}
    (hrest : EndsNumber rest) :
    readNumber negative (ofChars (Nat.toDigits 10 n) ++ rest) =
      .ok (integerOf negative n, rest) := by
  rcases Nat.eq_zero_or_pos n with rfl | hpos
  · have hzero : UInt8.ofNat '0'.toNat = 48 := rfl
    rw [Nat.toDigits_zero, ofChars_cons_ascii (by decide), Bytes.ofChars_nil, List.cons_append,
      List.nil_append, readNumber, if_pos hzero, hrest.digitNext]
    exact hrest.readAfterInteger negative 0
  · obtain ⟨c, digits, hdigits, hc⟩ := toDigits_head hpos
    have hall : ∀ d ∈ c :: digits, d.isDigit := fun d member =>
      Nat.isDigit_of_mem_toDigits (by decide) (by decide) (hdigits ▸ member)
    have hvalue : Nat.ofDigitChars 10 digits (c.toNat - 48) = n := by
      have h : Nat.ofDigitChars 10 (c :: digits) 0 = n := by
        rw [← hdigits, Nat.ofDigitChars_ten_toDigits]
      rw [Nat.ofDigitChars_cons, Nat.mul_zero, Nat.zero_add] at h
      exact h
    obtain ⟨hascii, hdigit, hfirst⟩ := digit_byte (hall c List.mem_cons_self)
    have hzero : UInt8.ofNat c.toNat ≠ 48 := by
      intro h
      have h := congrArg UInt8.toNat h
      rw [toNat_ofNat_ascii hascii] at h
      exact hc (Char.toNat_inj.1 h)
    have hfits : Nat.ofDigitChars 10 digits (c.toNat - 48) ≤ maxSignificand := by rwa [hvalue]
    have hread := readDigits_chars (fun d member => hall d (List.mem_cons_of_mem c member))
      (c.toNat - 48) 0 hrest hfits
    rw [hdigits, ofChars_cons_ascii hascii, List.cons_append, readNumber, if_neg hzero,
      if_pos hdigit, hfirst, hread, hvalue]
    simp only [hrest.digitNext, Bool.false_eq_true, ↓reduceIte, hrest.readAfterInteger]

theorem integerOf_negative {value : Int} (hvalue : value < 0) (hmin : minInteger ≤ value) :
    integerOf true value.natAbs = .integer value := by
  have hout : ¬ (value.natAbs = 0 ∨ -minInteger < value.natAbs) := by
    simp only [minInteger] at hmin ⊢
    omega
  rw [integerOf, if_pos rfl, if_neg hout]
  congr 1
  omega

theorem integerOf_natural {value : Int} (hvalue : 0 ≤ value) :
    integerOf false value.natAbs = .integer value := by
  rw [integerOf, if_neg Bool.false_ne_true]
  congr 1
  omega

/-- An integer of 64 bits reads back from its text, behind its sign if it has one. -/
theorem readNumber_integerText {value : Int} (hmin : minInteger ≤ value) (hmax : value ≤ maxInteger)
    {rest : Bytes} (hrest : EndsNumber rest) :
    (∃ digits, ofChars (integerText value) = 45 :: digits ∧
      readNumber true (digits ++ rest) = .ok (.integer value, rest)) ∨
    (∃ b digits, ofChars (integerText value) = b :: digits ∧ isDigit b ∧
      readNumber false (b :: (digits ++ rest)) = .ok (.integer value, rest)) := by
  have hnumber : value.natAbs ≤ maxSignificand := by
    simp only [minInteger, maxInteger, maxSignificand] at *
    omega
  by_cases hvalue : value < 0
  · refine .inl ⟨ofChars (Nat.toDigits 10 value.natAbs), ?_, ?_⟩
    · rw [integerText, if_pos hvalue, ofChars_cons_ascii (by decide)]
      rfl
    · rw [readNumber_toDigits true hnumber hrest, integerOf_negative hvalue hmin]
  · have hread := readNumber_toDigits false hnumber hrest
    rw [integerOf_natural (Int.not_lt.1 hvalue)] at hread
    have hsome : Nat.toDigits 10 value.natAbs ≠ [] := Nat.toDigits_ne_nil
    obtain ⟨c, digits, hdigits⟩ := List.exists_cons_of_ne_nil hsome
    have hc : c.isDigit := Nat.isDigit_of_mem_toDigits (by decide) (by decide)
      (hdigits ▸ List.mem_cons_self)
    obtain ⟨hascii, hdigit, -⟩ := digit_byte hc
    rw [hdigits, ofChars_cons_ascii hascii] at hread
    refine .inr ⟨UInt8.ofNat c.toNat, ofChars digits, ?_, hdigit, hread⟩
    rw [integerText, if_neg hvalue, hdigits, ofChars_cons_ascii hascii]

end DocumentServer.Document
