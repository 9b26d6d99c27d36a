import DocumentServer.Proofs.Bytes
import DocumentServer.Text.Percent

/-! Percent encoding loses nothing: every text is read back from its encoded form. That form is made
of letters, digits and percent signs alone, so what it is put between can be told from it. -/
namespace DocumentServer

theorem Hexadecimal.capitalDigit_mod (n : Nat) : capitalDigit (n % 16) = capitalDigit n := by
  rw [capitalDigit, digit, Nat.mod_mod]
  rfl

/-- The last digit of a number is a letter or a digit, and has that value. -/
theorem Hexadecimal.capitalDigit_spec (n : Nat) :
    (capitalDigit n).isAlphanum = true ∧
      value? (.ofNat (capitalDigit n).toNat) = some (n % 16) := by
  have hdigits : ∀ m < 16, (capitalDigit m).isAlphanum = true ∧
      value? (.ofNat (capitalDigit m).toNat) = some m := by
    decide +kernel
  have hlast := hdigits (n % 16) (Nat.mod_lt n (by decide))
  rwa [capitalDigit_mod] at hlast

namespace Percent

open Hexadecimal (capitalDigit capitalDigit_spec value?)

/-! ### One byte -/

/-- A character that encoded forms are made of. -/
def EncodedChar (c : Char) : Prop := c.isAlphanum = true ∨ c = '%'

instance (c : Char) : Decidable (EncodedChar c) :=
  inferInstanceAs (Decidable (c.isAlphanum = true ∨ c = '%'))

theorem EncodedChar.ascii {c : Char} (h : EncodedChar c) : c.toNat < 128 := by
  rcases h with halnum | rfl
  · have hcases : ((c.isUpper || c.isLower) || c.isDigit) = true := halnum
    rw [Bool.or_eq_true, Bool.or_eq_true] at hcases
    rcases hcases with (hupper | hlower) | hdigit
    · have hlast : c.toNat ≤ 90 := (of_decide_eq_true hupper).2
      omega
    · have hlast : c.toNat ≤ 122 := of_decide_eq_true (Bool.and_eq_true_iff.1 hlower).2
      omega
    · have hlast : c.toNat ≤ 57 := of_decide_eq_true (Bool.and_eq_true_iff.1 hdigit).2
      omega
  · decide

theorem encodedChar_of_mem_encodeByte {byte : UInt8} {c : Char} (h : c ∈ encodeByte byte) :
    EncodedChar c := by
  unfold encodeByte at h
  split at h
  next hplain => exact .inl (List.mem_singleton.1 h ▸ hplain)
  next =>
    simp only [List.mem_cons, List.not_mem_nil, or_false] at h
    rcases h with rfl | rfl | rfl
    · exact .inr rfl
    · exact .inl (capitalDigit_spec _).1
    · exact .inl (capitalDigit_spec _).1

/-- The two digits of a byte have its value. -/
theorem pairValue?_digits (byte : UInt8) (rest : Bytes) :
    pairValue? (.ofNat (capitalDigit (byte.toNat / 16)).toNat ::
      .ofNat (capitalDigit byte.toNat).toNat :: rest) = some byte := by
  have hvalue : 16 * (byte.toNat / 16 % 16) + byte.toNat % 16 = byte.toNat := by
    have hbyte := byte.toNat_lt
    omega
  simp only [pairValue?, (capitalDigit_spec _).2, hvalue]
  exact congrArg some UInt8.ofNat_toNat

/-- A byte is read back from its encoded form, whatever follows. -/
theorem decode_encodeByte (byte : UInt8) (rest : Bytes) :
    decode (.ofChars (encodeByte byte) ++ rest) = byte :: decode rest := by
  by_cases hplain : isPlain byte = true
  · have hsign : byte ≠ sign := fun h => absurd (h ▸ hplain) (by decide)
    have hcode : (Char.ofNat byte.toNat).toNat = byte.toNat := by
      have hvalid : byte.toNat.isValidChar := .inl (by have hbyte := byte.toNat_lt; omega)
      rw [Char.ofNat, dif_pos hvalid]
      rfl
    have hascii : (Char.ofNat byte.toNat).toNat < 128 := EncodedChar.ascii (.inl hplain)
    rw [encodeByte, if_pos hplain, Bytes.ofChars_cons_ascii hascii, hcode, UInt8.ofNat_toNat,
      Bytes.ofChars_nil, List.singleton_append, decode, if_neg hsign]
  · have hascii (n : Nat) : (capitalDigit n).toNat < 128 :=
      EncodedChar.ascii (.inl (capitalDigit_spec n).1)
    rw [encodeByte, if_neg hplain, Bytes.ofChars_cons_ascii (by decide),
      Bytes.ofChars_cons_ascii (hascii _), Bytes.ofChars_cons_ascii (hascii _), Bytes.ofChars_nil]
    show decode (sign :: _ :: _ :: rest) = _
    rw [decode, if_pos rfl, pairValue?_digits]
    rfl

/-! ### Texts -/

variable {text : String}

theorem ofString_encode (text : String) :
    Bytes.ofString (encode text) =
      (Bytes.ofString text).flatMap fun byte => Bytes.ofChars (encodeByte byte) := by
  rw [encode, Bytes.ofString_eq, String.toList_ofList, Bytes.ofChars, List.flatMap_assoc]
  rfl

/-- A text is read back from its encoded form. -/
theorem decode_encode (text : String) : decode (.ofString (encode text)) = .ofString text := by
  rw [ofString_encode]
  induction Bytes.ofString text with
  | nil => rw [List.flatMap_nil, decode]
  | cons byte bytes ih => rw [List.flatMap_cons, decode_encodeByte, ih]

example : encode "é/" = "%C3%A9%2F" := by decide +kernel

theorem encode_injective : Function.Injective encode := by
  intro text text' h
  have hbytes := congrArg (fun encoded => decode (.ofString encoded)) h
  simp only [decode_encode] at hbytes
  exact Bytes.ofString_inj hbytes

/-- Only the empty text has an empty encoded form. -/
theorem ofString_encode_ne_nil (h : text ≠ "") : Bytes.ofString (encode text) ≠ [] :=
  fun hnil => h (encode_injective (Bytes.ofString_inj hnil))

theorem encodedChar_of_mem_encode {c : Char} (h : c ∈ (encode text).toList) : EncodedChar c := by
  rw [encode, String.toList_ofList, List.mem_flatMap] at h
  obtain ⟨byte, -, hc⟩ := h
  exact encodedChar_of_mem_encodeByte hc

/-- The byte of another character does not occur in an encoded form. -/
theorem not_mem_ofString_encode {c : Char} (hascii : c.toNat < 128) (h : ¬ EncodedChar c) :
    UInt8.ofNat c.toNat ∉ Bytes.ofString (encode text) := by
  rw [Bytes.ofString_eq]
  exact fun hmem => h (encodedChar_of_mem_encode (Bytes.mem_of_mem_ofChars hascii hmem))

end Percent

end DocumentServer
