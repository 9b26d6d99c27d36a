import DocumentServer.Gateway.Answer
import DocumentServer.Proofs.Bytes

/-! The headers that reach a client. HTTP allows a pair of a name and a value if the name is a token
and the value has no control characters but tabs. Such a pair is seen with its name in small
letters, and all others are not seen. -/
namespace DocumentServer.Answer

/-- The marks that a token may contain besides letters and digits. -/
def tokenMarks : List Nat := [33, 35, 36, 37, 38, 39, 42, 43, 45, 46, 94, 95, 96, 124, 126]

def TokenByte (byte : UInt8) : Prop :=
  48 ≤ byte.toNat ∧ byte.toNat ≤ 57 ∨ 65 ≤ byte.toNat ∧ byte.toNat ≤ 90 ∨
    97 ≤ byte.toNat ∧ byte.toNat ≤ 122 ∨ byte.toNat ∈ tokenMarks

instance (byte : UInt8) : Decidable (TokenByte byte) :=
  inferInstanceAs (Decidable (48 ≤ byte.toNat ∧ byte.toNat ≤ 57 ∨ 65 ≤ byte.toNat ∧
    byte.toNat ≤ 90 ∨ 97 ≤ byte.toNat ∧ byte.toNat ≤ 122 ∨ byte.toNat ∈ tokenMarks))

/-- A token whose length fits in 16 bits. -/
def TokenName (name : Bytes) : Prop :=
  name ≠ [] ∧ name.length < 65536 ∧ ∀ byte ∈ name, TokenByte byte

instance (name : Bytes) : Decidable (TokenName name) :=
  letI : Decidable (∀ byte ∈ name, TokenByte byte) := List.decidableBAll TokenByte name
  inferInstanceAs (Decidable (name ≠ [] ∧ name.length < 65536 ∧ ∀ byte ∈ name, TokenByte byte))

/-- A byte that is not a control character, or a tab. -/
def ValueByte (byte : UInt8) : Prop := byte = 9 ∨ 32 ≤ byte.toNat ∧ byte ≠ 127

instance (byte : UInt8) : Decidable (ValueByte byte) :=
  inferInstanceAs (Decidable (byte = 9 ∨ 32 ≤ byte.toNat ∧ byte ≠ 127))

/-- A pair that HTTP allows as a header: the name is a token, and the value has no control
characters but tabs. -/
def Allowed (header : Bytes × Bytes) : Prop :=
  TokenName header.1 ∧ ∀ byte ∈ header.2, ValueByte byte

instance (header : Bytes × Bytes) : Decidable (Allowed header) :=
  letI : Decidable (∀ byte ∈ header.2, ValueByte byte) := List.decidableBAll ValueByte header.2
  inferInstanceAs (Decidable (TokenName header.1 ∧ ∀ byte ∈ header.2, ValueByte byte))

/-- A letter in its small form, and any other byte as it is. -/
def smallByte (byte : UInt8) : UInt8 :=
  if 65 ≤ byte.toNat ∧ byte.toNat ≤ 90 then byte + 32 else byte

/-- The headers that a client sees of those that are sent, in their order. -/
def visible (headers : List (Bytes × Bytes)) : List (Bytes × Bytes) :=
  (headers.filter (Allowed ·)).map fun header => (header.1.map smallByte, header.2)

theorem isNameByte_iff (byte : UInt8) : isNameByte byte = true ↔ TokenByte byte :=
  Bytes.forall_byte (P := fun byte => isNameByte byte = true ↔ TokenByte byte)
    (by decide +kernel) byte

theorem isValueByte_iff (byte : UInt8) : isValueByte byte = true ↔ ValueByte byte :=
  Bytes.forall_byte (P := fun byte => isValueByte byte = true ↔ ValueByte byte)
    (by decide +kernel) byte

theorem toLower_byte (byte : UInt8) :
    (Char.ofNat byte.toNat).toLower.toNat.toUInt8 = smallByte byte :=
  Bytes.forall_byte (P := fun byte =>
    (Char.ofNat byte.toNat).toLower.toNat.toUInt8 = smallByte byte) (by decide +kernel) byte

theorem headerName?_eq (name : Bytes) :
    headerName? name = if TokenName name then some (name.map smallByte) else none := by
  have hsmall : name.map (fun byte => (Char.ofNat byte.toNat).toLower.toNat.toUInt8) =
      name.map smallByte := List.map_congr_left fun byte _ => toLower_byte byte
  have hnone : (name.isEmpty || decide (longestName < name.length) || !name.all isNameByte) = true ↔
      ¬ TokenName name := by
    have hlong : longestName < name.length ↔ ¬ name.length < 65536 := by
      rw [longestName]
      omega
    have htoken : name.all isNameByte = true ↔ ∀ byte ∈ name, TokenByte byte := by
      simp only [List.all_eq_true, isNameByte_iff]
    rw [Bool.or_eq_true, Bool.or_eq_true, List.isEmpty_iff, decide_eq_true_eq, Bool.not_eq_true',
      hlong, TokenName, ← htoken]
    grind
  rw [headerName?, hsmall]
  by_cases hname : TokenName name
  · rw [if_neg (fun h => hnone.1 h hname), if_pos hname]
  · rw [if_pos (hnone.2 hname), if_neg hname]

theorem header?_eq (header : Bytes × Bytes) :
    header? header =
      if Allowed header then some (header.1.map smallByte, header.2) else none := by
  have hvalue : header.2.all isValueByte = true ↔ ∀ byte ∈ header.2, ValueByte byte := by
    simp only [List.all_eq_true, isValueByte_iff]
  rw [header?, headerName?_eq]
  by_cases hname : TokenName header.1
  · rw [if_pos hname]
    by_cases hbytes : header.2.all isValueByte = true
    · rw [if_pos ⟨hname, hvalue.1 hbytes⟩]
      exact if_pos hbytes
    · rw [if_neg fun h => hbytes (hvalue.2 h.2)]
      exact if_neg hbytes
  · rw [if_neg hname, if_neg fun h => hname h.1]

theorem filterMap_header? (headers : List (Bytes × Bytes)) :
    headers.filterMap header? = visible headers := by
  induction headers with
  | nil => rfl
  | cons header rest ih =>
    rw [visible] at ih ⊢
    by_cases hallowed : Allowed header
    · have hseen : header? header = some (header.1.map smallByte, header.2) := by
        rw [header?_eq, if_pos hallowed]
      rw [List.filterMap_cons_some hseen, ih, List.filter_cons_of_pos (by simpa using hallowed),
        List.map_cons]
    · have hunseen : header? header = none := by rw [header?_eq, if_neg hallowed]
      rw [List.filterMap_cons_none hunseen, ih, List.filter_cons_of_neg (by simpa using hallowed)]

/-- A name without capital letters is seen as it is. -/
theorem map_smallByte {name : Bytes} (h : ∀ byte ∈ name, byte.toNat < 65 ∨ 90 < byte.toNat) :
    name.map smallByte = name := by
  have hsame (byte : UInt8) (member : byte ∈ name) : smallByte byte = byte := by
    have := h byte member
    exact if_neg (by omega)
  rw [List.map_congr_left hsame, List.map_id']

end DocumentServer.Answer
