import DocumentServer.Bytes
import Mathlib.Tactic.ByContra
import Mathlib.Tactic.SplitIfs

/-! The bytes of a text, character by character. A character below 128 is one byte, and the bytes of
every other character are at least 128, so no part of a longer character looks like a quote or a
bracket. The characters are numbered so that texts are ordered as their bytes are. Parts without a
mark are told apart by marks between them. -/
namespace DocumentServer.Bytes

def ofChars (chars : List Char) : Bytes := chars.flatMap String.utf8EncodeChar

theorem ofString_eq (text : String) : ofString text = ofChars text.toList := by
  rw [ofString, ← String.utf8Encode_toList, List.utf8Encode]
  exact List.toList_data_toByteArray

theorem ofString_inj {text text' : String} (h : ofString text = ofString text') :
    text = text' := by
  have hread := congrArg text? h
  rwa [text?_ofString, text?_ofString, Option.some.injEq] at hread

@[simp] theorem ofChars_nil : ofChars [] = [] := rfl

@[simp] theorem ofChars_append (chars chars' : List Char) :
    ofChars (chars ++ chars') = ofChars chars ++ ofChars chars' :=
  List.flatMap_append

theorem ofString_append (text text' : String) :
    ofString (text ++ text') = ofString text ++ ofString text' := by
  simp only [ofString_eq, String.toList_append, ofChars_append]

theorem ofChars_cons (c : Char) (chars : List Char) :
    ofChars (c :: chars) = String.utf8EncodeChar c ++ ofChars chars :=
  rfl

theorem utf8EncodeChar_ascii {c : Char} (h : c.toNat < 128) :
    String.utf8EncodeChar c = [UInt8.ofNat c.toNat] :=
  if_pos (Nat.le_of_lt_succ h)

theorem ofChars_cons_ascii {c : Char} (h : c.toNat < 128) (chars : List Char) :
    ofChars (c :: chars) = UInt8.ofNat c.toNat :: ofChars chars := by
  rw [ofChars_cons, utf8EncodeChar_ascii h]
  rfl

theorem toNat_ofNat_ascii {c : Char} (h : c.toNat < 128) :
    (UInt8.ofNat c.toNat).toNat = c.toNat := by
  rw [UInt8.toNat_ofNat']
  exact Nat.mod_eq_of_lt (by omega)

theorem le_of_mem_utf8EncodeChar {c : Char} (h : 128 ≤ c.toNat) {b : UInt8}
    (member : b ∈ String.utf8EncodeChar c) : 128 ≤ b.toNat := by
  have hval : ¬ c.val.toNat ≤ 127 := Nat.not_le.2 h
  have high {n m base : Nat} (hm : 0 < m) (hbase : 128 ≤ base) (hsum : base + m ≤ 256) :
      128 ≤ (UInt8.ofNat (n % m + base)).toNat := by
    have hmod := Nat.mod_lt n hm
    rw [UInt8.toNat_ofNat', Nat.mod_eq_of_lt (by omega)]
    omega
  simp only [String.utf8EncodeChar, if_neg hval] at member
  split at member
  · simp only [List.mem_cons, List.not_mem_nil, or_false] at member
    rcases member with rfl | rfl <;> exact high (by decide) (by decide) (by decide)
  · split at member
    · simp only [List.mem_cons, List.not_mem_nil, or_false] at member
      rcases member with rfl | rfl | rfl <;> exact high (by decide) (by decide) (by decide)
    · simp only [List.mem_cons, List.not_mem_nil, or_false] at member
      rcases member with rfl | rfl | rfl | rfl <;> exact high (by decide) (by decide) (by decide)

/-- No other character has the byte of a character below 128. -/
theorem mem_of_mem_ofChars {c : Char} (h : c.toNat < 128) {chars : List Char}
    (member : UInt8.ofNat c.toNat ∈ ofChars chars) : c ∈ chars := by
  obtain ⟨other, hother, hbyte⟩ := List.mem_flatMap.1 member
  by_cases hascii : other.toNat < 128
  · rw [utf8EncodeChar_ascii hascii, List.mem_singleton] at hbyte
    have hcode := congrArg UInt8.toNat hbyte
    rw [toNat_ofNat_ascii h, toNat_ofNat_ascii hascii] at hcode
    exact Char.toNat_inj.1 hcode ▸ hother
  · have hgreat := le_of_mem_utf8EncodeChar (Nat.not_lt.1 hascii) hbyte
    rw [toNat_ofNat_ascii h] at hgreat
    omega

/-- A property of all bytes can be checked for each of them. -/
theorem forall_byte {P : UInt8 → Prop} (h : ∀ n : Fin 256, P (.ofNat n.val)) (byte : UInt8) :
    P byte := by
  have hbyte := h ⟨byte.toNat, byte.toNat_lt⟩
  rwa [UInt8.ofNat_toNat] at hbyte

/-! ### Parts between marks -/

variable {mark : UInt8}

theorem splitOn_of_not_mem {part : Bytes} (h : mark ∉ part) (rest : Bytes) :
    splitOn mark (part ++ mark :: rest) = part :: splitOn mark rest := by
  induction part with
  | nil => simp [splitOn]
  | cons byte part ih =>
    obtain ⟨hbyte, hpart⟩ := not_or.1 (mt List.mem_cons.2 h)
    rw [List.cons_append, splitOn, if_neg (Ne.symm hbyte), ih hpart]

theorem splitOn_eq_self {part : Bytes} (h : mark ∉ part) : splitOn mark part = [part] := by
  induction part with
  | nil => rfl
  | cons byte part ih =>
    obtain ⟨hbyte, hpart⟩ := not_or.1 (mt List.mem_cons.2 h)
    rw [splitOn, if_neg (Ne.symm hbyte), ih hpart]

/-- Rows that do not hold the mark are what stands between the marks behind them. -/
theorem splitOn_flatMap {rows : List Bytes} (h : ∀ row ∈ rows, mark ∉ row) :
    splitOn mark (rows.flatMap (· ++ [mark])) = rows ++ [[]] := by
  induction rows with
  | nil => rfl
  | cons row rows ih =>
    obtain ⟨hrow, hrows⟩ := List.forall_mem_cons.1 h
    rw [List.flatMap_cons, List.append_assoc, List.singleton_append, splitOn_of_not_mem hrow,
      ih hrows, List.cons_append]

/-! ### Order -/

theorem cons_ofNat_lt {m n : Nat} (hm : m < 256) (hn : n < 256) (rest rest' : Bytes) :
    UInt8.ofNat m :: rest < UInt8.ofNat n :: rest' ↔ m < n ∨ m = n ∧ rest < rest' := by
  rw [List.cons_lt_cons_iff, UInt8.lt_iff_toNat_lt, ← UInt8.toNat_inj, UInt8.toNat_ofNat',
    UInt8.toNat_ofNat', Nat.mod_eq_of_lt hm, Nat.mod_eq_of_lt hn]

theorem utf8EncodeChar_lt {c d : Char} (h : c < d) (rest rest' : Bytes) :
    String.utf8EncodeChar c ++ rest < String.utf8EncodeChar d ++ rest' := by
  have hless : c.val.toNat < d.val.toNat := h
  have hmax : d.val.toNat < 1114112 := by
    rcases d.valid with hlow | hhigh
    · exact Nat.lt_trans hlow (by decide)
    · exact hhigh.2
  -- The quotients of the longer forms are digits to the base 64, each with its own leading part.
  have htwo (n : Nat) : n / 4096 = n / 64 / 64 := by omega
  have hthree (n : Nat) : n / 262144 = n / 64 / 64 / 64 := by omega
  simp only [String.utf8EncodeChar, htwo, hthree]
  generalize c.val.toNat = m at *
  generalize d.val.toNat = n at *
  split_ifs <;> simp only [List.cons_append, List.nil_append] <;>
    repeat rw [cons_ofNat_lt (by omega) (by omega)]
  all_goals omega

theorem ofChars_lt {chars chars' : List Char} (h : chars < chars') :
    ofChars chars < ofChars chars' := by
  induction h with
  | @nil c chars' =>
    rw [ofChars_cons]
    cases hc : String.utf8EncodeChar c with
    | nil => simp at hc
    | cons => exact .nil
  | @rel c chars d chars' hcd => exact utf8EncodeChar_lt hcd _ _
  | @cons c chars chars' _ ih => exact List.append_left_lt ih

/-- Texts are ordered as their bytes are. -/
theorem ofString_lt_iff (text text' : String) : ofString text < ofString text' ↔ text < text' := by
  rw [ofString_eq, ofString_eq]
  refine ⟨fun h => ?_, ofChars_lt⟩
  by_contra hless
  by_cases hgreater : text' < text
  · exact List.lt_asymm h (ofChars_lt hgreater)
  · rw [String.le_antisymm (String.not_lt.1 hgreater) (String.not_lt.1 hless)] at h
    exact List.lt_irrefl _ h

end DocumentServer.Bytes
