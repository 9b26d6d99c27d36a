import DocumentServer.Proofs.Document.Lexemes
import DocumentServer.Proofs.Toml.Keys

/-! Booleans and integers of a configuration text. A word of digits with or without a sign is no
date, no time and no number with a fraction, so it is read as the integer that it was written for.
-/
namespace DocumentServer.Toml

/-! ### Digits -/

theorem digitOf?_digit {c : Char} (h : c.isDigit) :
    Hexadecimal.digitOf? 10 c = some (c.toNat - 48) := by
  obtain ⟨hlow, hhigh⟩ : 48 ≤ c.toNat ∧ c.toNat ≤ 57 := by
    simpa [Char.isDigit, UInt32.le_iff_toNat_le] using h
  have hall : ∀ n < 58, 48 ≤ n →
      (Hexadecimal.value? n.toUInt8).filter (· < 10) = some (n - 48) := by
    decide
  rw [Hexadecimal.digitOf?, if_pos (by omega)]
  exact hall c.toNat (by omega) hlow

theorem plainDigits_digits {digits : List Char} (h : ∀ c ∈ digits, c.isDigit) {afterDigit : Bool}
    (hsome : afterDigit = true ∨ digits ≠ []) :
    plainDigits 10 afterDigit digits = some (digits.map (·.toNat - 48)) := by
  induction digits generalizing afterDigit with
  | nil =>
    obtain rfl : afterDigit = true := hsome.resolve_right (absurd rfl)
    rfl
  | cons c digits ih =>
    obtain ⟨hc, hdigits⟩ := List.forall_mem_cons.1 h
    have hscore : c ≠ '_' := by
      rintro rfl
      cases hc
    rw [plainDigits, if_neg hscore, digitOf?_digit hc]
    simp [ih hdigits (.inl rfl)]

theorem ofDigits_map (digits : List Char) :
    ofDigits 10 (digits.map (·.toNat - 48)) = Nat.ofDigitChars 10 digits 0 := by
  have hfold (n : Nat) : (digits.map (·.toNat - 48)).foldl (fun n digit => n * 10 + digit) n =
      Nat.ofDigitChars 10 digits n := by
    induction digits generalizing n with
    | nil => rfl
    | cons c digits ih =>
      rw [Nat.ofDigitChars_cons, List.map_cons, List.foldl_cons, ih, Nat.mul_comm]
      rfl
  exact hfold 0

theorem isDigit_of_mem_toDigits {n : Nat} : ∀ c ∈ Nat.toDigits 10 n, c.isDigit :=
  fun _ hc => Nat.isDigit_of_mem_toDigits (by decide) (by decide) hc

/-- The digits of a number are its own: no zero leads them. -/
theorem decimalDigits_toDigits (n : Nat) :
    ∃ digits, decimalDigits (Nat.toDigits 10 n) = some digits ∧ ofDigits 10 digits = n := by
  refine ⟨(Nat.toDigits 10 n).map (·.toNat - 48), ?_, ?_⟩
  · rw [decimalDigits, plainDigits_digits isDigit_of_mem_toDigits (.inr Nat.toDigits_ne_nil)]
    split
    next heq =>
      rcases Nat.eq_zero_or_pos n with rfl | hpos
      · cases heq
      · obtain ⟨c, digits, hdigits, hc⟩ := Document.toDigits_head hpos
        have hdigit : c.isDigit := isDigit_of_mem_toDigits c (hdigits ▸ List.mem_cons_self)
        obtain ⟨hlow, -⟩ : 48 ≤ c.toNat ∧ c.toNat ≤ 57 := by
          simpa [Char.isDigit, UInt32.le_iff_toNat_le] using hdigit
        simp only [hdigits, List.map_cons, Option.some.injEq, List.cons.injEq] at heq
        have hzero : c.toNat = '0'.toNat := by
          have hvalue : '0'.toNat = 48 := rfl
          omega
        exact absurd (Char.toNat_inj.1 hzero) hc
    next => rfl
  · rw [ofDigits_map, Nat.ofDigitChars_ten_toDigits]

/-! ### Words of digits -/

/-- A word of digits, with a sign in front if the number is negative. -/
structure IntegerWord (negative : Bool) (digits word : List Char) : Prop where
  signed : word = if negative then '-' :: digits else digits
  digit : ∀ c ∈ digits, c.isDigit
  nonempty : digits ≠ []

theorem integerWord (n : Int) :
    IntegerWord (n < 0) (Nat.toDigits 10 n.natAbs) (integerText n) where
  signed := by
    by_cases hn : n < 0 <;> simp [integerText, hn]
  digit := isDigit_of_mem_toDigits
  nonempty := Nat.toDigits_ne_nil

namespace IntegerWord

variable {negative : Bool} {digits word : List Char} (h : IntegerWord negative digits word)

include h

theorem mem {c : Char} (hc : c ∈ word) : c = '-' ∨ c.isDigit := by
  have hword := h.signed
  cases negative <;> simp_all
  · exact .inr (h.digit c hc)
  · exact hc.imp id (h.digit c)

theorem splitSign_eq : splitSign word = (negative, digits) := by
  obtain ⟨c, rest, rfl⟩ := List.exists_cons_of_ne_nil h.nonempty
  have hc : c.isDigit := h.digit c List.mem_cons_self
  rw [h.signed]
  cases negative with
  | true => rfl
  | false =>
    rw [if_neg (by decide), splitSign]
    · rintro _ heq
      cases heq
      cases hc
    · rintro _ heq
      cases heq
      cases hc

/-- Behind its first character, only digits follow. -/
theorem mem_drop (count : Nat) {c : Char} (hc : c ∈ word.drop (count + 1)) : c.isDigit := by
  have hword := h.signed
  refine h.digit c ?_
  cases negative with
  | true =>
    rw [hword, if_pos rfl, List.drop_succ_cons] at hc
    exact List.mem_of_mem_drop hc
  | false =>
    rw [hword, if_neg (by decide)] at hc
    exact List.mem_of_mem_drop hc

end IntegerWord

theorem fixedDigits_rest {count n : Nat} {word rest : List Char}
    (h : fixedDigits count word = some (n, rest)) : rest = word.drop count := by
  unfold fixedDigits at h
  dsimp only at h
  split_ifs at h
  cases h
  rfl

namespace IntegerWord

variable {negative : Bool} {digits word : List Char} (h : IntegerWord negative digits word)

include h

theorem readDate_eq : readDate word = none := by
  unfold readDate
  cases hyear : fixedDigits 4 word with
  | none => rfl
  | some found =>
    obtain ⟨year, rest⟩ := found
    have hrest := fixedDigits_rest hyear
    cases rest with
    | nil => rfl
    | cons c rest =>
      have hc : c.isDigit := h.mem_drop 3 (hrest ▸ List.mem_cons_self)
      have hminus : c ≠ '-' := by
        rintro rfl
        cases hc
      simp [hminus]

theorem readTime_eq : readTime word = none := by
  unfold readTime
  cases hhour : fixedDigits 2 word with
  | none => rfl
  | some found =>
    obtain ⟨hour, rest⟩ := found
    have hrest := fixedDigits_rest hhour
    cases rest with
    | nil => rfl
    | cons c rest =>
      have hc : c.isDigit := h.mem_drop 1 (hrest ▸ List.mem_cons_self)
      have hcolon : c ≠ ':' := by
        rintro rfl
        cases hc
      simp [hcolon]

theorem moment?_eq : moment? word = none := by
  simp [moment?, h.readDate_eq, h.readTime_eq]

theorem ne_word (letter : Char) (hletter : letter.isDigit = false) (rest : List Char) :
    digits ≠ letter :: rest := by
  rintro rfl
  have hdigit := h.digit letter List.mem_cons_self
  simp [hletter] at hdigit

theorem real?_eq : real? word = none := by
  have hexponent : ∀ c ∈ digits, (!isExponentMark c) = true := by
    intro c hc
    have hdigit := h.digit c hc
    by_contra hmark
    simp only [isExponentMark, Bool.not_eq_true, Bool.not_eq_false', Bool.or_eq_true,
      decide_eq_true_eq] at hmark
    rcases hmark with rfl | rfl <;> cases hdigit
  have hpoint : ∀ c ∈ digits, decide (c ≠ '.') = true := by
    intro c hc
    have hdigit := h.digit c hc
    refine decide_eq_true ?_
    rintro rfl
    cases hdigit
  have hmantissa : (digits ++ []).span (!isExponentMark ·) = (digits, []) :=
    span_append hexponent nofun
  have hwhole : (digits ++ []).span (fun c => decide (c ≠ '.')) = (digits, []) :=
    span_append hpoint nofun
  rw [List.append_nil] at hmantissa hwhole
  simp only [real?, h.splitSign_eq, if_neg (h.ne_word 'i' rfl _),
    if_neg (h.ne_word 'n' rfl _), hmantissa, hwhole]
  rfl

theorem integer?_eq {n : Nat} (hdigits : digits = Nat.toDigits 10 n) :
    integer? word = bounded (if negative then -n else n) := by
  obtain ⟨values, hvalues, hn⟩ := decimalDigits_toDigits n
  rw [← hdigits] at hvalues
  have hbase {mark : Char} (hmark : mark.isDigit = false) (rest : List Char) :
      word ≠ '0' :: mark :: rest := by
    intro heq
    have hc : mark.isDigit := h.mem_drop 0 (heq ▸ List.mem_cons_self)
    simp [hmark] at hc
  unfold integer?
  split
  · exact absurd rfl (hbase rfl _)
  · exact absurd rfl (hbase rfl _)
  · exact absurd rfl (hbase rfl _)
  · rw [h.splitSign_eq]
    simp only [hvalues, Option.bind_some, hn]

end IntegerWord

/-! ### Values -/

theorem scalar?_integerText {n : Int} (hmin : Document.minInteger ≤ n)
    (hmax : n ≤ Document.maxSigned) : scalar? (integerText n) = some (.integer n) := by
  have h := integerWord n
  have hinteger := h.integer?_eq rfl
  have hvalue : (if (n < 0 : Bool) then -(n.natAbs : Int) else n.natAbs) = n := by
    simp only [decide_eq_true_eq]
    split_ifs <;> omega
  have hword (letter : Char) (rest : List Char)
      (hletter : letter.isDigit = false ∧ letter ≠ '-') : integerText n ≠ letter :: rest := by
    intro heq
    rcases h.mem (heq ▸ List.mem_cons_self) with hminus | hdigit
    · exact hletter.2 hminus
    · simp [hletter.1] at hdigit
  rw [hvalue, bounded, if_pos ⟨hmin, hmax⟩] at hinteger
  rw [scalar?, if_neg (hword 't' _ (by decide)), if_neg (hword 'f' _ (by decide)), h.moment?_eq,
    h.real?_eq, hinteger]
  rfl

theorem EndsValue.head_not_word {rest : List Char} (h : EndsValue rest) :
    ∀ c, rest.head? = some c → isWordChar c = false := by
  refine h.head fun c hc => Bool.eq_false_iff.2 fun hword => not_mem_of_all hword ?_ hc
  decide

theorem readScalar_word {word rest : List Char} {value : Value}
    (hword : word.all isWordChar = true) (hdate : isDate word = false)
    (hvalue : scalar? word = some value) (hrest : EndsValue rest) :
    readScalar (word ++ rest) = some (value, rest) := by
  rw [readScalar, span_append (List.all_eq_true.1 hword) hrest.head_not_word]
  simp only [hdate, hvalue, Option.map_some]

theorem isWordChar_of_isDigit {c : Char} (h : c.isDigit) : isWordChar c = true := by
  simp [isWordChar, Char.isAlphanum, h]

/-- An integer of 64 bits is read back from its text. -/
theorem readScalar_integerText {n : Int} (hmin : Document.minInteger ≤ n)
    (hmax : n ≤ Document.maxSigned) {rest : List Char} (hrest : EndsValue rest) :
    readScalar (integerText n ++ rest) = some (.integer n, rest) := by
  have h := integerWord n
  refine readScalar_word ?_ ?_ (scalar?_integerText hmin hmax) hrest
  · refine List.all_eq_true.2 fun c hc => ?_
    rcases h.mem hc with rfl | hdigit
    · rfl
    · exact isWordChar_of_isDigit hdigit
  · rw [isDate, h.readDate_eq]

theorem readScalar_boolean (value : Bool) {rest : List Char} (hrest : EndsValue rest) :
    readScalar (valueText (.boolean value) ++ rest) = some (.boolean value, rest) := by
  cases value with
  | true =>
    rw [valueText]
    exact readScalar_word (by decide) (by decide) rfl hrest
  | false =>
    rw [valueText]
    exact readScalar_word (by decide) (by decide) rfl hrest

/-- A value that begins with neither a quote nor a bracket is read as a word. -/
theorem readWith_word (fuel : Nat) (nested : Option (List Char → Reading Value)) {c : Char}
    (hc : c ∉ ['"', '\'', '[', '\x7b']) (rest : List Char) :
    readWith fuel nested (c :: rest) = readScalar (c :: rest) := by
  simp only [List.mem_cons, List.not_mem_nil, or_false, not_or] at hc
  unfold readWith
  split <;> simp_all

end DocumentServer.Toml
