import DocumentServer.Proofs.Toml.Strings
import Mathlib.Data.List.DropRight
import Mathlib.Data.List.TakeDrop

/-! Keys of a configuration text. A part of a key is read back from its text, and so are the parts
of a path with points between them, as long as there are not more of them than a reader allows. -/
namespace DocumentServer.Toml

/-- What can stand behind a part of a key: a blank, a point or a closing bracket. -/
def EndsKey (rest : List Char) : Prop := ∃ c ∈ [' ', '.', ']'], rest.head? = some c

theorem EndsKey.head_not_bare {rest : List Char} (h : EndsKey rest) :
    ∀ c, rest.head? = some c → isBare c = false := by
  obtain ⟨first, hmem, hhead⟩ := h
  intro c hc
  rw [hhead, Option.some.injEq] at hc
  refine Bool.eq_false_iff.2 fun hbare => not_mem_of_all hbare ?_ (hc ▸ hmem)
  decide

/-- A word is read up to the first character that can not belong to it. -/
theorem span_append {p : Char → Bool} {word rest : List Char} (hword : ∀ c ∈ word, p c = true)
    (hrest : ∀ c, rest.head? = some c → p c = false) : (word ++ rest).span p = (word, rest) := by
  rw [List.span_eq_takeWhile_dropWhile, List.takeWhile_append_of_pos hword,
    List.dropWhile_append_of_pos hword]
  cases rest with
  | nil => simp
  | cons c rest =>
    have hc := hrest c rfl
    simp [hc]

theorem skipBlanks_cons {c : Char} (h : c ∉ [' ', '\t']) (rest : List Char) :
    skipBlanks (c :: rest) = c :: rest :=
  List.dropWhile_cons_of_neg (by simpa [isBlank] using h)

/-- A character that the text of a key can begin with. -/
def opensKey (c : Char) : Bool := isBare c || c = '"' || c = '\''

/-! ### One part -/

/-- A part is a word or stands in quotes. -/
theorem keyText_cases (key : String) :
    (keyText key = key.toList ∧ key.toList ≠ [] ∧ ∀ c ∈ key.toList, isBare c = true) ∨
      keyText key = quotedText .basic key.toList ∨
      keyText key = quotedText .literal key.toList ∧ Quoting.Suits .literal key.toList := by
  unfold keyText
  dsimp only
  split_ifs with hbare
  · simp only [Bool.and_eq_true, Bool.not_eq_true', List.isEmpty_eq_false_iff,
      List.all_eq_true] at hbare
    exact .inl ⟨rfl, hbare⟩
  · rcases suits_ofKey key.toList with hbasic | ⟨hliteral, hsuits⟩
    · exact .inr (.inl (by rw [hbasic]))
    · exact .inr (.inr ⟨by rw [hliteral], hsuits⟩)

/-- The text of a part begins with a character of a word or with a quote. -/
theorem keyText_cons (key : String) :
    ∃ c rest, keyText key = c :: rest ∧ opensKey c = true := by
  rcases keyText_cases key with ⟨htext, hne, hbare⟩ | htext | ⟨htext, -⟩
  · obtain ⟨c, rest, hchars⟩ := List.exists_cons_of_ne_nil hne
    rw [hchars] at htext hbare
    have hc := hbare c List.mem_cons_self
    exact ⟨c, rest, htext, by simp [opensKey, hc]⟩
  · exact ⟨_, _, htext, rfl⟩
  · exact ⟨_, _, htext, rfl⟩

theorem readKeyPart_keyText {fuel : Nat} {key : String} {rest : List Char} (hrest : EndsKey rest)
    (hfuel : (keyText key).length < fuel) :
    readKeyPart fuel (keyText key ++ rest) = some (key, rest) := by
  rcases keyText_cases key with ⟨htext, hne, hbare⟩ | htext | ⟨htext, hsuits⟩
  · have hquote : isBare '"' = false := by decide
    have hquote' : isBare '\'' = false := by decide
    obtain ⟨c, chars, hchars⟩ := List.exists_cons_of_ne_nil hne
    have hc : isBare c = true := hbare c (hchars ▸ List.mem_cons_self)
    have hspan := span_append hbare hrest.head_not_bare
    rw [htext]
    rw [hchars] at hspan ⊢
    rw [List.cons_append] at hspan ⊢
    rw [readKeyPart, hspan]
    · have hkey : key ≠ "" := by
        rintro rfl
        exact hne rfl
      simp [← hchars, hkey]
    · rintro _ heq
      cases heq
      simp [hquote] at hc
    · rintro _ heq
      cases heq
      simp [hquote'] at hc
  · have hinput : quotedText .basic key.toList ++ rest =
        '"' :: (escapedText false 0 0 key.toList ++ '"' :: rest) := by
      simp [quotedText, Quoting.quotes]
    have hlength : key.toList.length < fuel := by
      have hescaped := length_escapedText false 0 0 key.toList
      rw [htext] at hfuel
      simp only [quotedText, List.length_append] at hfuel
      omega
    rw [htext, hinput, readKeyPart, readBasic_escapedText hlength]
    simp
  · have hinput : quotedText .literal key.toList ++ rest =
        '\'' :: (key.toList ++ '\'' :: rest) := by
      simp [quotedText, Quoting.quotes]
    rw [htext, hinput, readKeyPart, readLiteral_text hsuits]
    simp

/-! ### Paths -/

theorem skipBlanks_keyText (key : String) (rest : List Char) :
    skipBlanks (keyText key ++ rest) = keyText key ++ rest := by
  obtain ⟨c, text, htext, hc⟩ := keyText_cons key
  have hblank : c ∉ [' ', '\t'] := not_mem_of_all hc (by decide)
  rw [htext, List.cons_append, skipBlanks_cons hblank]

theorem pathText_singleton (key : String) : pathText [key] = keyText key := by
  simp [pathText]

theorem pathText_cons (key key' : String) (path : List String) :
    pathText (key :: key' :: path) = keyText key ++ '.' :: pathText (key' :: path) := by
  simp [pathText, List.intercalate]

/-- The parts of a path are read up to a character that is no point. -/
theorem readKeyParts_pathText {fuel count : Nat} {path : List String} (hne : path ≠ [])
    (hcount : path.length ≤ count) {rest : List Char} (hrest : EndsKey rest)
    (hpoint : (skipBlanks rest).head? ≠ some '.') (hfuel : (pathText path).length < fuel)
    (seen : List String) :
    readKeyParts fuel count seen (pathText path ++ rest) =
      some (seen.reverse ++ path, skipBlanks rest) := by
  induction path generalizing count seen with
  | nil => exact absurd rfl hne
  | cons key path ih =>
    obtain ⟨count, rfl⟩ := Nat.exists_eq_succ_of_ne_zero (Nat.ne_zero_of_lt hcount)
    cases path with
    | nil =>
      rw [pathText_singleton] at hfuel ⊢
      rw [readKeyParts, skipBlanks_keyText, readKeyPart_keyText hrest hfuel]
      dsimp only
      split
      next heq =>
        rw [heq] at hpoint
        exact absurd rfl hpoint
      next => simp
    | cons key' path =>
      rw [pathText_cons] at hfuel ⊢
      simp only [List.length_append, List.length_cons] at hfuel hcount
      have hbehind : EndsKey ('.' :: (pathText (key' :: path) ++ rest)) := ⟨'.', by decide, rfl⟩
      have hpart : readKeyPart fuel (keyText key ++ '.' :: (pathText (key' :: path) ++ rest)) =
          some (key, '.' :: (pathText (key' :: path) ++ rest)) :=
        readKeyPart_keyText hbehind (by omega)
      rw [List.append_assoc, List.cons_append, readKeyParts, skipBlanks_keyText, hpart]
      dsimp only
      rw [skipBlanks_cons (by decide)]
      have hmore := ih (List.cons_ne_nil _ _) (show path.length + 1 ≤ count by omega) (by omega)
        (key :: seen)
      simpa using hmore

theorem readKey_pathText {fuel : Nat} {path : List String} (hne : path ≠ [])
    (hlength : path.length ≤ depthLimit) {rest : List Char} (hrest : EndsKey rest)
    (hpoint : (skipBlanks rest).head? ≠ some '.') (hfuel : (pathText path).length < fuel) :
    readKey fuel (pathText path ++ rest) = some (path, skipBlanks rest) :=
  readKeyParts_pathText hne hlength hrest hpoint hfuel []

/-- Blanks in front of a key are passed over. -/
theorem readKey_skipBlanks (fuel : Nat) (input : List Char) :
    readKey fuel (skipBlanks input) = readKey fuel input := by
  have hskip : skipBlanks (skipBlanks input) = skipBlanks input := List.dropWhile_idempotent _ _
  show readKeyParts fuel (78 + 1) [] (skipBlanks input) = readKeyParts fuel (78 + 1) [] input
  rw [readKeyParts, readKeyParts, hskip]

end DocumentServer.Toml
