import DocumentServer.Toml.Reader
import DocumentServer.Toml.Writer
import Mathlib.Tactic.SplitIfs

/-! Strings of a configuration text. Whichever quotes are chosen for a string, the reader gives the
string back: escapes stand for one character each, and between triple quotes no run of quotes is
long enough to end the string before its end. -/
namespace DocumentServer.Toml

/-! ### Escapes -/

/-- These characters stand for `c` behind a backslash. -/
structure Escape (c : Char) (code : List Char) : Prop where
  reads : ∀ rest, readEscape (code ++ rest) = some (c, rest)
  /-- They are not taken for the end of a line. -/
  stays : ∀ rest, skipContinuation (code ++ rest) = none

theorem escape_quote : Escape '"' ['"'] := ⟨fun _ => rfl, fun _ => rfl⟩

theorem charOfHex_code {n : Nat} (h : n < 128) :
    charOfHex ['0', '0', Hexadecimal.capitalDigit (n / 16), Hexadecimal.capitalDigit n] =
      some (Char.ofNat n) := by
  have hall : ∀ n < 128,
      charOfHex ['0', '0', Hexadecimal.capitalDigit (n / 16), Hexadecimal.capitalDigit n] =
        some (Char.ofNat n) := by
    decide +kernel
  exact hall n h

theorem escape_code {c : Char} (h : c.toNat < 128) :
    ∃ code, codeEscape c = '\\' :: code ∧ Escape c code := by
  refine ⟨_, rfl, fun rest => ?_, fun rest => rfl⟩
  have hcode := charOfHex_code h
  rw [Char.ofNat_toNat] at hcode
  simp [readEscape, readCode, hcode]

/-- A character is written as an escape of it or as it is. -/
theorem escapedChar_cases (lines : Bool) (c : Char) :
    (∃ code, escapedChar lines c = '\\' :: code ∧ Escape c code) ∨
      escapedChar lines c = [c] ∧ c ≠ '\\' ∧ (isText c = true ∨ lines = true ∧ c = '\n') := by
  unfold escapedChar
  split_ifs with hb ht hn hlines hf hr hslash hcode
  · exact .inl ⟨_, rfl, hb ▸ ⟨fun _ => rfl, fun _ => rfl⟩⟩
  · exact .inl ⟨_, rfl, ht ▸ ⟨fun _ => rfl, fun _ => rfl⟩⟩
  · exact .inr ⟨by rw [hn], by rw [hn]; decide, .inr ⟨hlines, hn⟩⟩
  · exact .inl ⟨_, rfl, hn ▸ ⟨fun _ => rfl, fun _ => rfl⟩⟩
  · exact .inl ⟨_, rfl, hf ▸ ⟨fun _ => rfl, fun _ => rfl⟩⟩
  · exact .inl ⟨_, rfl, hr ▸ ⟨fun _ => rfl, fun _ => rfl⟩⟩
  · subst hslash
    exact .inl ⟨_, rfl, fun _ => rfl, fun _ => rfl⟩
  · exact .inl (escape_code (by omega))
  · refine .inr ⟨rfl, hslash, .inl ?_⟩
    simp only [isText, Bool.or_eq_true, decide_eq_true_eq, Bool.and_eq_true]
    omega

/-! ### Strings on one line -/

theorem readBasic_escapedText {text : List Char} {fuel : Nat} (h : text.length < fuel) (run : Nat)
    (seen rest : List Char) :
    readBasic fuel seen (escapedText false 0 run text ++ '"' :: rest) =
      some (String.ofList (seen.reverse ++ text), rest) := by
  induction text generalizing fuel run seen with
  | nil =>
    obtain ⟨fuel, rfl⟩ := Nat.exists_eq_succ_of_ne_zero (Nat.ne_zero_of_lt h)
    simp [escapedText, readBasic]
  | cons c text ih =>
    obtain ⟨fuel, rfl⟩ := Nat.exists_eq_succ_of_ne_zero (Nat.ne_zero_of_lt h)
    have hrest := ih (Nat.lt_of_succ_lt_succ h) 0 (c :: seen)
    rw [List.reverse_cons, List.append_assoc, List.singleton_append] at hrest
    have escaped {code : List Char} (hcode : Escape c code) :
        readBasic (fuel + 1) seen
          ('\\' :: code ++ escapedText false 0 0 text ++ '"' :: rest) =
            some (String.ofList (seen.reverse ++ c :: text), rest) := by
      have hslash : ¬ '\\' = '"' := by decide
      rw [List.append_assoc, List.cons_append, readBasic, if_neg hslash, if_pos rfl, hcode.reads]
      exact hrest
    rw [escapedText]
    by_cases hquote : c = '"'
    · subst hquote
      exact escaped escape_quote
    · rw [if_neg hquote]
      rcases escapedChar_cases false c with ⟨code, hchar, hcode⟩ | ⟨hchar, hslash, htext⟩
      · rw [hchar]
        exact escaped hcode
      · have htext : isText c = true := by simpa using htext
        rw [hchar, List.singleton_append, List.cons_append, readBasic, if_neg hquote,
          if_neg hslash, if_pos htext]
        exact hrest

theorem readLiteral_text {text : List Char} (h : ∀ c ∈ text, isText c = true ∧ c ≠ '\'')
    (seen rest : List Char) :
    readLiteral seen (text ++ '\'' :: rest) =
      some (String.ofList (seen.reverse ++ text), rest) := by
  induction text generalizing seen with
  | nil => simp [readLiteral]
  | cons c text ih =>
    obtain ⟨⟨htext, hquote⟩, hrest⟩ := List.forall_mem_cons.1 h
    rw [List.cons_append, readLiteral, if_neg hquote, if_pos htext, ih hrest]
    simp

/-! ### Runs of quotes -/

/-- No more than `limit` marks stand in a row, `run` of them in front of the text. -/
def RunsWithin (mark : Char) (limit : Nat) : Nat → List Char → Prop
  | run, [] => run ≤ limit
  | run, c :: rest => run ≤ limit ∧ RunsWithin mark limit (if c = mark then run + 1 else 0) rest

theorem RunsWithin.le {mark : Char} {limit run : Nat} {text : List Char}
    (h : RunsWithin mark limit run text) : run ≤ limit := by
  cases text with
  | nil => exact h
  | cons => exact h.1

theorem RunsWithin.not_mem {mark : Char} {run : Nat} {text : List Char}
    (h : RunsWithin mark 0 run text) : mark ∉ text := by
  induction text generalizing run with
  | nil => exact List.not_mem_nil
  | cons c text ih =>
    intro hmem
    have hle := h.2.le
    rcases List.mem_cons.1 hmem with rfl | hmem
    · rw [if_pos rfl] at hle
      omega
    · exact ih h.2 hmem

theorem runsWithin_longestRun {mark : Char} {limit : Nat} {text : List Char}
    (h : longestRun mark text ≤ limit) : RunsWithin mark limit 0 text := by
  let count (runs : Nat × Nat) (c : Char) : Nat × Nat :=
    let current := if c = mark then runs.2 + 1 else 0
    (max runs.1 current, current)
  -- The fold keeps the longest run so far and the one that goes on.
  have within (text : List Char) (runs : Nat × Nat) (hruns : runs.2 ≤ runs.1)
      (hlimit : (text.foldl count runs).1 ≤ limit) :
      runs.1 ≤ limit ∧ RunsWithin mark limit runs.2 text := by
    induction text generalizing runs with
    | nil => exact ⟨hlimit, Nat.le_trans hruns hlimit⟩
    | cons c text ih =>
      obtain ⟨hlongest, hrest⟩ := ih (count runs c) (Nat.le_max_right ..) hlimit
      have hlongest : runs.1 ≤ limit := Nat.le_trans (Nat.le_max_left ..) hlongest
      exact ⟨hlongest, Nat.le_trans hruns hlongest, hrest⟩
  exact (within text (0, 0) (Nat.le_refl 0) h).2

/-! ### Strings on several lines -/

theorem takeWhile_replicate (count : Nat) {mark : Char} {rest : List Char}
    (h : rest.head? ≠ some mark) :
    (List.replicate count mark ++ rest).takeWhile (· = mark) = List.replicate count mark := by
  induction count with
  | zero => cases rest <;> simp_all
  | succ count ih => simp [List.replicate_succ, ih]

/-- A run of quotes is read at once. -/
theorem readLines_replicate {mark : Char} (hmark : mark ≠ '\r') (fuel count : Nat)
    (seen : List Char) {rest : List Char} (h : rest.head? ≠ some mark) :
    readLines mark (fuel + 1) seen (List.replicate (count + 1) mark ++ rest) =
      match quoteRun (count + 1) with
      | none => readLines mark fuel (List.replicate (count + 1) mark ++ seen) rest
      | some extra =>
        some (String.ofList (List.replicate extra mark ++ seen).reverse,
          (List.replicate (count + 1) mark ++ rest).drop (extra + 3)) := by
  have hrun := takeWhile_replicate (count + 1) h
  rw [List.replicate_succ, List.cons_append] at hrun ⊢
  rw [readLines, if_pos rfl]
  · simp only [hrun, List.length_cons, List.length_replicate]
    cases quoteRun (count + 1) with
    | none => simp [List.replicate_succ]
    | some extra => rfl
  · rintro _ heq
    exact absurd heq hmark

/-- With enough fuel, the contents of a string between triple quotes read as this. -/
def ReadsLines (mark : Char) (seen input : List Char) (result : String × List Char) : Prop :=
  ∀ fuel, input.length < fuel → readLines mark fuel seen input = some result

namespace ReadsLines

variable {mark : Char} {seen input : List Char} {result : String × List Char}

theorem char {c : Char} (hmark : c ≠ mark) (hslash : c = '\\' → mark ≠ '"')
    (htext : isText c = true ∨ c = '\n') (h : ReadsLines mark (c :: seen) input result) :
    ReadsLines mark seen (c :: input) result := by
  intro fuel hfuel
  obtain ⟨fuel, rfl⟩ := Nat.exists_eq_succ_of_ne_zero (Nat.ne_zero_of_lt hfuel)
  rw [readLines, if_neg hmark, if_neg fun hboth => hslash hboth.1 hboth.2, if_pos htext]
  · exact h fuel (Nat.lt_of_succ_lt_succ hfuel)
  · rintro _ rfl
    rcases htext with htext | htext <;> exact absurd htext (by decide)

theorem escape {c : Char} {code : List Char} (hcode : Escape c code)
    (h : ReadsLines '"' (c :: seen) input result) :
    ReadsLines '"' seen ('\\' :: code ++ input) result := by
  intro fuel hfuel
  obtain ⟨fuel, rfl⟩ := Nat.exists_eq_succ_of_ne_zero (Nat.ne_zero_of_lt hfuel)
  have hslash : ¬ '\\' = '"' := by decide
  rw [List.cons_append, readLines, if_neg hslash, if_pos ⟨rfl, rfl⟩, hcode.stays, hcode.reads]
  · refine h fuel ?_
    simp only [List.cons_append, List.length_cons, List.length_append] at hfuel
    omega
  · rintro _ heq
    cases heq

/-- Up to two quotes are contents if no third one follows. -/
theorem run (hmark : mark ≠ '\r') {count : Nat} (hcount : count ≤ 2)
    (hhead : input.head? ≠ some mark)
    (h : ReadsLines mark (List.replicate count mark ++ seen) input result) :
    ReadsLines mark seen (List.replicate count mark ++ input) result := by
  intro fuel hfuel
  cases count with
  | zero => exact h fuel hfuel
  | succ count =>
    obtain ⟨fuel, rfl⟩ := Nat.exists_eq_succ_of_ne_zero (Nat.ne_zero_of_lt hfuel)
    have hshort : quoteRun (count + 1) = none := if_pos (by omega)
    rw [Nat.succ_eq_add_one, readLines_replicate hmark _ _ _ hhead, hshort]
    refine h fuel ?_
    rw [List.length_append, List.length_replicate] at hfuel
    omega

/-- Three quotes end the string, with up to two more before them that are contents. -/
theorem close (hmark : mark ≠ '\r') {count : Nat} (hcount : count ≤ 2) {rest : List Char}
    (hhead : rest.head? ≠ some mark) :
    ReadsLines mark seen (List.replicate count mark ++ (List.replicate 3 mark ++ rest))
      (String.ofList (seen.reverse ++ List.replicate count mark), rest) := by
  intro fuel hfuel
  obtain ⟨fuel, rfl⟩ := Nat.exists_eq_succ_of_ne_zero (Nat.ne_zero_of_lt hfuel)
  have hextra : quoteRun (count + 2 + 1) = some count := by
    rw [quoteRun, if_neg (by omega)]
    exact congrArg some (by omega)
  rw [← List.append_assoc, List.replicate_append_replicate, Nat.succ_eq_add_one,
    readLines_replicate hmark _ (count + 2) _ hhead, hextra]
  simp

end ReadsLines

/-- The contents between three double quotes, behind quotes that were not read yet. -/
theorem readsLines_escapedText {text : List Char} {run : Nat} (hrun : run ≤ 2)
    (seen : List Char) {rest : List Char} (hhead : rest.head? ≠ some '"') :
    ReadsLines '"' seen
      (List.replicate run '"' ++ (escapedText true 2 run text ++ (List.replicate 3 '"' ++ rest)))
      (String.ofList (seen.reverse ++ (List.replicate run '"' ++ text)), rest) := by
  have hmark : '"' ≠ '\r' := by decide
  induction text generalizing run seen with
  | nil => simpa [escapedText] using ReadsLines.close hmark hrun hhead
  | cons c text ih =>
    have escaped {code : List Char} (hcode : Escape c code) :
        ReadsLines '"' seen
          (List.replicate run '"' ++
            ('\\' :: code ++ (escapedText true 2 0 text ++ (List.replicate 3 '"' ++ rest))))
          (String.ofList (seen.reverse ++ (List.replicate run '"' ++ c :: text)), rest) := by
      refine .run hmark hrun (by simp) (.escape hcode ?_)
      simpa using ih (Nat.zero_le 2) (c :: (List.replicate run '"' ++ seen))
    rw [escapedText]
    by_cases hquote : c = '"'
    · subst hquote
      rw [if_pos rfl]
      split_ifs with hmore
      · have hnext := ih (show run + 1 ≤ 2 from hmore) seen
        simpa [List.replicate_succ'] using hnext
      · simpa using escaped escape_quote
    · rw [if_neg hquote]
      rcases escapedChar_cases true c with ⟨code, hchar, hcode⟩ | ⟨hchar, hslash, htext⟩
      · rw [hchar, List.append_assoc]
        exact escaped hcode
      · rw [hchar, List.append_assoc, List.singleton_append]
        refine .run hmark hrun (by simpa using hquote) ?_
        refine .char hquote (fun h => absurd h hslash) (htext.imp id And.right) ?_
        simpa using ih (Nat.zero_le 2) (c :: (List.replicate run '"' ++ seen))

/-- The contents between three single quotes, behind quotes that were not read yet. -/
theorem readsLines_text {text : List Char} {run : Nat} (hrun : RunsWithin '\'' 2 run text)
    (htext : ∀ c ∈ text, isText c = true ∨ c = '\n') (seen : List Char) {rest : List Char}
    (hhead : rest.head? ≠ some '\'') :
    ReadsLines '\'' seen
      (List.replicate run '\'' ++ (text ++ (List.replicate 3 '\'' ++ rest)))
      (String.ofList (seen.reverse ++ (List.replicate run '\'' ++ text)), rest) := by
  have hmark : '\'' ≠ '\r' := by decide
  induction text generalizing run seen with
  | nil => simpa using ReadsLines.close hmark hrun.le hhead
  | cons c text ih =>
    obtain ⟨hc, hothers⟩ := List.forall_mem_cons.1 htext
    have hnext := hrun.2
    by_cases hquote : c = '\''
    · subst hquote
      rw [if_pos rfl] at hnext
      simpa [List.replicate_succ'] using ih hnext hothers seen
    · rw [if_neg hquote] at hnext
      refine .run hmark hrun.le (by simpa using hquote) ?_
      refine .char hquote (fun _ => by decide) hc ?_
      simpa using ih hnext hothers (c :: (List.replicate run '\'' ++ seen))

/-! ### The choice of quotes -/

/-- A text that can stand between these quotes as it is, if they allow no escapes. -/
def Quoting.Suits : Quoting → List Char → Prop
  | .basic, _ => True
  | .literal, text => ∀ c ∈ text, isText c = true ∧ c ≠ '\''
  | .basicLines, _ => True
  | .literalLines, text =>
    RunsWithin '\'' 2 0 text ∧ ∀ c ∈ text, isText c = true ∨ c = '\n'

theorem isText_or_newline {c : Char} (h : needsCode c = false) : isText c = true ∨ c = '\n' := by
  by_cases hnewline : c = '\n'
  · exact .inr hnewline
  · by_cases htab : c = '\t'
    · exact .inl (by rw [htab]; decide)
    · simp only [needsCode, htab, hnewline, decide_not, decide_false, Bool.not_false,
        Bool.and_true, Bool.or_eq_false_iff, decide_eq_false_iff_not] at h
      simp [isText, htab, h]
      omega

theorem suits_ofText (text : List Char) : (Quoting.ofText text).Suits text := by
  have plain (hcodes : text.any needsCode = false) :
      ∀ c ∈ text, isText c = true ∨ c = '\n' := fun c hc =>
    isText_or_newline (Bool.eq_false_iff.2 (List.any_eq_false.1 hcodes c hc))
  unfold Quoting.ofText
  dsimp only
  split_ifs with hbasic hliteral hlines hliteralLines hnewline
  · trivial
  · simp only [Bool.and_eq_true, Bool.not_eq_true', decide_eq_true_eq] at hliteral
    obtain ⟨⟨hcodes, hnewline⟩, hruns⟩ := hliteral
    have hquote := (runsWithin_longestRun (Nat.le_of_eq hruns)).not_mem
    refine fun c hc => ⟨(plain hcodes c hc).resolve_right ?_, ?_⟩
    · rintro rfl
      exact Bool.eq_false_iff.1 hnewline (List.contains_iff_mem.2 hc)
    · rintro rfl
      exact hquote hc
  · trivial
  · simp only [Bool.and_eq_true, Bool.not_eq_true', decide_eq_true_eq] at hliteralLines
    exact ⟨runsWithin_longestRun hliteralLines.2, plain hliteralLines.1⟩
  · trivial
  · trivial

theorem suits_ofKey (text : List Char) :
    Quoting.ofKey text = .basic ∨
      Quoting.ofKey text = .literal ∧ Quoting.Suits .literal text := by
  unfold Quoting.ofKey
  dsimp only
  split_ifs with hbasic hliteral
  · exact .inl rfl
  · simp only [Bool.and_eq_true, Bool.not_eq_true'] at hliteral
    refine .inr ⟨rfl, fun c hc => ⟨?_, ?_⟩⟩
    · have hcode := List.any_eq_false.1 hliteral.1 c hc
      simp only [Bool.or_eq_true, decide_eq_true_eq, not_or] at hcode
      simp [isText]
      omega
    · rintro rfl
      exact Bool.eq_false_iff.1 hliteral.2 (List.contains_iff_mem.2 hc)
  · exact .inl rfl

/-! ### Values and keys -/

/-- A character with a property is none of those without it. -/
theorem not_mem_of_all {p : Char → Bool} {c : Char} (h : p c = true) {others : List Char}
    (hothers : others.all (!p ·) = true) : c ∉ others := by
  intro hc
  simpa [h] using List.all_eq_true.1 hothers c hc

theorem ne_of_apply {p : Char → Bool} {c other : Char} (h : p c = true)
    (hother : p other = false) : c ≠ other := by
  rintro rfl
  simp [hother] at h

/-- What can stand behind a value: a blank, the end of the line, a comma or a closing bracket. -/
def EndsValue (rest : List Char) : Prop := ∃ c ∈ [' ', '\n', ',', ']'], rest.head? = some c

theorem EndsValue.head {rest : List Char} (h : EndsValue rest) {p : Char → Prop}
    (hp : ∀ c ∈ [' ', '\n', ',', ']'], p c) : ∀ c, rest.head? = some c → p c := by
  obtain ⟨first, hmem, hhead⟩ := h
  intro c hc
  rw [hhead, Option.some.injEq] at hc
  exact hc ▸ hp first hmem

theorem EndsValue.head_ne {rest : List Char} (h : EndsValue rest) (mark : Char)
    (hmark : mark ∉ [' ', '\n', ',', ']']) : rest.head? ≠ some mark := by
  intro hhead
  exact h.head (p := (· ≠ mark)) (fun c hc => fun heq => hmark (heq ▸ hc)) mark hhead rfl

theorem dropNewline_eq {input : List Char} (h : ∀ c, input.head? = some c → c ≠ '\n' ∧ c ≠ '\r') :
    dropNewline input = input := by
  unfold dropNewline
  split
  · exact absurd rfl (h '\n' rfl).1
  · exact absurd rfl (h '\r' rfl).2
  · rfl

theorem length_escapedText (lines : Bool) (allowed run : Nat) (text : List Char) :
    text.length ≤ (escapedText lines allowed run text).length := by
  induction text generalizing run with
  | nil => exact Nat.zero_le _
  | cons c text ih =>
    have hsame := ih (run + 1)
    have hzero := ih 0
    have hchar : 0 < (escapedChar lines c).length := by
      rcases escapedChar_cases lines c with ⟨code, hchar, -⟩ | ⟨hchar, -⟩ <;> simp [hchar]
    rw [escapedText]
    split_ifs <;> simp only [List.length_cons, List.length_append] <;> omega

/-- What an escaped text begins with. -/
theorem head_escapedText (lines : Bool) (allowed run : Nat) {text : List Char} (hne : text ≠ [])
    (rest : List Char) : ∃ c, (escapedText lines allowed run text ++ rest).head? = some c ∧
      (c = '"' → run < allowed) ∧ (isText c = true ∨ c = '\n' ∧ c ∈ text) := by
  have hslash : ('\\' = '"' → run < allowed) ∧ isText '\\' = true := ⟨nofun, by decide⟩
  cases text with
  | nil => exact absurd rfl hne
  | cons c text =>
    rw [escapedText]
    by_cases hquote : c = '"'
    · subst hquote
      rw [if_pos rfl]
      split_ifs with hrun
      · exact ⟨_, rfl, fun _ => hrun, .inl (by decide)⟩
      · exact ⟨_, rfl, hslash.1, .inl hslash.2⟩
    · rw [if_neg hquote]
      rcases escapedChar_cases lines c with ⟨code, hchar, -⟩ | ⟨hchar, -, htext⟩
      · rw [hchar]
        exact ⟨_, rfl, hslash.1, .inl hslash.2⟩
      · rw [hchar]
        have hhere : c ∈ c :: text := List.mem_cons_self
        exact ⟨c, rfl, fun h => absurd h hquote, htext.imp id fun h => ⟨h.2, hhere⟩⟩

/-- A line feed stands in front of the contents exactly if the text holds one. -/
theorem dropNewline_lead {text contents : List Char} (hhead : '\n' ∉ text →
      ∀ c, contents.head? = some c → isText c = true) :
    dropNewline ((if text.contains '\n' then ['\n'] else []) ++ contents) = contents := by
  split_ifs with hnewline
  · rfl
  · refine dropNewline_eq fun c hc => ?_
    have htext := hhead (by simpa using hnewline) c hc
    exact ⟨ne_of_apply htext rfl, ne_of_apply htext rfl⟩

section Strings

variable (fuel : Nat) (nested : Option (List Char → Reading Value)) {text rest : List Char}
  (hrest : EndsValue rest)

include hrest

theorem readWith_basic (hfuel : (quotedText .basic text ++ rest).length < fuel) :
    readWith fuel nested (quotedText .basic text ++ rest) =
      some (.string (String.ofList text), rest) := by
  have hquote := hrest.head_ne '"' (by decide)
  have hinput : quotedText .basic text ++ rest =
      '"' :: (escapedText false 0 0 text ++ '"' :: rest) := by
    simp [quotedText, Quoting.quotes]
  have hlength : text.length < fuel := by
    have hescaped := length_escapedText false 0 0 text
    simp only [hinput, List.length_cons, List.length_append] at hfuel
    omega
  rw [hinput, readWith, readBasic_escapedText hlength]
  · rfl
  · intro input heq
    cases text with
    | nil =>
      cases heq
      exact hquote rfl
    | cons c text =>
      obtain ⟨first, hhead, hfirst, -⟩ :=
        head_escapedText false 0 0 (List.cons_ne_nil c text) ('"' :: rest)
      rw [heq, List.head?_cons, Option.some.injEq] at hhead
      exact Nat.not_lt_zero _ (hfirst hhead.symm)

theorem readWith_literal (htext : Quoting.Suits .literal text) :
    readWith fuel nested (quotedText .literal text ++ rest) =
      some (.string (String.ofList text), rest) := by
  have hquote := hrest.head_ne '\'' (by decide)
  have hinput : quotedText .literal text ++ rest = '\'' :: (text ++ '\'' :: rest) := by
    simp [quotedText, Quoting.quotes]
  rw [hinput, readWith, readLiteral_text htext]
  · rfl
  · intro input heq
    cases text with
    | nil =>
      cases heq
      exact hquote rfl
    | cons c text =>
      rw [List.cons_append, List.cons.injEq] at heq
      exact (htext c List.mem_cons_self).2 heq.1

theorem readWith_basicLines (hfuel : (quotedText .basicLines text ++ rest).length < fuel) :
    readWith fuel nested (quotedText .basicLines text ++ rest) =
      some (.string (String.ofList text), rest) := by
  have hquote := hrest.head_ne '"' (by decide)
  let contents := escapedText true 2 0 text ++ (List.replicate 3 '"' ++ rest)
  have hinput : quotedText .basicLines text ++ rest = '"' :: '"' :: '"' ::
      ((if text.contains '\n' then ['\n'] else []) ++ contents) := by
    simp [quotedText, Quoting.quotes, contents, List.replicate]
  have hhead (hnewline : '\n' ∉ text) (c : Char) (hc : contents.head? = some c) :
      isText c = true := by
    cases text with
    | nil =>
      cases hc
      decide
    | cons first text =>
      obtain ⟨first', hfirst, -, htext⟩ :=
        head_escapedText true 2 0 (List.cons_ne_nil first text) (List.replicate 3 '"' ++ rest)
      obtain rfl : first' = c := Option.some.inj (hfirst.symm.trans hc)
      exact htext.resolve_right fun h => hnewline (h.1 ▸ h.2)
  have hreads : ReadsLines '"' [] contents (String.ofList text, rest) :=
    readsLines_escapedText (Nat.zero_le 2) [] hquote
  rw [hinput] at hfuel ⊢
  rw [readWith, dropNewline_lead hhead, hreads fuel]
  · rfl
  · simp only [List.length_cons, List.length_append] at hfuel ⊢
    omega

theorem readWith_literalLines (htext : Quoting.Suits .literalLines text)
    (hfuel : (quotedText .literalLines text ++ rest).length < fuel) :
    readWith fuel nested (quotedText .literalLines text ++ rest) =
      some (.string (String.ofList text), rest) := by
  have hquote := hrest.head_ne '\'' (by decide)
  let contents := text ++ (List.replicate 3 '\'' ++ rest)
  have hinput : quotedText .literalLines text ++ rest = '\'' :: '\'' :: '\'' ::
      ((if text.contains '\n' then ['\n'] else []) ++ contents) := by
    simp [quotedText, Quoting.quotes, contents, List.replicate]
  have hhead (hnewline : '\n' ∉ text) (c : Char) (hc : contents.head? = some c) :
      isText c = true := by
    cases text with
    | nil =>
      cases hc
      decide
    | cons first text =>
      obtain rfl : first = c := Option.some.inj hc
      refine (htext.2 first List.mem_cons_self).resolve_right ?_
      rintro rfl
      exact hnewline List.mem_cons_self
  have hreads : ReadsLines '\'' [] contents (String.ofList text, rest) :=
    readsLines_text htext.1 htext.2 [] hquote
  rw [hinput] at hfuel ⊢
  rw [readWith, dropNewline_lead hhead, hreads fuel]
  · rfl
  · simp only [List.length_cons, List.length_append] at hfuel ⊢
    omega

/-- A string is read back from its text. -/
theorem readWith_stringText (text : String) (hfuel : (stringText text ++ rest).length < fuel) :
    readWith fuel nested (stringText text ++ rest) = some (.string text, rest) := by
  have hsuits := suits_ofText text.toList
  rw [stringText] at hfuel ⊢
  cases hquoting : Quoting.ofText text.toList with
  | basic =>
    rw [hquoting] at hfuel
    simpa using readWith_basic fuel nested hrest hfuel
  | literal =>
    rw [hquoting] at hsuits
    simpa using readWith_literal fuel nested hrest hsuits
  | basicLines =>
    rw [hquoting] at hfuel
    simpa using readWith_basicLines fuel nested hrest hfuel
  | literalLines =>
    rw [hquoting] at hfuel hsuits
    simpa using readWith_literalLines fuel nested hrest hsuits hfuel

end Strings

end DocumentServer.Toml
