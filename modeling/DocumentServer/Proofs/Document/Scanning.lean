import DocumentServer.Document.Reader
import Mathlib.Tactic.SplitIfs

/-! How deep a text nests, told without reading it as a document: a scan goes through the bytes once
and counts the brackets outside strings. What the readers of words, numbers and strings take from a
text leaves the scan at the level where it stood. -/
namespace DocumentServer.Document

inductive ScanMode where
  | outside
  /-- Inside a string. -/
  | inside
  /-- Inside a string, behind a backslash. -/
  | escaped
  deriving DecidableEq, Repr

structure Scan where
  mode : ScanMode
  /-- The brackets that are open. -/
  level : Nat
  /-- The most brackets that were open at once. -/
  deepest : Nat
  deriving DecidableEq, Repr

def Scan.step (scan : Scan) (b : UInt8) : Scan :=
  match scan.mode with
  | .escaped => { scan with mode := .inside }
  | .inside =>
    if b = 34 then { scan with mode := .outside }
    else if b = 92 then { scan with mode := .escaped }
    else scan
  | .outside =>
    if b = 34 then { scan with mode := .inside }
    else if b = 91 ∨ b = 123 then
      { scan with level := scan.level + 1, deepest := max scan.deepest (scan.level + 1) }
    else if b = 93 ∨ b = 125 then { scan with level := scan.level - 1 }
    else scan

/-- The most brackets of a text that are open at once. -/
def nesting (input : Bytes) : Nat := (input.foldl Scan.step ⟨.outside, 0, 0⟩).deepest

theorem Scan.step_le (scan : Scan) (b : UInt8) {n : Nat} (hlevel : scan.level ≤ n)
    (hdeepest : scan.deepest ≤ n) :
    (scan.step b).level ≤ n + 1 ∧ (scan.step b).deepest ≤ n + 1 := by
  obtain ⟨mode, level, deepest⟩ := scan
  dsimp only at hlevel hdeepest
  cases mode with
  | escaped => exact ⟨Nat.le_succ_of_le hlevel, Nat.le_succ_of_le hdeepest⟩
  | inside => simp only [Scan.step]; split_ifs <;> dsimp only <;> omega
  | outside => simp only [Scan.step]; split_ifs <;> dsimp only <;> omega

theorem Scan.deepest_foldl (input : Bytes) (scan : Scan) (n : Nat) (hlevel : scan.level ≤ n)
    (hdeepest : scan.deepest ≤ n) : (input.foldl Scan.step scan).deepest ≤ n + input.length := by
  induction input generalizing scan n with
  | nil => exact hdeepest
  | cons b input ih =>
    obtain ⟨hlevel, hdeepest⟩ := scan.step_le b hlevel hdeepest
    have := ih (scan.step b) (n + 1) hlevel hdeepest
    rw [List.foldl_cons, List.length_cons]
    omega

/-- A text has no more levels than bytes. -/
theorem nesting_le (input : Bytes) : nesting input ≤ input.length := by
  have := Scan.deepest_foldl input ⟨.outside, 0, 0⟩ 0 (Nat.le_refl _) (Nat.le_refl _)
  rwa [Nat.zero_add] at this

/-! ### Parts that leave the level as it is -/

/-- The text up to `rest` takes a scan from one mode to another and opens nothing. -/
def Passes (mode mode' : ScanMode) (input rest : Bytes) : Prop :=
  ∃ part, input = part ++ rest ∧ ∀ level deepest,
    part.foldl Scan.step ⟨mode, level, deepest⟩ = ⟨mode', level, deepest⟩

theorem Passes.refl (mode : ScanMode) (input : Bytes) : Passes mode mode input input :=
  ⟨[], rfl, fun _ _ => rfl⟩

theorem Passes.trans {m₁ m₂ m₃ : ScanMode} {a b c : Bytes} (h : Passes m₁ m₂ a b)
    (h' : Passes m₂ m₃ b c) : Passes m₁ m₃ a c := by
  obtain ⟨part, rfl, hpart⟩ := h
  obtain ⟨part', rfl, hpart'⟩ := h'
  refine ⟨part ++ part', (List.append_assoc ..).symm, fun level deepest => ?_⟩
  rw [List.foldl_append, hpart, hpart']

/-- One byte is taken. -/
theorem Passes.cons {m₁ m₂ m₃ : ScanMode} {b : UInt8} {input rest : Bytes}
    (hstep : ∀ level deepest, Scan.step ⟨m₁, level, deepest⟩ b = ⟨m₂, level, deepest⟩)
    (h : Passes m₂ m₃ input rest) : Passes m₁ m₃ (b :: input) rest := by
  obtain ⟨part, rfl, hpart⟩ := h
  refine ⟨b :: part, rfl, fun level deepest => ?_⟩
  rw [List.foldl_cons, hstep, hpart]

def Plain (b : UInt8) : Prop := b ≠ 34 ∧ b ≠ 91 ∧ b ≠ 123 ∧ b ≠ 93 ∧ b ≠ 125

instance (b : UInt8) : Decidable (Plain b) := inferInstanceAs (Decidable (_ ∧ _))

theorem Plain.passes {b : UInt8} (h : Plain b) {input rest : Bytes}
    (hrest : Passes .outside .outside input rest) : Passes .outside .outside (b :: input) rest := by
  obtain ⟨hquote, hopen, hopen', hclose, hclose'⟩ := h
  refine hrest.cons fun level deepest => ?_
  simp [Scan.step, hquote, hopen, hopen', hclose, hclose']

theorem passes_dropWhile {p : UInt8 → Bool} (h : ∀ b, p b = true → Plain b) (input : Bytes) :
    Passes .outside .outside input (input.dropWhile p) := by
  induction input with
  | nil => exact .refl _ _
  | cons b input ih =>
    rw [List.dropWhile_cons]
    split
    next hb => exact (h b hb).passes ih
    next => exact .refl _ _

theorem plain_of_isBlank {b : UInt8} (h : isBlank b = true) : Plain b := by
  simp only [isBlank, Bool.or_eq_true, beq_iff_eq] at h
  rcases h with ((rfl | rfl) | rfl) | rfl <;> decide

theorem plain_of_isDigit {b : UInt8} (h : isDigit b = true) : Plain b := by
  refine ⟨?_, ?_, ?_, ?_, ?_⟩ <;> rintro rfl <;> cases h

theorem passes_skipBlanks (input : Bytes) : Passes .outside .outside input (skipBlanks input) :=
  passes_dropWhile (fun _ => plain_of_isBlank) input

/-! ### Words and numbers -/

theorem passes_readWord {value document : Document} {word input rest : Bytes}
    (hword : ∀ b ∈ word, Plain b) (h : readWord value word input = .ok (document, rest)) :
    document = value ∧ Passes .outside .outside input rest := by
  induction word generalizing input with
  | nil =>
    simp only [readWord, Except.ok.injEq, Prod.mk.injEq] at h
    obtain ⟨rfl, rfl⟩ := h
    exact ⟨rfl, .refl _ _⟩
  | cons want word ih =>
    obtain ⟨hwant, hword⟩ := List.forall_mem_cons.1 hword
    cases input with
    | nil => cases h
    | cons b input =>
      rw [readWord] at h
      split at h
      next same =>
        obtain ⟨hdocument, hpasses⟩ := ih hword h
        exact ⟨hdocument, (same ▸ hwant).passes hpasses⟩
      next => cases h

theorem passes_readDigits (limit number count : Nat) (input : Bytes) :
    Passes .outside .outside input (readDigits limit number count input).2.2 := by
  induction input generalizing number count with
  | nil => exact .refl _ _
  | cons b input ih =>
    rw [readDigits]
    split
    next h =>
      rw [Bool.and_eq_true] at h
      exact (plain_of_isDigit h.1).passes (ih _ _)
    next => exact .refl _ _

/-- A document without brackets, and without a text behind it that a scan would notice. -/
def TakesScalar (result : Reading Document) (input : Bytes) : Prop :=
  ∀ document rest, result = .ok (document, rest) →
    document.Canonical ∧ document.depth = 0 ∧ Passes .outside .outside input rest

theorem takesScalar_error (fault : Fault) (input : Bytes) : TakesScalar (.error fault) input :=
  fun _ _ h => nomatch h

theorem TakesScalar.ok {document : Document} {input rest : Bytes}
    (hcanonical : document.Canonical) (hdepth : document.depth = 0)
    (hpasses : Passes .outside .outside input rest) : TakesScalar (.ok (document, rest)) input := by
  rintro _ _ ⟨⟩
  exact ⟨hcanonical, hdepth, hpasses⟩

theorem TakesScalar.behind {result : Reading Document} {input rest : Bytes}
    (h : TakesScalar result rest) (hpasses : Passes .outside .outside input rest) :
    TakesScalar result input := by
  intro document rest' hresult
  obtain ⟨hcanonical, hdepth, hrest⟩ := h document rest' hresult
  exact ⟨hcanonical, hdepth, hpasses.trans hrest⟩

theorem takesScalar_finishReal (negative : Bool) (significand : Nat) (power : Int) (rest : Bytes) :
    TakesScalar (finishReal negative significand power rest) rest := by
  unfold finishReal
  split
  · exact .ok (.real _) rfl (.refl _ _)
  · exact takesScalar_error _ _

theorem takesScalar_readExponent (negative : Bool) (significand : Nat) (power : Int)
    (input : Bytes) : TakesScalar (readExponent negative significand power input) input := by
  unfold readExponent
  split
  next lowers input' h =>
    have hsign : Passes .outside .outside input input' := by
      split at h
      all_goals obtain ⟨rfl, rfl⟩ := Prod.mk.inj h
      · exact Plain.passes (by decide) (.refl _ _)
      · exact Plain.passes (by decide) (.refl _ _)
      · exact .refl _ _
    refine TakesScalar.behind ?_ hsign
    split
    · exact takesScalar_error _ _
    next b rest =>
      split
      next hb =>
        have hdigits := passes_readDigits maxDecimalExponent (digitValue b) 0 rest
        refine TakesScalar.behind ?_ ((plain_of_isDigit hb).passes hdigits)
        rcases readDigits maxDecimalExponent (digitValue b) 0 rest with ⟨exponent, count, rest⟩
        dsimp only
        split_ifs
        · exact takesScalar_error _ _
        · exact .ok (.real _) rfl (passes_dropWhile (fun _ => plain_of_isDigit) _)
        · exact takesScalar_finishReal _ _ _ _
        · exact takesScalar_finishReal _ _ _ _
      · exact takesScalar_error _ _

theorem takesScalar_readTail (negative : Bool) (significand : Nat) (power : Int) (input : Bytes) :
    TakesScalar (readTail negative significand power input) input := by
  unfold readTail
  split
  next b rest =>
    split
    next h =>
      have hb : Plain b := by
        simp only [Bool.or_eq_true, decide_eq_true_eq] at h
        rcases h with rfl | rfl <;> decide
      exact (takesScalar_readExponent _ _ _ _).behind (hb.passes (.refl _ _))
    next => exact takesScalar_finishReal _ _ _ _
  · exact takesScalar_finishReal _ _ _ _

theorem takesScalar_readFraction (negative : Bool) (significand : Nat) (power : Int)
    (input : Bytes) : TakesScalar (readFraction negative significand power input) input := by
  have hdigits := passes_readDigits maxSignificand significand 0 input
  unfold readFraction
  refine TakesScalar.behind ?_ hdigits
  rcases readDigits maxSignificand significand 0 input with ⟨significand, count, rest⟩
  dsimp only
  split_ifs
  · exact (takesScalar_readTail _ _ _ _).behind (passes_dropWhile (fun _ => plain_of_isDigit) _)
  · split <;> exact takesScalar_error _ _
  · exact takesScalar_readTail _ _ _ _

theorem integerOf_scalar (negative : Bool) (significand : Nat) :
    (integerOf negative significand).Canonical ∧ (integerOf negative significand).depth = 0 := by
  unfold integerOf
  split_ifs
  · exact ⟨.real _, rfl⟩
  · exact ⟨.integer _, rfl⟩
  · exact ⟨.integer _, rfl⟩

theorem takesScalar_readAfterInteger (negative : Bool) (significand : Nat) (input : Bytes) :
    TakesScalar (readAfterInteger negative significand input) input := by
  obtain ⟨hcanonical, hdepth⟩ := integerOf_scalar negative significand
  unfold readAfterInteger
  split
  next b rest =>
    split_ifs with hpoint hexponent
    · exact (takesScalar_readFraction _ _ _ _).behind
        (Plain.passes (hpoint ▸ by decide) (.refl _ _))
    · have hb : Plain b := by
        simp only [Bool.or_eq_true, decide_eq_true_eq] at hexponent
        rcases hexponent with rfl | rfl <;> decide
      exact (takesScalar_readExponent _ _ _ _).behind (hb.passes (.refl _ _))
    · exact .ok hcanonical hdepth (.refl _ _)
  · exact .ok hcanonical hdepth (.refl _ _)

theorem takesScalar_readLongInteger (negative : Bool) (significand : Nat) (input : Bytes) :
    TakesScalar (readLongInteger negative significand input) input := by
  have hdigits := passes_dropWhile (fun _ => plain_of_isDigit) input
  unfold readLongInteger
  refine TakesScalar.behind ?_ hdigits
  dsimp only
  split
  next rest h =>
    rw [h]
    exact (takesScalar_readFraction _ _ _ _).behind (Plain.passes (by decide) (.refl _ _))
  · exact takesScalar_readTail _ _ _ _

theorem takesScalar_readNumber (negative : Bool) (input : Bytes) :
    TakesScalar (readNumber negative input) input := by
  unfold readNumber
  split
  · exact takesScalar_error _ _
  next b rest =>
    split_ifs with hzero _ hdigit
    · exact takesScalar_error _ _
    · exact (takesScalar_readAfterInteger _ _ _).behind
        (Plain.passes (hzero ▸ by decide) (.refl _ _))
    · have hdigits := passes_readDigits maxSignificand (digitValue b) 0 rest
      refine TakesScalar.behind ?_ ((plain_of_isDigit hdigit).passes hdigits)
      rcases readDigits maxSignificand (digitValue b) 0 rest with ⟨significand, count, rest⟩
      dsimp only
      split_ifs
      · exact takesScalar_readLongInteger _ _ _
      · exact takesScalar_readAfterInteger _ _ _
    · exact takesScalar_error _ _

/-! ### Strings -/

theorem passes_inside {b : UInt8} (hquote : b ≠ 34) (hslash : b ≠ 92) {mode : ScanMode}
    {input rest : Bytes} (h : Passes .inside mode input rest) :
    Passes .inside mode (b :: input) rest := by
  refine h.cons fun level deepest => ?_
  simp [Scan.step, hquote, hslash]

theorem passes_slash {mode : ScanMode} {input rest : Bytes} (h : Passes .escaped mode input rest) :
    Passes .inside mode (92 :: input) rest :=
  h.cons fun _ _ => rfl

theorem passes_escaped (b : UInt8) {mode : ScanMode} {input rest : Bytes}
    (h : Passes .inside mode input rest) : Passes .escaped mode (b :: input) rest :=
  h.cons fun _ _ => rfl

/-- A hexadecimal digit stands inside a string. -/
theorem passes_hexadecimal {b : UInt8} {n : Nat} (hb : Hexadecimal.value? b = some n)
    {mode : ScanMode} {input rest : Bytes} (h : Passes .inside mode input rest) :
    Passes .inside mode (b :: input) rest := by
  refine passes_inside ?_ ?_ h <;> rintro rfl <;> cases hb

theorem passes_readHex {input rest : Bytes} {value : Nat}
    (h : readHex input = .ok (value, rest)) : Passes .inside .inside input rest := by
  unfold readHex at h
  split at h
  next a b c d rest' =>
    split at h
    next digits hdigits =>
      obtain ⟨rfl, rfl⟩ := Prod.mk.inj (Except.ok.inj h)
      simp only [List.mapM_cons, List.mapM_nil, Option.bind_eq_bind, Option.bind_eq_some_iff]
        at hdigits
      obtain ⟨_, ha, _, ⟨_, hb, _, ⟨_, hc, _, ⟨_, hd, -⟩, -⟩, -⟩, -⟩ := hdigits
      exact passes_hexadecimal ha (passes_hexadecimal hb
        (passes_hexadecimal hc (passes_hexadecimal hd (.refl _ _))))
    next => cases h
  next => cases h

theorem passes_readLowSurrogate {high : Nat} {input rest : Bytes} {c : Char}
    (h : readLowSurrogate high input = .ok (c, rest)) : Passes .inside .inside input rest := by
  rcases input with _ | ⟨b, _ | ⟨b', input⟩⟩
  · cases h
  · simp only [readLowSurrogate] at h
    split at h <;> cases h
  · simp only [readLowSurrogate] at h
    split_ifs at h with hslash hletter
    subst hslash
    split at h
    next => cases h
    next low rest' hhex =>
      split_ifs at h
      obtain ⟨-, rfl⟩ := Prod.mk.inj (Except.ok.inj h)
      exact passes_slash (passes_escaped b' (passes_readHex hhex))

theorem passes_readNumbered {input rest : Bytes} {c : Char}
    (h : readNumbered input = .ok (c, rest)) : Passes .inside .inside input rest := by
  unfold readNumbered at h
  split at h
  next => cases h
  next code rest' hhex =>
    have hdigits := passes_readHex hhex
    split_ifs at h
    · exact hdigits.trans (passes_readLowSurrogate h)
    · obtain ⟨rfl, rfl⟩ := Prod.mk.inj (Except.ok.inj h)
      exact hdigits

theorem passes_readEscape {input rest : Bytes} {c : Char}
    (h : readEscape input = .ok (c, rest)) : Passes .escaped .inside input rest := by
  unfold readEscape at h
  split at h
  next => cases h
  next b input =>
    split at h
    next => exact passes_escaped b (passes_readNumbered h)
    next =>
      split at h
      next =>
        obtain ⟨rfl, rfl⟩ := Prod.mk.inj (Except.ok.inj h)
        exact passes_escaped b (.refl _ _)
      next => cases h

theorem passes_readContents {fuel : Nat} {seen input rest contents : Bytes}
    (h : readContents fuel seen input = .ok (contents, rest)) :
    Passes .inside .outside input rest := by
  induction fuel generalizing seen input with
  | zero => cases h
  | succ fuel ih =>
    cases input with
    | nil => cases h
    | cons b input =>
      rw [readContents] at h
      split_ifs at h with hquote hslash hcontrol
      · obtain ⟨rfl, rfl⟩ := Prod.mk.inj (Except.ok.inj h)
        subst hquote
        exact .cons (fun _ _ => rfl) (.refl _ _)
      · subst hslash
        split at h
        next => cases h
        next c rest' hescape => exact passes_slash ((passes_readEscape hescape).trans (ih h))
      · exact passes_inside hquote hslash (ih h)

/-- A string is passed from its opening quote to its closing one. -/
theorem passes_readString {fuel : Nat} {input rest : Bytes} {text : String}
    (h : readString fuel input = .ok (text, rest)) :
    Passes .outside .outside (34 :: input) rest := by
  unfold readString at h
  split at h
  next => cases h
  next contents rest' hcontents =>
    split at h
    next =>
      obtain ⟨rfl, rfl⟩ := Prod.mk.inj (Except.ok.inj h)
      exact .cons (fun _ _ => rfl) (passes_readContents hcontents)
    next => cases h

end DocumentServer.Document
