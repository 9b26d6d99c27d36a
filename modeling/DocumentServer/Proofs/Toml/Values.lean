import DocumentServer.Proofs.Toml.Scalars
import Mathlib.Data.List.Nodup

/-! Values of a configuration text. A value without moments and fractions is read back from its
text by a reader that has room for its brackets, whatever stands behind it that can. -/
namespace DocumentServer.Toml

/-- A value without moments and numbers with fractions, whose integers have 64 bits and whose tables
name every entry once. No more than `room` of its brackets are open at once. -/
inductive Value.Fits : Nat → Value → Prop
  | string {room : Nat} (text : String) : Fits room (.string text)
  | integer {room : Nat} {n : Int} :
      Document.minInteger ≤ n → n ≤ Document.maxSigned → Fits room (.integer n)
  | boolean {room : Nat} (value : Bool) : Fits room (.boolean value)
  | array {room : Nat} {items : List Value} :
      (∀ item ∈ items, Fits room item) → Fits (room + 1) (.array items)
  | table {room : Nat} {entries : List (String × Value)} : (entries.map (·.1)).Nodup →
      (∀ entry ∈ entries, Fits room entry.2) → Fits (room + 1) (.table entries)

/-! ### What a value begins with -/

/-- A character that the text of a value can begin with. -/
def opensValue (c : Char) : Bool := c.isDigit || ['"', '\'', '-', 't', 'f', '[', '\x7b'].contains c

theorem opensValue_quotedText (quoting : Quoting) (text : List Char) :
    ∃ c rest, quotedText quoting text = c :: rest ∧ opensValue c = true := by
  cases quoting <;> exact ⟨_, _, rfl, rfl⟩

theorem opensValue_integerText (n : Int) :
    ∃ c rest, integerText n = c :: rest ∧ opensValue c = true := by
  have h := integerWord n
  cases htext : integerText n with
  | nil =>
    have hsigned := h.signed
    rw [htext] at hsigned
    have hnonempty := h.nonempty
    split_ifs at hsigned
    exact absurd hsigned.symm hnonempty
  | cons c rest =>
    refine ⟨c, rest, rfl, ?_⟩
    rcases h.mem (htext ▸ List.mem_cons_self) with rfl | hdigit
    · rfl
    · simp [opensValue, hdigit]

theorem Value.Fits.opensValue {room : Nat} {value : Value} (h : value.Fits room) :
    ∃ c rest, valueText value = c :: rest ∧ opensValue c = true := by
  cases h with
  | string text =>
    rw [valueText]
    exact opensValue_quotedText _ _
  | integer =>
    rw [valueText]
    exact opensValue_integerText _
  | boolean value => cases value <;> exact ⟨_, _, rfl, rfl⟩
  | @array _ items =>
    cases items with
    | nil => exact ⟨_, _, rfl, rfl⟩
    | cons item items =>
      cases items with
      | nil => exact ⟨_, _, by rw [valueText], rfl⟩
      | cons => exact ⟨_, _, by rw [valueText]; simp, rfl⟩
  | @table _ entries =>
    cases entries with
    | nil => exact ⟨_, _, rfl, rfl⟩
    | cons entry entries => exact ⟨_, _, by rw [valueText], rfl⟩

theorem skipSpace_cons {c : Char} (h : c ∉ ['\n', '\r', ' ', '\t', '#']) (rest : List Char) :
    skipSpace false (c :: rest) = c :: rest := by
  simp only [List.mem_cons, List.not_mem_nil, or_false, not_or] at h
  unfold skipSpace
  split <;> simp_all [isBlank]

/-- Nothing is skipped before a value. -/
theorem skip_opensValue {c : Char} (h : opensValue c = true) (rest : List Char) :
    skipSpace false (c :: rest) = c :: rest ∧ skipBlanks (c :: rest) = c :: rest :=
  ⟨skipSpace_cons (not_mem_of_all h (by decide)) rest,
    skipBlanks_cons (not_mem_of_all h (by decide)) rest⟩

/-! ### Arrays -/

/-- The value is read back from its text if there is enough fuel for it. -/
def Reads (fuel : Nat) (read : List Char → Reading Value) (value : Value) : Prop :=
  ∀ rest, EndsValue rest → (valueText value ++ rest).length < fuel →
    read (valueText value ++ rest) = some (value, rest)

/-- What is read of an array is the value of an item and what stands behind it. -/
theorem readItems_item {fuel room : Nat} {read : List Char → Reading Value} {item : Value}
    (hfits : item.Fits room) (hread : Reads fuel read item) {rest : List Char}
    (hrest : EndsValue rest) (hfuel : (valueText item ++ rest).length < fuel) (count : Nat)
    (seen : List Value) {input : List Char}
    (hinput : skipSpace false input = valueText item ++ rest) :
    readItems read (count + 1) seen input =
      match skipSpace false rest with
      | ',' :: rest => readItems read count (item :: seen) rest
      | ']' :: rest => some (.array (item :: seen).reverse, rest)
      | _ => none := by
  obtain ⟨c, text, htext, hc⟩ := hfits.opensValue
  have hvalue := hread rest hrest hfuel
  have hclosing : c ≠ ']' := ne_of_apply hc rfl
  rw [htext, List.cons_append] at hinput hvalue
  rw [readItems, hinput]
  split
  next heq =>
    cases heq
    exact absurd rfl hclosing
  next =>
    split
    next heq =>
      rw [hvalue] at heq
      cases heq
    next heq =>
      rw [hvalue] at heq
      cases heq
      rfl

theorem readItems_itemLines {fuel room : Nat} {read : List Char → Reading Value}
    {items : List Value} (hfits : ∀ item ∈ items, item.Fits room)
    (hread : ∀ item ∈ items, Reads fuel read item) (rest : List Char) {count : Nat}
    (hcount : items.length < count) (hfuel : (itemLines items ++ rest).length < fuel)
    (seen : List Value) :
    readItems read count seen (itemLines items ++ rest) =
      some (.array (seen.reverse ++ items), rest) := by
  induction items generalizing count seen with
  | nil =>
    obtain ⟨count, rfl⟩ := Nat.exists_eq_succ_of_ne_zero (Nat.ne_zero_of_lt hcount)
    have hclosing : isBlank ']' = false := by decide
    simp [itemLines, readItems, skipSpace, hclosing]
  | cons item items ih =>
    obtain ⟨count, rfl⟩ := Nat.exists_eq_succ_of_ne_zero (Nat.ne_zero_of_lt hcount)
    obtain ⟨hitem, hothers⟩ := List.forall_mem_cons.1 hfits
    obtain ⟨hitemRead, hothersRead⟩ := List.forall_mem_cons.1 hread
    obtain ⟨c, text, htext, hc⟩ := hitem.opensValue
    let behind := ',' :: (itemLines items ++ rest)
    have hinput : skipSpace false (itemLines (item :: items) ++ rest) =
        valueText item ++ behind := by
      have hskip := (skip_opensValue hc (text ++ behind)).1
      simp only [itemLines, htext, List.cons_append, List.append_assoc, List.nil_append]
      simpa [skipSpace, isBlank] using hskip
    have hlength : (itemLines (item :: items) ++ rest).length =
        (valueText item ++ behind).length + 5 := by
      simp [itemLines, behind]
    have hbehind : EndsValue behind := ⟨',', by decide, rfl⟩
    have hcomma : skipSpace false behind = behind :=
      skipSpace_cons (by decide) _
    rw [Nat.succ_eq_add_one, readItems_item hitem hitemRead hbehind (by omega) count seen hinput,
      hcomma]
    have hmore : (itemLines items ++ rest).length < fuel := by
      rw [hlength] at hfuel
      simp only [behind, List.length_append, List.length_cons] at hfuel ⊢
      omega
    simpa [behind] using ih hothers hothersRead (Nat.lt_of_succ_lt_succ hcount) hmore (item :: seen)

theorem valueText_items (item item' : Value) (items : List Value) :
    valueText (.array (item :: item' :: items)) = '[' :: itemLines (item :: item' :: items) := by
  rw [valueText]
  · simp [itemLines]
  · simp

theorem length_itemLines (items : List Value) : items.length < (itemLines items).length := by
  induction items with
  | nil => decide
  | cons item items ih =>
    simp [itemLines]
    omega

theorem reads_array {fuel room : Nat} {items : List Value}
    (hfits : ∀ item ∈ items, item.Fits room)
    (hread : ∀ item ∈ items, Reads fuel (readValue fuel room) item) :
    Reads fuel (readValue fuel (room + 1)) (.array items) := by
  intro rest hrest hfuel
  have hopen (input : List Char) : readValue fuel (room + 1) ('[' :: input) =
      readItems (readValue fuel room) fuel [] input := by
    rw [readValue, readWith]
    rfl
  cases items with
  | nil =>
    obtain ⟨fuel, rfl⟩ := Nat.exists_eq_succ_of_ne_zero (Nat.ne_zero_of_lt hfuel)
    rw [valueText, List.cons_append, List.singleton_append, hopen, readItems,
      skipSpace_cons (by decide)]
    rfl
  | cons item items =>
    cases items with
    | nil =>
      have hitem := hfits item List.mem_cons_self
      have hbehind : EndsValue (']' :: rest) := ⟨']', by decide, rfl⟩
      obtain ⟨fuel, rfl⟩ := Nat.exists_eq_succ_of_ne_zero (Nat.ne_zero_of_lt hfuel)
      obtain ⟨c, text, htext, hc⟩ := hitem.opensValue
      have hinput : valueText (.array [item]) ++ rest =
          '[' :: (valueText item ++ ']' :: rest) := by
        simp [valueText]
      have hskip : skipSpace false (valueText item ++ ']' :: rest) =
          valueText item ++ ']' :: rest := by
        rw [htext]
        exact (skip_opensValue hc _).1
      rw [hinput, List.length_cons] at hfuel
      rw [hinput, hopen, readItems_item hitem (hread item List.mem_cons_self) hbehind (by omega) _
        [] hskip, skipSpace_cons (by decide)]
      rfl
    | cons item' items =>
      have hlines := length_itemLines (item :: item' :: items)
      rw [valueText_items, List.cons_append, List.length_cons] at hfuel
      have hcount : (item :: item' :: items).length < fuel := by
        rw [List.length_append] at hfuel
        omega
      rw [valueText_items, List.cons_append, hopen,
        readItems_itemLines hfits hread rest hcount (by omega) []]
      rfl

/-! ### Tables in braces -/

def pairText (path : List String) (value : Value) : List Char :=
  pathText path ++ [' ', '=', ' '] ++ valueText value

theorem pairsText_cons (entry : String × Value) (rest : List (String × Value)) :
    pairsText (entry :: rest) =
      ',' :: ' ' :: (pairText [entry.1] entry.2 ++ pairsText rest) := by
  obtain ⟨key, value⟩ := entry
  rw [pairsText, pairText, pathText_singleton]

theorem valueText_entries (entry : String × Value) (rest : List (String × Value)) :
    valueText (.table (entry :: rest)) =
      '\x7b' :: ' ' :: (pairText [entry.1] entry.2 ++ pairsText rest) := by
  obtain ⟨key, value⟩ := entry
  rw [valueText, pairText, pathText_singleton]

theorem endsValue_pairsText (entries : List (String × Value)) (rest : List Char) :
    EndsValue (pairsText entries ++ rest) := by
  cases entries with
  | nil => exact ⟨' ', by decide, rfl⟩
  | cons entry entries =>
    rw [pairsText_cons]
    exact ⟨',', by decide, rfl⟩

theorem skipBlanks_pairText (key : String) (value : Value) (rest : List Char) :
    skipBlanks (' ' :: (pairText [key] value ++ rest)) = pairText [key] value ++ rest := by
  have hkey := skipBlanks_keyText key ([' ', '=', ' '] ++ valueText value ++ rest)
  simpa [pairText, pathText_singleton, skipBlanks, isBlank] using hkey

/-- An entry is read back, behind blanks or not. -/
theorem readPair_pairText {fuel room : Nat} {read : List Char → Reading Value}
    {path : List String} {value : Value} (hne : path ≠ []) (hpath : path.length ≤ depthLimit)
    (hfits : value.Fits room) (hread : Reads fuel read value) {rest input : List Char}
    (hrest : EndsValue rest) (hfuel : (pairText path value ++ rest).length < fuel)
    (hinput : skipBlanks input = skipBlanks (pairText path value ++ rest)) :
    readPair read fuel input = some ((path, value), rest) := by
  obtain ⟨c, text, htext, hc⟩ := hfits.opensValue
  let behind := ' ' :: '=' :: ' ' :: (valueText value ++ rest)
  have hbehind : skipBlanks behind = '=' :: ' ' :: (valueText value ++ rest) := rfl
  have hpair : pairText path value ++ rest = pathText path ++ behind := by
    simp [pairText, behind]
  have hskip : skipBlanks (' ' :: (valueText value ++ rest)) = valueText value ++ rest := by
    rw [htext]
    exact (skip_opensValue hc _).2
  rw [hpair] at hinput hfuel
  simp only [behind, List.length_append, List.length_cons] at hfuel
  have hkey : readKey fuel (pathText path ++ behind) = some (path, skipBlanks behind) :=
    readKey_pathText hne hpath ⟨' ', by decide, rfl⟩ (by rw [hbehind]; simp) (by omega)
  rw [← readKey_skipBlanks, ← hinput, readKey_skipBlanks, hbehind] at hkey
  have hvalue := hread rest hrest (by simpa using by omega)
  rw [readPair, hkey]
  simp only [hskip, hvalue, Option.map_some]

/-- The entries behind the first one are read back with the closing brace. -/
theorem readPairs_pairsText {fuel room : Nat} {read : List Char → Reading Value}
    {entry : String × Value} {entries : List (String × Value)}
    (hfits : ∀ entry' ∈ entry :: entries, entry'.2.Fits room)
    (hread : ∀ entry' ∈ entry :: entries, Reads fuel read entry'.2) (rest : List Char) {count : Nat}
    (hcount : entries.length < count) {input : List Char}
    (hfuel : (pairText [entry.1] entry.2 ++ (pairsText entries ++ rest)).length < fuel)
    (hinput : skipBlanks input =
      skipBlanks (pairText [entry.1] entry.2 ++ (pairsText entries ++ rest)))
    (seen : List (List String × Value)) :
    readPairs read fuel count seen input =
      some (seen.reverse ++ (entry :: entries).map (fun entry => ([entry.1], entry.2)), rest) := by
  have hsingle (key : String) : [key].length ≤ depthLimit := show 1 ≤ 79 by decide
  induction entries generalizing entry count seen input with
  | nil =>
    obtain ⟨count, rfl⟩ := Nat.exists_eq_succ_of_ne_zero (Nat.ne_zero_of_lt hcount)
    have hpair := readPair_pairText (List.cons_ne_nil _ _) (hsingle _)
      (hfits entry List.mem_cons_self) (hread entry List.mem_cons_self)
      (endsValue_pairsText [] rest) hfuel hinput
    have hclosing : skipBlanks (pairsText [] ++ rest) = '\x7d' :: rest := rfl
    rw [readPairs, hpair]
    simp [hclosing]
  | cons entry' entries ih =>
    obtain ⟨count, rfl⟩ := Nat.exists_eq_succ_of_ne_zero (Nat.ne_zero_of_lt hcount)
    have hpair := readPair_pairText (List.cons_ne_nil _ _) (hsingle _)
      (hfits entry List.mem_cons_self) (hread entry List.mem_cons_self)
      (endsValue_pairsText (entry' :: entries) rest) hfuel hinput
    let pairs := pairText [entry'.1] entry'.2 ++ (pairsText entries ++ rest)
    have hcomma : skipBlanks (pairsText (entry' :: entries) ++ rest) = ',' :: ' ' :: pairs := by
      rw [pairsText_cons]
      simp [skipBlanks, isBlank, pairs]
    have hblank : skipBlanks (' ' :: pairs) = skipBlanks pairs := rfl
    have hmore : pairs.length < fuel := by
      rw [pairsText_cons] at hfuel
      simp only [pairs, List.length_append, List.length_cons] at hfuel ⊢
      omega
    have hothers := ih (List.forall_mem_cons.1 hfits).2 (List.forall_mem_cons.1 hread).2
      (Nat.lt_of_succ_lt_succ hcount) hmore hblank (([entry.1], entry.2) :: seen)
    rw [readPairs, hpair]
    simp only [hcomma, hothers]
    simp

theorem lookup_eq_none {α : Type} {key : String} {entries : List (String × α)}
    (h : key ∉ entries.map (·.1)) : entries.lookup key = none := by
  rw [List.lookup_eq_none_iff]
  intro entry hentry
  have hne : key ≠ entry.1 := fun heq => h (heq ▸ List.mem_map_of_mem hentry)
  simpa using hne

theorem not_mem_of_nodup {before rest : List String} {key : String}
    (h : (before ++ key :: rest).Nodup) : key ∉ before := by
  rw [List.nodup_middle, List.nodup_cons, List.mem_append, not_or] at h
  exact h.1.1

theorem assign_new {before : List (String × Node)} {key : String}
    (hkey : key ∉ before.map (·.1)) (isImplicit : Bool) (value : Value) :
    Table.assign ⟨isImplicit, false, before⟩ [key] value =
      some ⟨isImplicit, false, before ++ [(key, .value value)]⟩ := by
  simp [Table.assign, Table.descend, Table.addValue, Table.get?, lookup_eq_none hkey, Table.add]

theorem ofPairs_entries {entries : List (String × Value)} (h : (entries.map (·.1)).Nodup) :
    Table.ofPairs (entries.map fun entry => ([entry.1], entry.2)) =
      some ⟨false, false, entries.map fun entry => (entry.1, .value entry.2)⟩ := by
  have hfold (entries : List (String × Value)) (before : List (String × Node))
      (h : (before.map (·.1) ++ entries.map (·.1)).Nodup) :
      (entries.map fun entry => ([entry.1], entry.2)).foldlM
          (fun table pair => Table.assign table pair.1 pair.2) (⟨false, false, before⟩ : Table) =
        some ⟨false, false, before ++ entries.map fun entry => (entry.1, .value entry.2)⟩ := by
    induction entries generalizing before with
    | nil => simp
    | cons entry entries ih =>
      have hnew := assign_new (not_mem_of_nodup h) false entry.2
      have hothers := ih (before ++ [(entry.1, .value entry.2)]) (by simpa using h)
      rw [List.map_cons, List.foldlM_cons, hnew]
      simpa using hothers
  exact hfold entries [] (by simpa using h)

theorem entryValues_value (entries : List (String × Value)) :
    entryValues (entries.map fun entry => (entry.1, .value entry.2)) = entries := by
  induction entries with
  | nil => rfl
  | cons entry entries ih => rw [List.map_cons, entryValues, ih, Node.toValue]

theorem length_pairsText (entries : List (String × Value)) :
    entries.length < (pairsText entries).length := by
  induction entries with
  | nil => decide
  | cons entry entries ih =>
    rw [pairsText_cons]
    simp
    omega

theorem reads_table {fuel room : Nat} {entries : List (String × Value)}
    (hnames : (entries.map (·.1)).Nodup) (hfits : ∀ entry ∈ entries, entry.2.Fits room)
    (hread : ∀ entry ∈ entries, Reads fuel (readValue fuel room) entry.2) :
    Reads fuel (readValue fuel (room + 1)) (.table entries) := by
  intro rest hrest hfuel
  have hopen (input : List Char) : readValue fuel (room + 1) ('\x7b' :: input) =
      readBraces (readValue fuel room) fuel input := by
    rw [readValue, readWith]
    rfl
  cases entries with
  | nil =>
    rw [valueText, List.cons_append, hopen]
    rfl
  | cons entry entries =>
    let pairs := pairText [entry.1] entry.2 ++ (pairsText entries ++ rest)
    have hinput : valueText (.table (entry :: entries)) ++ rest = '\x7b' :: ' ' :: pairs := by
      simp [valueText_entries, pairs]
    have hskip : skipBlanks (' ' :: pairs) = pairs := skipBlanks_pairText entry.1 entry.2 _
    obtain ⟨c, text, htext, hc⟩ := keyText_cons entry.1
    have hclosing : ∀ input, pairs ≠ '\x7d' :: input := by
      intro input heq
      have hfirst : c = '\x7d' := by
        simp only [pairs, pairText, pathText_singleton, htext, List.cons_append,
          List.cons.injEq] at heq
        exact heq.1
      exact ne_of_apply hc rfl hfirst
    have hlength := length_pairsText entries
    have hcount : entries.length < fuel := by
      rw [hinput] at hfuel
      simp only [pairs, List.length_cons, List.length_append] at hfuel
      omega
    have hpairs : readPairs (readValue fuel room) fuel fuel [] pairs =
        some ((entry :: entries).map fun entry => ([entry.1], entry.2), rest) := by
      refine readPairs_pairsText hfits hread rest hcount ?_ rfl []
      rw [hinput, List.length_cons, List.length_cons] at hfuel
      exact Nat.lt_of_succ_lt (Nat.lt_of_succ_lt hfuel)
    rw [hinput, hopen, readBraces, hskip]
    clear_value pairs
    split
    next => exact absurd rfl (hclosing _)
    next =>
      simp only [hpairs, ofPairs_entries hnames, Option.map_some, entryValues_value]

/-! ### All values -/

theorem Value.Fits.readWith_scalar {room : Nat} {value : Value} (h : value.Fits room)
    (fuel : Nat) (nested : Option (List Char → Reading Value)) {rest : List Char}
    (hscalar : readScalar (valueText value ++ rest) = some (value, rest))
    (hhead : ∀ c text, valueText value = c :: text → c ∉ ['"', '\'', '[', '\x7b']) :
    readWith fuel nested (valueText value ++ rest) = some (value, rest) := by
  obtain ⟨c, text, htext, -⟩ := h.opensValue
  rw [htext, List.cons_append] at hscalar ⊢
  rw [readWith_word fuel nested (hhead c text htext), hscalar]

/-- A value is read back by a reader that has room for its brackets. -/
theorem reads_readValue (fuel : Nat) {room : Nat} {value : Value} (h : value.Fits room) :
    Reads fuel (readValue fuel room) value := by
  have hlevel (room : Nat) : ∃ nested, readValue fuel room = readWith fuel nested := by
    cases room with
    | zero => exact ⟨_, rfl⟩
    | succ room => exact ⟨_, rfl⟩
  induction h with
  | @string room text =>
    intro rest hrest hfuel
    obtain ⟨nested, hlevel⟩ := hlevel room
    rw [valueText] at hfuel ⊢
    rw [hlevel]
    exact readWith_stringText fuel nested hrest text hfuel
  | @integer room n hmin hmax =>
    intro rest hrest _
    obtain ⟨nested, hlevel⟩ := hlevel room
    have hfits : (Value.integer n).Fits room := .integer hmin hmax
    rw [hlevel]
    refine hfits.readWith_scalar fuel nested ?_ fun c text htext => ?_
    · rw [valueText]
      exact readScalar_integerText hmin hmax hrest
    · rw [valueText] at htext
      have hmem := (integerWord n).mem (htext ▸ List.mem_cons_self)
      rcases hmem with rfl | hdigit
      · decide
      · intro hc
        simp only [List.mem_cons, List.not_mem_nil, or_false] at hc
        rcases hc with rfl | rfl | rfl | rfl <;> cases hdigit
  | @boolean room value =>
    intro rest hrest _
    obtain ⟨nested, hlevel⟩ := hlevel room
    have hfits : (Value.boolean value).Fits room := .boolean value
    rw [hlevel]
    refine hfits.readWith_scalar fuel nested (readScalar_boolean value hrest) fun c text htext => ?_
    cases value <;> cases htext <;> decide
  | array hitems ih => exact reads_array hitems ih
  | table hnames hentries ih => exact reads_table hnames hentries ih

end DocumentServer.Toml
