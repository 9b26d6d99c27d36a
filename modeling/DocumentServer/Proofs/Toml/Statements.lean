import DocumentServer.Proofs.Toml.Values

/-! The statements of a configuration text. A table is written as blocks of statements, one block
for each header with the lines below it, and reading the text gives the statements back in their
order. Empty lines between the blocks say nothing. -/
namespace DocumentServer.Toml

/-! ### One statement -/

def Statement.text : Statement → List Char
  | .assign path value => pairText path value ++ ['\n']
  | .header path => headerLine false path
  | .itemHeader path => headerLine true path

def FitsPath (path : List String) : Prop := path ≠ [] ∧ path.length ≤ depthLimit

def Statement.Fits : Statement → Prop
  | .assign path value => FitsPath path ∧ value.Fits depthLimit
  | .header path => FitsPath path
  | .itemHeader path => FitsPath path

/-- A path begins with a character of a word or with a quote. -/
theorem pathText_head {path : List String} (h : path ≠ []) :
    ∃ c text, pathText path = c :: text ∧ opensKey c = true := by
  cases path with
  | nil => exact absurd rfl h
  | cons key path =>
    obtain ⟨c, text, htext, hc⟩ := keyText_cons key
    cases path with
    | nil => exact ⟨c, text, by rw [pathText_singleton, htext], hc⟩
    | cons key' path => exact ⟨c, _, by rw [pathText_cons, htext, List.cons_append], hc⟩

/-- Nothing is skipped before a path. -/
theorem skipSpace_pathText {path : List String} (h : path ≠ []) (rest : List Char) :
    skipSpace false (pathText path ++ rest) = pathText path ++ rest := by
  obtain ⟨c, text, htext, hc⟩ := pathText_head h
  rw [htext]
  exact skipSpace_cons (not_mem_of_all hc (by decide)) _

theorem Statement.Fits.skipSpace {statement : Statement} (h : statement.Fits) (rest : List Char) :
    skipSpace false (statement.text ++ rest) = statement.text ++ rest := by
  have hbracket (rest : List Char) : Toml.skipSpace false ('[' :: rest) = '[' :: rest :=
    skipSpace_cons (by decide) rest
  cases statement with
  | assign path value =>
    have hskip := skipSpace_pathText h.1.1 ([' ', '=', ' '] ++ valueText value ++ ['\n'] ++ rest)
    simpa [text, pairText] using hskip
  | header path => exact hbracket _
  | itemHeader path => exact hbracket _

theorem readHeader_pathText {fuel : Nat} {path : List String} (h : FitsPath path)
    (closing rest : List Char) (hclosing : closing = [']'] ∨ closing = [']', ']'])
    (hfuel : (pathText path).length < fuel) :
    readHeader fuel closing (pathText path ++ (closing ++ '\n' :: rest)) = some (path, rest) := by
  have hskip : skipBlanks (closing ++ '\n' :: rest) = closing ++ '\n' :: rest := by
    rcases hclosing with rfl | rfl <;> rfl
  have hends : EndsKey (closing ++ '\n' :: rest) := by
    rcases hclosing with rfl | rfl <;> exact ⟨']', by decide, rfl⟩
  have hpoint : (skipBlanks (closing ++ '\n' :: rest)).head? ≠ some '.' := by
    rcases hclosing with rfl | rfl <;> simp [skipBlanks, isBlank]
  have hend : closing.isPrefixOf (closing ++ '\n' :: rest) = true := by
    rw [List.isPrefixOf_iff_prefix]
    exact List.prefix_append ..
  rw [readHeader, readKey_pathText h.1 h.2 hends hpoint hfuel, hskip]
  simp only [hend, ↓reduceIte, List.drop_left]
  rfl

theorem readStatement_assign {fuel : Nat} {path : List String} {value : Value}
    (hpath : FitsPath path) (hvalue : value.Fits depthLimit) {rest : List Char}
    (hfuel : (pairText path value ++ '\n' :: rest).length < fuel) :
    readStatement fuel (pairText path value ++ '\n' :: rest) =
      some (.assign path value, rest) := by
  obtain ⟨c, text, htext, hc⟩ := pathText_head hpath.1
  have hbracket : c ≠ '[' := ne_of_apply hc rfl
  have hpair := readPair_pairText hpath.1 hpath.2 hvalue (reads_readValue fuel hvalue)
    ⟨'\n', by decide, rfl⟩ hfuel rfl
  have hline : skipLineEnd ('\n' :: rest) = some rest := rfl
  have hentry : readEntry fuel (pairText path value ++ '\n' :: rest) =
      some (.assign path value, rest) := by
    rw [readEntry, hpair]
    simp only [hline, Option.map_some]
  obtain ⟨more, hopen⟩ : ∃ more, pairText path value ++ '\n' :: rest = c :: more :=
    ⟨_, by rw [pairText, htext, List.cons_append, List.cons_append, List.cons_append]⟩
  rw [hopen] at hentry ⊢
  rw [readStatement, hentry]
  · rintro _ heq
    cases heq
    exact hbracket rfl
  · rintro _ heq
    cases heq
    exact hbracket rfl

theorem readStatement_header {fuel : Nat} {path : List String} (h : FitsPath path)
    (rest : List Char) (hfuel : (pathText path).length < fuel) :
    readStatement fuel ('[' :: (pathText path ++ ([']'] ++ '\n' :: rest))) =
      some (.header path, rest) := by
  obtain ⟨c, text, htext, hc⟩ := pathText_head h.1
  have hbracket : c ≠ '[' := ne_of_apply hc rfl
  have hread := readHeader_pathText h [']'] rest (.inl rfl) hfuel
  rw [readStatement, hread]
  · rfl
  · rintro _ heq
    rw [htext, List.cons_append, List.cons.injEq] at heq
    exact hbracket heq.1

theorem readStatement_itemHeader {fuel : Nat} {path : List String} (h : FitsPath path)
    (rest : List Char) (hfuel : (pathText path).length < fuel) :
    readStatement fuel ('[' :: '[' :: (pathText path ++ ([']', ']'] ++ '\n' :: rest))) =
      some (.itemHeader path, rest) := by
  have hread := readHeader_pathText h [']', ']'] rest (.inr rfl) hfuel
  rw [readStatement, hread]
  rfl

/-- A statement is read back from its text. -/
theorem Statement.Fits.readStatement {statement : Statement} (h : statement.Fits) {fuel : Nat}
    {rest : List Char} (hfuel : (statement.text ++ rest).length < fuel) :
    readStatement fuel (statement.text ++ rest) = some (statement, rest) := by
  cases statement with
  | assign path value =>
    have hinput : (Statement.assign path value).text ++ rest =
        pairText path value ++ '\n' :: rest := by
      simp [Statement.text]
    rw [hinput] at hfuel ⊢
    exact readStatement_assign h.1 h.2 hfuel
  | header path =>
    have hinput : (Statement.header path).text ++ rest =
        '[' :: (pathText path ++ ([']'] ++ '\n' :: rest)) := by
      simp [Statement.text, headerLine]
    rw [hinput] at hfuel ⊢
    simp only [List.length_cons, List.length_append] at hfuel
    exact readStatement_header h rest (by omega)
  | itemHeader path =>
    have hinput : (Statement.itemHeader path).text ++ rest =
        '[' :: '[' :: (pathText path ++ ([']', ']'] ++ '\n' :: rest)) := by
      simp [Statement.text, headerLine]
    rw [hinput] at hfuel ⊢
    simp only [List.length_cons, List.length_append] at hfuel
    exact readStatement_itemHeader h rest (by omega)

/-! ### Blocks of statements -/

/-- The statement of an entry that stands on a line below its header. -/
def entryStatement (entry : String × Value) : Statement := .assign [entry.1] entry.2

def headerStatement (isItem : Bool) (path : List String) : Statement :=
  if isItem then .itemHeader path else .header path

/-- The block of a table, unless nothing but other headers would follow its own. -/
def ownBlock (isItem : Bool) (path : List String) (entries : List (String × Value)) :
    List (List Statement) :=
  let plain := plainEntries entries
  if isItem || !plain.isEmpty || entries.isEmpty then
    [headerStatement isItem path :: plain.map entryStatement]
  else []

mutual

/-- The blocks of a value under its path. -/
def blocks (isItem : Bool) (path : List String) : Value → List (List Statement)
  | .table entries => ownBlock isItem path entries ++ entryBlocks path entries
  | .array items => if items.all Value.isTable then itemBlocks path items else []
  | _ => []

def entryBlocks (path : List String) : List (String × Value) → List (List Statement)
  | [] => []
  | (key, value) :: rest => blocks false (path ++ [key]) value ++ entryBlocks path rest

def itemBlocks (path : List String) : List Value → List (List Statement)
  | [] => []
  | item :: rest => blocks true path item ++ itemBlocks path rest

end

def rootBlocks (entries : List (String × Value)) : List (List Statement) :=
  let plain := plainEntries entries
  if plain.isEmpty then entryBlocks [] entries
  else plain.map entryStatement :: entryBlocks [] entries

theorem entryLines_eq (entries : List (String × Value)) :
    entryLines entries = (entries.map entryStatement).flatMap Statement.text := by
  rw [entryLines, List.flatMap_map]
  refine List.flatMap_congr fun entry _ => ?_
  simp [entryStatement, Statement.text, pairText, pathText_singleton]

theorem headerLine_eq (isItem : Bool) (path : List String) :
    headerLine isItem path = (headerStatement isItem path).text := by
  cases isItem <;> rfl

theorem ownSection_eq (isItem : Bool) (path : List String) (entries : List (String × Value)) :
    ownSection isItem path entries =
      (ownBlock isItem path entries).map (·.flatMap Statement.text) := by
  unfold ownSection ownBlock
  dsimp only
  split_ifs
  · rw [List.map_singleton, List.flatMap_cons, headerLine_eq, entryLines_eq]
  · rfl

mutual

theorem sections_eq (isItem : Bool) (path : List String) (value : Value) :
    sections isItem path value = (blocks isItem path value).map (·.flatMap Statement.text) := by
  match value with
  | .table entries =>
    rw [sections, blocks, List.map_append, ownSection_eq, entrySections_eq path entries]
  | .array items =>
    rw [sections, blocks]
    split_ifs
    · exact itemSections_eq path items
    · rfl
  | .string _ => rfl
  | .integer _ => rfl
  | .real _ => rfl
  | .boolean _ => rfl
  | .moment _ => rfl

theorem entrySections_eq (path : List String) (entries : List (String × Value)) :
    entrySections path entries =
      (entryBlocks path entries).map (·.flatMap Statement.text) := by
  match entries with
  | [] => rfl
  | (key, value) :: rest =>
    rw [entrySections, entryBlocks, List.map_append, sections_eq false (path ++ [key]) value,
      entrySections_eq path rest]

theorem itemSections_eq (path : List String) (items : List Value) :
    itemSections path items = (itemBlocks path items).map (·.flatMap Statement.text) := by
  match items with
  | [] => rfl
  | item :: rest =>
    rw [itemSections, itemBlocks, List.map_append, sections_eq true path item,
      itemSections_eq path rest]

end

/-- A table is written as its blocks with empty lines between them. -/
theorem toList_write (entries : List (String × Value)) :
    (write entries).toList =
      ['\n'].intercalate ((rootBlocks entries).map (·.flatMap Statement.text)) := by
  have hplain : (entryLines (plainEntries entries)).isEmpty = (plainEntries entries).isEmpty := by
    cases plainEntries entries with
    | nil => rfl
    | cons entry rest => simp [entryLines]
  rw [write, String.toList_ofList, hplain, rootBlocks, entrySections_eq]
  split_ifs
  · rfl
  · rw [List.map_cons, entryLines_eq]

/-! ### Blocks that a reader takes -/

theorem Value.Fits.mono {room room' : Nat} {value : Value} (h : value.Fits room)
    (hroom : room ≤ room') : value.Fits room' := by
  induction h generalizing room' with
  | string text => exact .string text
  | integer hmin hmax => exact .integer hmin hmax
  | boolean value => exact .boolean value
  | array _ ih =>
    obtain ⟨room', rfl⟩ := Nat.exists_eq_succ_of_ne_zero (Nat.ne_zero_of_lt hroom)
    exact .array fun item hitem => ih item hitem (Nat.le_of_succ_le_succ hroom)
  | table hnames _ ih =>
    obtain ⟨room', rfl⟩ := Nat.exists_eq_succ_of_ne_zero (Nat.ne_zero_of_lt hroom)
    exact .table hnames fun entry hentry => ih entry hentry (Nat.le_of_succ_le_succ hroom)

theorem fits_entryStatement {room : Nat} {entry : String × Value} (h : entry.2.Fits room)
    (hroom : room ≤ depthLimit) : (entryStatement entry).Fits :=
  ⟨⟨List.cons_ne_nil _ _, show 1 ≤ 79 by decide⟩, h.mono hroom⟩

theorem fits_plain {room : Nat} {entries : List (String × Value)}
    (h : ∀ entry ∈ entries, entry.2.Fits room) (hroom : room ≤ depthLimit) :
    ∀ statement ∈ (plainEntries entries).map entryStatement, statement.Fits := by
  intro statement hstatement
  obtain ⟨entry, hentry, rfl⟩ := List.mem_map.1 hstatement
  exact fits_entryStatement (h entry (List.mem_filter.1 hentry).1) hroom

theorem fits_ownBlock {room : Nat} (isItem : Bool) {path : List String}
    {entries : List (String × Value)} (h : ∀ entry ∈ entries, entry.2.Fits room)
    (hpath : path ≠ []) (hroom : path.length + room ≤ depthLimit) :
    ∀ statement ∈ (ownBlock isItem path entries).flatten, statement.Fits := by
  have hheader : (headerStatement isItem path).Fits := by
    cases isItem <;> exact ⟨hpath, by omega⟩
  have hplain := fits_plain h (by omega)
  unfold ownBlock
  dsimp only
  split_ifs
  · simpa using ⟨hheader, by simpa using hplain⟩
  · simp

mutual

theorem fits_blocks {room : Nat} (isItem : Bool) {path : List String} (value : Value)
    (h : value.Fits room) (hpath : path ≠ []) (hroom : path.length + room ≤ depthLimit) :
    ∀ statement ∈ (blocks isItem path value).flatten, statement.Fits := by
  match value with
  | .table entries =>
    cases h with
    | @table room _ hnames hentries =>
      rw [blocks, List.flatten_append, List.forall_mem_append]
      exact ⟨fits_ownBlock isItem hentries hpath (by omega),
        fits_entryBlocks entries hentries (by omega)⟩
  | .array items =>
    cases h with
    | @array room _ hitems =>
      rw [blocks]
      split_ifs
      · exact fits_itemBlocks items hitems hpath (by omega)
      · simp
  | .string _ => simp [blocks]
  | .integer _ => simp [blocks]
  | .real _ => simp [blocks]
  | .boolean _ => simp [blocks]
  | .moment _ => simp [blocks]

theorem fits_entryBlocks {room : Nat} {path : List String} (entries : List (String × Value))
    (h : ∀ entry ∈ entries, entry.2.Fits room) (hroom : path.length + 1 + room ≤ depthLimit) :
    ∀ statement ∈ (entryBlocks path entries).flatten, statement.Fits := by
  match entries with
  | [] => simp [entryBlocks]
  | (key, value) :: rest =>
    obtain ⟨hvalue, hothers⟩ := List.forall_mem_cons.1 h
    rw [entryBlocks, List.flatten_append, List.forall_mem_append]
    exact ⟨fits_blocks false value hvalue (by simp) (by simpa using hroom),
      fits_entryBlocks rest hothers hroom⟩

theorem fits_itemBlocks {room : Nat} {path : List String} (items : List Value)
    (h : ∀ item ∈ items, item.Fits room) (hpath : path ≠ [])
    (hroom : path.length + room ≤ depthLimit) :
    ∀ statement ∈ (itemBlocks path items).flatten, statement.Fits := by
  match items with
  | [] => simp [itemBlocks]
  | item :: rest =>
    obtain ⟨hitem, hothers⟩ := List.forall_mem_cons.1 h
    rw [itemBlocks, List.flatten_append, List.forall_mem_append]
    exact ⟨fits_blocks true item hitem hpath hroom, fits_itemBlocks rest hothers hpath hroom⟩

end

theorem fits_rootBlocks {room : Nat} {entries : List (String × Value)}
    (h : ∀ entry ∈ entries, entry.2.Fits room) (hroom : room < depthLimit) :
    ∀ statement ∈ (rootBlocks entries).flatten, statement.Fits := by
  have hblocks : ∀ statement ∈ (entryBlocks [] entries).flatten, statement.Fits :=
    fits_entryBlocks entries h (by simpa using by omega)
  rw [rootBlocks]
  split_ifs
  · exact hblocks
  · rw [List.flatten_cons, List.forall_mem_append]
    exact ⟨fits_plain h (by omega), hblocks⟩

/-! ### Reading -/

/-- The statements are the lines of a text, with empty lines among them. -/
inductive Lists : List Char → List Statement → Prop
  | nil : Lists [] []
  | blank {text : List Char} {statements : List Statement} :
      Lists text statements → Lists ('\n' :: text) statements
  | line {text : List Char} {statement : Statement} {statements : List Statement} :
      statement.Fits → Lists text statements →
        Lists (statement.text ++ text) (statement :: statements)

theorem Lists.block {text : List Char} {statements : List Statement} (h : Lists text statements)
    {block : List Statement} (hblock : ∀ statement ∈ block, statement.Fits) :
    Lists (block.flatMap Statement.text ++ text) (block ++ statements) := by
  induction block with
  | nil => exact h
  | cons statement block ih =>
    obtain ⟨hstatement, hothers⟩ := List.forall_mem_cons.1 hblock
    rw [List.flatMap_cons, List.append_assoc]
    exact .line hstatement (ih hothers)

theorem lists_intercalate {groups : List (List Statement)}
    (h : ∀ statement ∈ groups.flatten, statement.Fits) :
    Lists (['\n'].intercalate (groups.map (·.flatMap Statement.text))) groups.flatten := by
  induction groups with
  | nil => exact .nil
  | cons block groups ih =>
    rw [List.flatten_cons, List.forall_mem_append] at h
    cases groups with
    | nil => simpa using Lists.nil.block h.1
    | cons block' groups =>
      have hothers := (ih h.2).blank.block h.1
      simpa [List.intercalate] using hothers

theorem Statement.text_ne_nil (statement : Statement) : statement.text ≠ [] := by
  cases statement <;> simp [Statement.text, headerLine]

/-- The statements of a text are read in their order. -/
theorem Lists.readStatements {fuel : Nat} {text : List Char} {statements : List Statement}
    (h : Lists text statements) {count : Nat} (hcount : text.length < count)
    (hfuel : text.length < fuel) (seen : List Statement) :
    readStatements fuel count seen text = some (seen.reverse ++ statements) := by
  induction h generalizing count seen with
  | nil =>
    obtain ⟨count, rfl⟩ := Nat.exists_eq_succ_of_ne_zero (Nat.ne_zero_of_lt hcount)
    simp [Toml.readStatements, skipSpace]
  | @blank text statements h ih =>
    obtain ⟨count, rfl⟩ := Nat.exists_eq_succ_of_ne_zero (Nat.ne_zero_of_lt hcount)
    rw [List.length_cons] at hcount hfuel
    have hskip : skipSpace false ('\n' :: text) = skipSpace false text := by rw [skipSpace]
    have hnext := ih (show text.length < count + 1 by omega) (by omega) seen
    rw [Toml.readStatements] at hnext ⊢
    rw [hskip]
    exact hnext
  | @line text statement statements hstatement h ih =>
    obtain ⟨count, rfl⟩ := Nat.exists_eq_succ_of_ne_zero (Nat.ne_zero_of_lt hcount)
    have hread := hstatement.readStatement hfuel
    have hpos := List.length_pos_iff.2 statement.text_ne_nil
    rw [List.length_append] at hcount hfuel
    have hothers := ih (show text.length < count by omega) (by omega) (statement :: seen)
    rw [Toml.readStatements, hstatement.skipSpace]
    split
    next heq => exact absurd (List.append_eq_nil_iff.1 heq).1 statement.text_ne_nil
    next =>
      simp only [hread, hothers]
      simp

end DocumentServer.Toml
