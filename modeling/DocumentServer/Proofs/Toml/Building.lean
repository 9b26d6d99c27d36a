import DocumentServer.Proofs.Toml.Statements

/-! Building tables out of statements. A place in a table is described by what fills it: whatever
its entries are, a change below the path of the place changes those entries and nothing else. The
blocks of a value fill the place under its path, one table after the other. -/
namespace DocumentServer.Toml

namespace Table

/-! ### Changes below a path -/

/-- A change that leaves entries in a table and keeps how the table came to be. -/
def Grows (change : Table → Option Table) : Prop :=
  ∀ table after, change table = some after →
    after.isImplicit = table.isImplicit ∧ after.isDotted = table.isDotted ∧ after.entries ≠ []

theorem entries_ne_nil {table : Table} {key : String} {node : Node}
    (h : table.get? key = some node) : table.entries ≠ [] := by
  intro hnil
  rw [get?, hnil] at h
  cases h

theorem grows_descend {change : Table → Option Table} (h : Grows change) (path : List String) :
    Grows (descend false change path) := by
  induction path with
  | nil => exact h
  | cons key path ih =>
    intro table after hafter
    rw [descend] at hafter
    cases hkey : table.get? key with
    | none =>
      rw [hkey] at hafter
      obtain ⟨child, -, rfl⟩ := Option.map_eq_some_iff.1 hafter
      exact ⟨rfl, rfl, by simp [add]⟩
    | some node =>
      have hsome := entries_ne_nil hkey
      rw [hkey] at hafter
      cases node with
      | value => cases hafter
      | table isImplicit isDotted entries =>
        obtain ⟨child, -, rfl⟩ := Option.map_eq_some_iff.1 hafter
        exact ⟨rfl, rfl, by simpa [replace] using hsome⟩
      | tables items =>
        dsimp only at hafter
        split at hafter
        · cases hafter
        · obtain ⟨child, -, rfl⟩ := Option.map_eq_some_iff.1 hafter
          exact ⟨rfl, rfl, by simpa [replace] using hsome⟩

theorem grows_openTable (key : String) : Grows (openTable key) := by
  intro table after hafter
  unfold openTable at hafter
  split at hafter
  · cases hafter
    exact ⟨rfl, rfl, by simp [add]⟩
  · cases hafter
    exact ⟨rfl, rfl, by simp [add]⟩
  · cases hafter

theorem grows_openItem (key : String) : Grows (openItem key) := by
  intro table after hafter
  unfold openItem at hafter
  split at hafter
  next =>
    cases hafter
    exact ⟨rfl, rfl, by simp [add]⟩
  next hkey =>
    cases hafter
    exact ⟨rfl, rfl, by simpa [replace] using entries_ne_nil hkey⟩
  next => cases hafter

theorem grows_assign (key : String) (value : Value) : Grows (·.assign [key] value) := by
  intro table after hafter
  simp only [assign, List.reverse_singleton, List.reverse_nil, descend, addValue] at hafter
  split_ifs at hafter
  split at hafter
  · cases hafter
  · cases hafter
    exact ⟨rfl, rfl, by simp [add]⟩

/-- Going down two paths one after the other is going down the joined path. -/
theorem descend_append (dotted : Bool) (change : Table → Option Table) (path path' : List String)
    (table : Table) : descend dotted change (path ++ path') table =
      descend dotted (descend dotted change path') path table := by
  induction path generalizing table with
  | nil => rfl
  | cons key path ih => simp only [List.cons_append, descend, ih]

end Table

/-! ### Places -/

/-- Under the path stands an open place. A change there is a change of the entries in it. -/
def Focus (isImplicit : Bool) (fill : List (String × Node) → Table) (path : List String) : Prop :=
  ∀ entries change, Table.Grows change →
    (fill entries).descend false change path =
      (change ⟨isImplicit, false, entries⟩).map fun after => fill after.entries

theorem focus_root : Focus false (fun entries => ⟨false, false, entries⟩) [] := by
  intro entries change hchange
  show change _ = _
  cases hafter : change ⟨false, false, entries⟩ with
  | none => rfl
  | some after =>
    obtain ⟨himplicit, hdotted, -⟩ := hchange _ _ hafter
    refine congrArg some ?_
    rcases after with ⟨isImplicit, isDotted, after⟩
    cases himplicit
    cases hdotted
    rfl

section Last

variable {isImplicit : Bool} {before : List (String × Node)} {key : String}
  (hkey : key ∉ before.map (·.1))

include hkey

theorem get?_new : Table.get? ⟨isImplicit, false, before⟩ key = none := lookup_eq_none hkey

theorem get?_last (node : Node) :
    Table.get? ⟨isImplicit, false, before ++ [(key, node)]⟩ key = some node := by
  rw [Table.get?, List.lookup_append, lookup_eq_none hkey, Option.none_or]
  simp

theorem replace_last (node node' : Node) :
    Table.replace ⟨isImplicit, false, before ++ [(key, node)]⟩ key node' =
      ⟨isImplicit, false, before ++ [(key, node')]⟩ := by
  have hsame : before.map (fun entry => if entry.1 = key then (key, node') else entry) =
      before.map id := by
    refine List.map_congr_left fun entry hentry => if_neg ?_
    rintro rfl
    exact hkey (List.mem_map_of_mem hentry)
  simp [Table.replace, hsame]

theorem descend_last_table {change : Table → Option Table} (hchange : Table.Grows change)
    (isImplicit' : Bool) (entries : List (String × Node)) :
    Table.descend false change [key]
        ⟨isImplicit, false, before ++ [(key, .table isImplicit' false entries)]⟩ =
      (change ⟨isImplicit', false, entries⟩).map fun after =>
        ⟨isImplicit, false, before ++ [(key, .table isImplicit' false after.entries)]⟩ := by
  simp only [Table.descend, get?_last hkey, Bool.false_and, Bool.false_eq_true, ↓reduceIte]
  cases hafter : change ⟨isImplicit', false, entries⟩ with
  | none => rfl
  | some after =>
    obtain ⟨himplicit, hdotted, -⟩ := hchange _ _ hafter
    rw [Option.map_some, Option.map_some, replace_last hkey, Table.node, himplicit, hdotted]

theorem descend_new {change : Table → Option Table} (hchange : Table.Grows change) :
    Table.descend false change [key] ⟨isImplicit, false, before⟩ =
      (change ⟨true, false, []⟩).map fun after =>
        ⟨isImplicit, false, before ++ [(key, .table true false after.entries)]⟩ := by
  simp only [Table.descend, get?_new hkey]
  cases hafter : change ⟨true, false, []⟩ with
  | none => rfl
  | some after =>
    obtain ⟨himplicit, hdotted, -⟩ := hchange _ _ hafter
    rw [Option.map_some, Option.map_some, Table.node, himplicit, hdotted]
    rfl

theorem descend_last_item {change : Table → Option Table}
    (items : List (List (String × Node))) (entries : List (String × Node)) :
    Table.descend false change [key]
        ⟨isImplicit, false, before ++ [(key, .tables (items ++ [entries]))]⟩ =
      (change ⟨false, false, entries⟩).map fun after =>
        ⟨isImplicit, false, before ++ [(key, .tables (items ++ [after.entries]))]⟩ := by
  simp only [Table.descend, get?_last hkey, List.getLast?_concat, List.dropLast_concat,
    replace_last hkey]

end Last

namespace Focus

variable {isImplicit : Bool} {fill : List (String × Node) → Table} {path : List String}
  (h : Focus isImplicit fill path) {before : List (String × Node)} {key : String}
  (hkey : key ∉ before.map (·.1))

include h hkey

/-- The table that stands last in a place. -/
theorem table (isImplicit' : Bool) :
    Focus isImplicit' (fun entries => fill (before ++ [(key, .table isImplicit' false entries)]))
      (path ++ [key]) := by
  intro entries change hchange
  rw [Table.descend_append, h _ _ (Table.grows_descend hchange [key]),
    descend_last_table hkey hchange, Option.map_map]
  rfl

/-- A table that a path only passes through stands last in a place once it has entries. -/
theorem passed :
    Focus true (fun entries => fill
      (before ++ if entries.isEmpty then [] else [(key, .table true false entries)]))
      (path ++ [key]) := by
  intro entries change hchange
  have hdescend : Table.descend false change [key]
      ⟨isImplicit, false,
        before ++ if entries.isEmpty then [] else [(key, .table true false entries)]⟩ =
      (change ⟨true, false, entries⟩).map fun after =>
        ⟨isImplicit, false, before ++ [(key, .table true false after.entries)]⟩ := by
    cases entries with
    | nil => simpa using descend_new hkey hchange
    | cons entry entries => exact descend_last_table hkey hchange true _
  rw [Table.descend_append, h _ _ (Table.grows_descend hchange [key]), hdescend, Option.map_map]
  cases hafter : change ⟨true, false, entries⟩ with
  | none => rfl
  | some after =>
    have hfilled := (hchange _ _ hafter).2.2
    simp [hfilled]

/-- The last of several tables that share a header and stand last in a place. -/
theorem item (items : List (List (String × Node))) :
    Focus false (fun entries => fill (before ++ [(key, .tables (items ++ [entries]))]))
      (path ++ [key]) := by
  intro entries change hchange
  rw [Table.descend_append, h _ _ (Table.grows_descend hchange [key]), descend_last_item hkey,
    Option.map_map]
  rfl

end Focus

/-! ### What values are built into -/

/-- The nodes of the entries on lines of their own. -/
def plainNodes (entries : List (String × Value)) : List (String × Node) :=
  (plainEntries entries).map fun entry => (entry.1, .value entry.2)

/-- Whether a table is left without a header of its own. -/
def passes (entries : List (String × Value)) : Bool :=
  (plainEntries entries).isEmpty && !entries.isEmpty

mutual

def headedNode : Value → Node
  | .table entries => .table (passes entries) false (plainNodes entries ++ headedNodes entries)
  | .array items => .tables (itemNodes items)
  | value => .value value

def headedNodes : List (String × Value) → List (String × Node)
  | [] => []
  | (key, value) :: rest =>
    if value.hasHeader then (key, headedNode value) :: headedNodes rest else headedNodes rest

def itemNode : Value → List (String × Node)
  | .table entries => plainNodes entries ++ headedNodes entries
  | _ => []

def itemNodes : List Value → List (List (String × Node))
  | [] => []
  | item :: rest => itemNode item :: itemNodes rest

end

def tableNodes (entries : List (String × Value)) : List (String × Node) :=
  plainNodes entries ++ headedNodes entries

theorem keys_headedNodes (entries : List (String × Value)) :
    (headedNodes entries).map (·.1) = (entries.filter (·.2.hasHeader)).map (·.1) := by
  induction entries with
  | nil => rfl
  | cons entry entries ih =>
    rw [headedNodes]
    cases hheader : entry.2.hasHeader <;> simp [hheader, ih]

/-- The plain entries come first, and otherwise all keep their places. -/
theorem keys_tableNodes (entries : List (String × Value)) :
    ((tableNodes entries).map (·.1)).Perm (entries.map (·.1)) := by
  have hsplit := (List.filter_append_perm (·.2.hasHeader) entries).map (·.1)
  rw [tableNodes, List.map_append, keys_headedNodes, plainNodes, List.map_map]
  rw [List.map_append] at hsplit
  exact List.perm_append_comm.trans hsplit

theorem blocks_of_plain {value : Value} (h : value.hasHeader = false) (isItem : Bool)
    (path : List String) : blocks isItem path value = [] := by
  match value with
  | .table entries => cases h
  | .array items =>
    rw [blocks]
    split_ifs with htables
    · cases items with
      | nil => rfl
      | cons item items => simp_all [Value.hasHeader]
    · rfl
  | .string _ => rfl
  | .integer _ => rfl
  | .real _ => rfl
  | .boolean _ => rfl
  | .moment _ => rfl

/-! ### Adding statements -/

/-- The statements turn one table into another, wherever the last header was before. -/
def Makes (statements : List Statement) (root root' : Table) : Prop :=
  ∀ position, ∃ position',
    statements.foldlM Assembly.add ⟨root, position⟩ = some ⟨root', position'⟩

theorem Makes.nil (root : Table) : Makes [] root root := fun position => ⟨position, rfl⟩

theorem Makes.append {statements statements' : List Statement} {root root' root'' : Table}
    (h : Makes statements root root') (h' : Makes statements' root' root'') :
    Makes (statements ++ statements') root root'' := by
  intro position
  obtain ⟨position', hmade⟩ := h position
  obtain ⟨position'', hmade'⟩ := h' position'
  refine ⟨position'', ?_⟩
  rw [List.foldlM_append, hmade]
  exact hmade'

theorem atParent_concat (change : String → Table → Option Table) (path : List String) (key : String)
    (root : Table) :
    Table.atParent change (path ++ [key]) root = root.descend false (change key) path := by
  simp [Table.atParent]

section Adding

variable {isImplicit : Bool} {fill : List (String × Node) → Table} {path : List String}
  (h : Focus isImplicit fill path)

include h

/-- Lines below the header of a place add their entries to it. -/
theorem foldlM_plain {before : List (String × Node)} {entries : List (String × Value)}
    (hnames : (before.map (·.1) ++ entries.map (·.1)).Nodup) :
    (entries.map entryStatement).foldlM Assembly.add ⟨fill before, path⟩ =
      some ⟨fill (before ++ entries.map fun entry => (entry.1, .value entry.2)), path⟩ := by
  induction entries generalizing before with
  | nil => simp
  | cons entry entries ih =>
    have hassign := assign_new (not_mem_of_nodup hnames) isImplicit entry.2
    have hadd : Assembly.add ⟨fill before, path⟩ (entryStatement entry) =
        some ⟨fill (before ++ [(entry.1, .value entry.2)]), path⟩ := by
      rw [entryStatement, Assembly.add]
      dsimp only
      rw [h _ _ (Table.grows_assign entry.1 entry.2), hassign]
      rfl
    have hothers : ((before ++ [(entry.1, Node.value entry.2)]).map (·.1) ++
        entries.map (·.1)).Nodup := by
      simpa using hnames
    rw [List.map_cons, List.foldlM_cons, hadd]
    simpa using ih hothers

theorem add_header {before : List (String × Node)} {key : String}
    (hkey : key ∉ before.map (·.1)) (position : List String) :
    Assembly.add ⟨fill before, position⟩ (.header (path ++ [key])) =
      some ⟨fill (before ++ [(key, .table false false [])]), path ++ [key]⟩ := by
  have hopen : Table.openTable key ⟨isImplicit, false, before⟩ =
      some ⟨isImplicit, false, before ++ [(key, .table false false [])]⟩ := by
    rw [Table.openTable, get?_new hkey]
    rfl
  rw [Assembly.add, atParent_concat, h _ _ (Table.grows_openTable key), hopen]
  rfl

/-- The entry of tables that share a header, once there is one. -/
def itemEntry (key : String) (items : List (List (String × Node))) : List (String × Node) :=
  if items.isEmpty then [] else [(key, .tables items)]

omit h in
theorem itemEntry_concat (key : String) (items : List (List (String × Node)))
    (entries : List (String × Node)) :
    itemEntry key (items ++ [entries]) = [(key, .tables (items ++ [entries]))] := by
  simp [itemEntry]

theorem add_itemHeader {before : List (String × Node)} {key : String}
    (hkey : key ∉ before.map (·.1)) (items : List (List (String × Node)))
    (position : List String) :
    Assembly.add ⟨fill (before ++ itemEntry key items), position⟩ (.itemHeader (path ++ [key])) =
      some ⟨fill (before ++ [(key, .tables (items ++ [[]]))]), path ++ [key]⟩ := by
  have hopen : Table.openItem key ⟨isImplicit, false, before ++ itemEntry key items⟩ =
      some ⟨isImplicit, false, before ++ [(key, .tables (items ++ [[]]))]⟩ := by
    rw [Table.openItem, itemEntry]
    split_ifs with hempty
    · rw [List.isEmpty_iff.1 hempty, List.append_nil, get?_new hkey]
      rfl
    · simp only [get?_last hkey, replace_last hkey]
  rw [Assembly.add, atParent_concat, h _ _ (Table.grows_openItem key), hopen]
  rfl

/-- A header with the lines and the tables below it makes the whole table. -/
theorem makes_own {header : Statement} {entries : List (String × Value)} {root : Table}
    (hheader : ∀ position, Assembly.add ⟨root, position⟩ header = some ⟨fill [], path⟩)
    (hnames : (entries.map (·.1)).Nodup)
    (htables : Makes (entryBlocks path entries).flatten (fill (plainNodes entries))
      (fill (tableNodes entries))) :
    Makes (header :: (plainEntries entries).map entryStatement ++
      (entryBlocks path entries).flatten) root (fill (tableNodes entries)) := by
  have hplain : ((plainEntries entries).map (·.1)).Nodup :=
    hnames.sublist (List.filter_sublist.map _)
  refine Makes.append (fun position => ⟨path, ?_⟩) htables
  rw [List.foldlM_cons, hheader]
  exact foldlM_plain h hplain

end Adding

theorem ownBlock_eq (isItem : Bool) (path : List String) (entries : List (String × Value)) :
    ownBlock isItem path entries =
      if !isItem && passes entries then []
      else [headerStatement isItem path :: (plainEntries entries).map entryStatement] := by
  unfold ownBlock passes
  dsimp only
  cases isItem <;> cases (plainEntries entries).isEmpty <;> cases entries.isEmpty <;> rfl

theorem plainNodes_of_passes {entries : List (String × Value)} (h : passes entries = true) :
    plainNodes entries = [] := by
  simp only [passes, Bool.and_eq_true, List.isEmpty_iff] at h
  rw [plainNodes, h.1, List.map_nil]

/-- A table without a header of its own has other entries, so passing through it makes it. -/
theorem headedNodes_ne_nil {entries : List (String × Value)} (h : passes entries = true) :
    headedNodes entries ≠ [] := by
  intro hnil
  have hkeys := keys_tableNodes entries
  rw [tableNodes, plainNodes_of_passes h, hnil] at hkeys
  simp only [passes, Bool.and_eq_true, Bool.not_eq_true', List.isEmpty_eq_false_iff] at h
  exact h.2 (by simpa using hkeys.symm.eq_nil)

mutual

/-- The blocks of a value with headers make its node behind what is in the place already. -/
theorem makes_blocks {room : Nat} (value : Value) (hfits : value.Fits room)
    (hheader : value.hasHeader = true) {isImplicit : Bool} {fill : List (String × Node) → Table}
    {path : List String} (h : Focus isImplicit fill path) {before : List (String × Node)}
    {key : String} (hkey : key ∉ before.map (·.1)) :
    Makes (blocks false (path ++ [key]) value).flatten (fill before)
      (fill (before ++ [(key, headedNode value)])) := by
  match value with
  | .table entries =>
    cases hfits with
    | @table room _ hnames hentries =>
      rw [blocks, List.flatten_append, ownBlock_eq, headedNode]
      cases hpasses : passes entries with
      | false =>
        have hown := h.table hkey false
        have htables := makes_entryBlocks entries hentries hown
          ((keys_tableNodes entries).nodup_iff.2 hnames)
        simpa [headerStatement, tableNodes] using
          makes_own hown (add_header h hkey) hnames htables
      | true =>
        have hplain := plainNodes_of_passes hpasses
        have hsome := headedNodes_ne_nil hpasses
        have hkeys := (keys_tableNodes entries).nodup_iff.2 hnames
        rw [tableNodes, hplain] at hkeys
        have htables := makes_entryBlocks entries hentries (h.passed hkey) hkeys
        simpa [hplain, hsome] using htables
  | .array items =>
    cases hfits with
    | @array room _ hitems =>
      have htables : items.all Value.isTable = true := by
        rw [Value.hasHeader, Bool.and_eq_true] at hheader
        exact hheader.2
      have hsome : itemNodes items ≠ [] := by
        rintro hnil
        cases items with
        | nil => cases hheader
        | cons item items => simp [itemNodes] at hnil
      have hmakes := makes_itemBlocks items hitems htables h hkey []
      simpa [blocks, htables, itemEntry, headedNode, hsome] using hmakes
  | .string _ => cases hheader
  | .integer _ => cases hheader
  | .real _ => cases hheader
  | .boolean _ => cases hheader
  | .moment _ => cases hheader

theorem makes_entryBlocks {room : Nat} (entries : List (String × Value))
    (hfits : ∀ entry ∈ entries, entry.2.Fits room) {isImplicit : Bool}
    {fill : List (String × Node) → Table} {path : List String} (h : Focus isImplicit fill path)
    {before : List (String × Node)}
    (hnames : ((before ++ headedNodes entries).map (·.1)).Nodup) :
    Makes (entryBlocks path entries).flatten (fill before)
      (fill (before ++ headedNodes entries)) := by
  match entries with
  | [] => simpa [entryBlocks, headedNodes] using Makes.nil (fill before)
  | (key, value) :: rest =>
    obtain ⟨hvalue, hothers⟩ := List.forall_mem_cons.1 hfits
    rw [headedNodes] at hnames ⊢
    rw [entryBlocks, List.flatten_append]
    cases hheader : value.hasHeader with
    | false =>
      rw [hheader] at hnames
      rw [blocks_of_plain hheader]
      exact makes_entryBlocks rest hothers h hnames
    | true =>
      rw [hheader, if_pos rfl] at hnames
      have hkey : key ∉ before.map (·.1) := by
        rw [List.map_append] at hnames
        exact not_mem_of_nodup hnames
      have hshift : (((before ++ [(key, headedNode value)]) ++ headedNodes rest).map
          (·.1)).Nodup := by
        rwa [List.append_assoc, List.singleton_append]
      have hrest := makes_entryBlocks rest hothers h hshift
      refine Makes.append (makes_blocks value hvalue hheader h hkey) ?_
      simpa using hrest

theorem makes_itemBlocks {room : Nat} (items : List Value)
    (hfits : ∀ item ∈ items, item.Fits room) (htables : items.all Value.isTable = true)
    {isImplicit : Bool} {fill : List (String × Node) → Table} {path : List String}
    (h : Focus isImplicit fill path) {before : List (String × Node)} {key : String}
    (hkey : key ∉ before.map (·.1)) (done : List (List (String × Node))) :
    Makes (itemBlocks (path ++ [key]) items).flatten (fill (before ++ itemEntry key done))
      (fill (before ++ itemEntry key (done ++ itemNodes items))) := by
  match items with
  | [] => simpa [itemBlocks, itemNodes] using Makes.nil (fill (before ++ itemEntry key done))
  | .table entries :: rest =>
    obtain ⟨hitem, hothers⟩ := List.forall_mem_cons.1 hfits
    cases hitem with
    | @table room _ hnames hentries =>
      have hown := h.item hkey done
      have hnodes := makes_entryBlocks entries hentries hown
        ((keys_tableNodes entries).nodup_iff.2 hnames)
      have hfirst := makes_own hown (add_itemHeader h hkey done) hnames hnodes
      rw [List.all_cons, Bool.and_eq_true] at htables
      have hrest := makes_itemBlocks rest hothers htables.2 h hkey
        (done ++ [tableNodes entries])
      rw [itemEntry_concat] at hrest
      rw [itemBlocks, List.flatten_append, blocks, List.flatten_append, ownBlock_eq]
      have hall := hfirst.append hrest
      simpa [itemNodes, itemNode, headerStatement, tableNodes] using hall
  | .array _ :: _ => cases htables
  | .string _ :: _ => cases htables
  | .integer _ :: _ => cases htables
  | .real _ :: _ => cases htables
  | .boolean _ :: _ => cases htables
  | .moment _ :: _ => cases htables

end

end DocumentServer.Toml
