import DocumentServer.Proofs.Toml.Building

/-! Reading what was written. The text of a table is read back as that table, with the plain entries
of every table in front of the others. -/
namespace DocumentServer.Toml

theorem flatten_rootBlocks (entries : List (String × Value)) :
    (rootBlocks entries).flatten =
      (plainEntries entries).map entryStatement ++ (entryBlocks [] entries).flatten := by
  rw [rootBlocks]
  split_ifs with hplain
  · rw [List.isEmpty_iff.1 hplain, List.map_nil, List.nil_append]
  · rw [List.flatten_cons]

/-- The statements of a table describe its nodes. -/
theorem ofStatements_rootBlocks {room : Nat} {entries : List (String × Value)}
    (hnames : (entries.map (·.1)).Nodup) (hfits : ∀ entry ∈ entries, entry.2.Fits room) :
    Assembly.ofStatements (rootBlocks entries).flatten =
      some (entryValues (tableNodes entries)) := by
  have hplain : ((plainEntries entries).map (·.1)).Nodup :=
    hnames.sublist (List.filter_sublist.map _)
  have hown : ((plainEntries entries).map entryStatement).foldlM Assembly.add Assembly.empty =
      some ⟨⟨false, false, plainNodes entries⟩, []⟩ := foldlM_plain focus_root hplain
  obtain ⟨position, htables⟩ := makes_entryBlocks entries hfits focus_root
    ((keys_tableNodes entries).nodup_iff.2 hnames) []
  rw [Assembly.ofStatements, flatten_rootBlocks, List.foldlM_append, hown, Option.bind_eq_bind,
    Option.bind_some, htables]
  rfl

theorem Statement.Fits.head_ne_mark {statement : Statement} (h : statement.Fits)
    (rest : List Char) : (statement.text ++ rest).head? ≠ some '\ufeff' := by
  cases statement with
  | assign path value =>
    obtain ⟨c, text, htext, hc⟩ := pathText_head h.1.1
    have hmark : c ≠ '\ufeff' := ne_of_apply hc rfl
    simpa [Statement.text, pairText, htext] using hmark
  | header path => simp [Statement.text, headerLine]
  | itemHeader path => simp [Statement.text, headerLine]

theorem Lists.skipMark {text : List Char} {statements : List Statement}
    (h : Lists text statements) : skipMark text = text := by
  have hhead : text.head? ≠ some '\ufeff' := by
    cases h with
    | nil => nofun
    | blank => simp
    | line hstatement => exact hstatement.head_ne_mark _
  cases text with
  | nil => rfl
  | cons c text =>
    unfold Toml.skipMark
    split
    next heq =>
      cases heq
      exact absurd rfl hhead
    next => rfl

/-- A table is read back from its text, up to the order of its entries. -/
theorem parse_write {room : Nat} {entries : List (String × Value)}
    (hnames : (entries.map (·.1)).Nodup) (hfits : ∀ entry ∈ entries, entry.2.Fits room)
    (hroom : room < depthLimit) :
    parse (write entries) = some (entryValues (tableNodes entries)) := by
  have hlists : Lists (write entries).toList (rootBlocks entries).flatten := by
    rw [toList_write]
    exact lists_intercalate (fits_rootBlocks hfits hroom)
  have hread := hlists.readStatements (Nat.lt_succ_self _) (Nat.lt_succ_self _) []
  rw [List.reverse_nil, List.nil_append] at hread
  rw [parse, hlists.skipMark, hread, Option.bind_some, ofStatements_rootBlocks hnames hfits]

end DocumentServer.Toml
