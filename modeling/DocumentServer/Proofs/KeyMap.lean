import DocumentServer.KeyMap

/-! Laws of maps: what stands under a name after a change, how changed values commute with changes
of the map, and how far a cursor cuts the entries. -/
namespace DocumentServer.KeyMap

variable {α β : Type}

/-! ### Entry lists -/

theorem lookup_cons_eq (key : String) (value : α) (rest : List (String × α)) (other : String) :
    ((key, value) :: rest).lookup other =
      if other = key then some value else rest.lookup other := by
  by_cases h : other = key
  · simp [h]
  · simp [h, List.lookup_cons, beq_eq_false_iff_ne.2 h]

theorem lookup_insertEntry (key : String) (value : α) (entries : List (String × α))
    (other : String) :
    (insertEntry key value entries).lookup other =
      if other = key then some value else entries.lookup other := by
  induction entries with
  | nil => exact lookup_cons_eq key value [] other
  | cons head rest ih =>
    obtain ⟨name, old⟩ := head
    unfold insertEntry
    split
    next => rw [lookup_cons_eq]
    next notLess =>
      split
      next greater =>
        rw [lookup_cons_eq, ih, lookup_cons_eq]
        have hne : name ≠ key := fun h => String.lt_irrefl key (h ▸ greater)
        grind
      next notGreater =>
        have same : key = name :=
          String.le_antisymm (String.not_lt.1 notGreater) (String.not_lt.1 notLess)
        subst same
        rw [lookup_cons_eq, lookup_cons_eq]
        grind

theorem lookup_filter_ne (key : String) (entries : List (String × α)) (other : String) :
    (entries.filter (·.1 ≠ key)).lookup other =
      if other = key then none else entries.lookup other := by
  induction entries with
  | nil => simp
  | cons head rest ih =>
    obtain ⟨name, value⟩ := head
    by_cases h : name = key
    · rw [List.filter_cons_of_neg (by simpa using h), ih, lookup_cons_eq]
      grind
    · rw [List.filter_cons_of_pos (by simpa using h), lookup_cons_eq, ih, lookup_cons_eq]
      grind

/-- In an ascending list every entry is found under its name. -/
theorem lookup_of_mem {entries : List (String × α)} (h : Ascending entries) {key : String}
    {value : α} (member : (key, value) ∈ entries) : entries.lookup key = some value := by
  induction entries with
  | nil => cases member
  | cons head rest ih =>
    obtain ⟨before, tail⟩ := List.pairwise_cons.1 h
    obtain ⟨name, old⟩ := head
    rw [lookup_cons_eq]
    rcases List.mem_cons.1 member with same | member
    · obtain ⟨rfl, rfl⟩ := Prod.mk.inj same
      exact if_pos rfl
    · have hne : key ≠ name := fun h => String.lt_irrefl key (h ▸ before _ member)
      rw [if_neg hne, ih tail member]

theorem nodup_of_ascending {entries : List (String × α)} (h : Ascending entries) :
    (entries.map (·.1)).Nodup := by
  refine List.pairwise_map.2 (h.imp fun hless heq => ?_)
  rw [heq] at hless
  exact String.lt_irrefl _ hless

theorem mem_of_lookup {entries : List (String × α)} {key : String} {value : α}
    (h : entries.lookup key = some value) : (key, value) ∈ entries := by
  obtain ⟨before, behind, rfl, _⟩ := List.lookup_eq_some_iff.1 h
  simp

theorem map_insertEntry (f : α → β) (key : String) (value : α) (entries : List (String × α)) :
    (insertEntry key value entries).map (fun entry => (entry.1, f entry.2)) =
      insertEntry key (f value) (entries.map fun entry => (entry.1, f entry.2)) := by
  induction entries with
  | nil => rfl
  | cons head rest ih =>
    simp only [insertEntry, List.map_cons]
    split
    · rfl
    · split
      · rw [List.map_cons, ih]
      · rfl

theorem lookup_map (f : α → β) (key : String) (entries : List (String × α)) :
    (entries.map fun entry => (entry.1, f entry.2)).lookup key = (entries.lookup key).map f := by
  induction entries with
  | nil => rfl
  | cons head rest ih =>
    obtain ⟨name, value⟩ := head
    rw [List.map_cons, lookup_cons_eq, lookup_cons_eq, ih]
    split <;> rfl

/-- An entry behind all others is put at the end. -/
theorem insertEntry_append {entries : List (String × α)} {key : String} (value : α)
    (h : ∀ entry ∈ entries, entry.1 < key) :
    insertEntry key value entries = entries ++ [(key, value)] := by
  induction entries with
  | nil => rfl
  | cons head rest ih =>
    obtain ⟨hhead, hrest⟩ := List.forall_mem_cons.1 h
    have notLess : ¬ key < head.1 := String.lt_asymm hhead
    rw [insertEntry, if_neg notLess, if_pos hhead, ih hrest, List.cons_append]

/-- A new name makes the list longer by one entry. -/
theorem length_insertEntry {entries : List (String × α)} {key : String} (value : α)
    (h : entries.lookup key = none) :
    (insertEntry key value entries).length = entries.length + 1 := by
  induction entries with
  | nil => rfl
  | cons head rest ih =>
    obtain ⟨name, old⟩ := head
    rw [lookup_cons_eq] at h
    split at h
    next => cases h
    next hne =>
      unfold insertEntry
      split
      next => rfl
      next notLess =>
        have hless : name < key := by
          refine Classical.byContradiction fun notGreater => ?_
          exact hne (String.le_antisymm (String.not_lt.1 notGreater) (String.not_lt.1 notLess))
        rw [if_pos hless, List.length_cons, ih h, List.length_cons]

/-! ### Maps -/

variable (map : KeyMap α) (key : String) (value : α)

theorem get?_insert (other : String) :
    (map.insert key value).get? other = if other = key then some value else map.get? other :=
  lookup_insertEntry key value map.entries other

theorem get?_erase (other : String) :
    (map.erase key).get? other = if other = key then none else map.get? other :=
  lookup_filter_ne key map.entries other

theorem mem_entries_iff : (key, value) ∈ map.entries ↔ map.get? key = some value :=
  ⟨lookup_of_mem map.ascending, mem_of_lookup⟩

theorem mem_keys_iff : key ∈ map.keys ↔ map.contains key := by
  rw [contains, Option.isSome_iff_exists, keys, List.mem_map]
  constructor
  · rintro ⟨entry, member, rfl⟩
    exact ⟨entry.2, (map.mem_entries_iff _ _).1 member⟩
  · rintro ⟨value, h⟩
    exact ⟨(key, value), (map.mem_entries_iff _ _).2 h, rfl⟩

theorem size_ne_zero {map : KeyMap α} {key : String} (h : map.contains key) : map.size ≠ 0 := by
  have member : key ∈ map.keys := (map.mem_keys_iff key).2 h
  intro hzero
  rw [size, List.length_eq_zero_iff] at hzero
  rw [keys, hzero] at member
  cases member

theorem contains_eq_of_keys {map : KeyMap α} {map' : KeyMap β} (h : map.keys = map'.keys)
    (key : String) : map.contains key = map'.contains key := by
  rw [Bool.eq_iff_iff, ← mem_keys_iff, ← mem_keys_iff, h]

/-- Another value under a name that is there leaves the names as they are. -/
theorem keys_insert (h : map.contains key) : (map.insert key value).keys = map.keys := by
  obtain ⟨old, hold⟩ := Option.isSome_iff_exists.1 h
  have member : (key, old) ∈ map.entries := (map.mem_entries_iff key old).2 hold
  have hascending := map.ascending
  simp only [keys, insert]
  generalize map.entries = entries at member hascending
  induction entries with
  | nil => cases member
  | cons head rest ih =>
    obtain ⟨before, tail⟩ := List.pairwise_cons.1 hascending
    unfold insertEntry
    rcases List.mem_cons.1 member with rfl | member
    · rw [if_neg (String.lt_irrefl key), if_neg (String.lt_irrefl key), List.map_cons,
        List.map_cons]
    · have hless : head.1 < key := before _ member
      rw [if_neg (String.lt_asymm hless), if_pos hless, List.map_cons, List.map_cons,
        ih member tail]

theorem keys_erase : (map.erase key).keys = map.keys.filter (· ≠ key) := by
  rw [keys, keys, List.filter_map]
  rfl

/-- Maps with the same values under all names are equal. -/
theorem ext_get? {map map' : KeyMap α} (h : ∀ key, map.get? key = map'.get? key) : map = map' := by
  have hnodup (map : KeyMap α) : map.entries.Nodup :=
    List.Pairwise.of_map (·.1) (fun a b hne heq => hne (congrArg (·.1) heq))
      (nodup_of_ascending map.ascending)
  have hmem (entry : String × α) : entry ∈ map.entries ↔ entry ∈ map'.entries := by
    rw [mem_entries_iff, mem_entries_iff, h]
  have hperm : map.entries.Perm map'.entries :=
    (List.perm_ext_iff_of_nodup (hnodup map) (hnodup map')).2 hmem
  refine KeyMap.ext (hperm.eq_of_pairwise ?_ map.ascending map'.ascending)
  intro a b _ _ hab hba
  exact absurd hba (String.lt_asymm hab)

/-- The value that is there changes nothing. -/
theorem insert_eq_self {map : KeyMap α} {key : String} {value : α}
    (h : map.get? key = some value) : map.insert key value = map := by
  refine ext_get? fun other => ?_
  rw [get?_insert]
  split
  next heq => rw [heq, h]
  next => rfl

/-- A value in place of another leaves no trace of it. -/
theorem insert_insert (value' : α) :
    (map.insert key value).insert key value' = map.insert key value' := by
  refine ext_get? fun other => ?_
  simp only [get?_insert]
  split <;> rfl

/-- Values under different names do not get in each other's way. -/
theorem insert_comm {key key' : String} (hne : key ≠ key') (value value' : α) :
    (map.insert key value).insert key' value' = (map.insert key' value').insert key value := by
  refine ext_get? fun other => ?_
  simp only [get?_insert]
  by_cases h : other = key
  · rw [if_pos h, if_pos h, if_neg fun h' => hne (h.symm.trans h')]
  · rw [if_neg h, if_neg h]

theorem erase_insert : (map.insert key value).erase key = map.erase key := by
  refine ext_get? fun other => ?_
  simp only [get?_erase, get?_insert]
  split <;> rfl

/-- A name that is not there leaves nothing to drop. -/
theorem erase_eq_self {map : KeyMap α} {key : String} (h : map.contains key = false) :
    map.erase key = map := by
  rw [contains, Option.isSome_eq_false_iff, Option.isNone_iff_eq_none] at h
  refine ext_get? fun other => ?_
  rw [get?_erase]
  split
  next heq => rw [heq, h]
  next => rfl

theorem contains_insert (other : String) :
    (map.insert key value).contains other = (other == key || map.contains other) := by
  rw [contains, get?_insert]
  by_cases h : other = key
  · simp [h]
  · simp [h, contains]

theorem size_insert :
    (map.insert key value).size = if map.contains key then map.size else map.size + 1 := by
  cases hcontains : map.contains key with
  | true => simpa [keys, size] using congrArg List.length (map.keys_insert key value hcontains)
  | false =>
    rw [contains, Option.isSome_eq_false_iff, Option.isNone_iff_eq_none] at hcontains
    exact length_insertEntry value hcontains

/-! ### Changed values -/

variable (f : α → β)

theorem get?_mapValues : (map.mapValues f).get? key = (map.get? key).map f :=
  lookup_map f key map.entries

theorem mapValues_insert :
    (map.insert key value).mapValues f = (map.mapValues f).insert key (f value) :=
  KeyMap.ext (map_insertEntry f key value map.entries)

theorem mapValues_erase : (map.erase key).mapValues f = (map.mapValues f).erase key := by
  refine KeyMap.ext ?_
  simp only [mapValues, erase, List.filter_map]
  rfl

@[simp] theorem size_mapValues : (map.mapValues f).size = map.size := List.length_map ..

@[simp] theorem keys_mapValues : (map.mapValues f).keys = map.keys := by
  simp [keys, mapValues, Function.comp_def]

theorem contains_mapValues : (map.mapValues f).contains key = map.contains key := by
  rw [contains, get?_mapValues, Option.isSome_map, contains]

theorem after_mapValues (cursor : Option String) :
    (map.mapValues f).after cursor = (map.after cursor).map fun entry => (entry.1, f entry.2) := by
  cases cursor with
  | none => rfl
  | some cursor =>
    simp only [after, mapValues, List.filter_map]
    rfl

/-! ### Lists of entries -/

theorem entries_foldl_insert (map : KeyMap α) {entries : List (String × α)}
    (h : Ascending (map.entries ++ entries)) :
    (entries.foldl (fun map entry => map.insert entry.1 entry.2) map).entries =
      map.entries ++ entries := by
  induction entries generalizing map with
  | nil => simp
  | cons head rest ih =>
    have hinsert : (map.insert head.1 head.2).entries = map.entries ++ [head] := by
      refine insertEntry_append head.2 fun entry member => ?_
      exact (List.pairwise_append.1 h).2.2 entry member head List.mem_cons_self
    rw [List.foldl_cons, ih _ (by rwa [hinsert, List.append_assoc]), hinsert, List.append_assoc]
    rfl

/-- An ascending list describes the map of its own entries. -/
theorem entries_ofList {entries : List (String × α)} (h : Ascending entries) :
    (ofList entries).entries = entries :=
  entries_foldl_insert empty h

/-- The order of a list does not matter when it names every entry once. -/
theorem foldl_insert_perm {entries entries' : List (String × α)} (h : entries.Perm entries')
    (hnames : (entries.map (·.1)).Nodup) (map : KeyMap α) :
    entries.foldl (fun map entry => map.insert entry.1 entry.2) map =
      entries'.foldl (fun map entry => map.insert entry.1 entry.2) map := by
  induction h generalizing map with
  | nil => rfl
  | cons entry _ ih => exact ih (List.nodup_cons.1 hnames).2 _
  | swap entry entry' entries =>
    have hne : entry'.1 ≠ entry.1 := by
      intro heq
      simp [heq] at hnames
    simp only [List.foldl_cons, map.insert_comm hne]
  | trans h _ ih ih' => rw [ih hnames, ih' ((h.map _).nodup_iff.1 hnames)]

theorem ofList_perm {entries entries' : List (String × α)} (h : entries.Perm entries')
    (hnames : (entries.map (·.1)).Nodup) : ofList entries = ofList entries' :=
  foldl_insert_perm h hnames empty

theorem mem_foldl_insert {entries : List (String × α)} {map : KeyMap α} {entry : String × α}
    (h : entry ∈ (entries.foldl (fun map entry => map.insert entry.1 entry.2) map).entries) :
    entry ∈ map.entries ∨ entry ∈ entries := by
  induction entries generalizing map with
  | nil => exact .inl h
  | cons head rest ih =>
    rcases ih h with member | member
    · rcases mem_insertEntry member with rfl | member
      · exact .inr List.mem_cons_self
      · exact .inl member
    · exact .inr (List.mem_cons_of_mem _ member)

/-- The map of a list has no entries but those of the list. -/
theorem mem_of_mem_ofList {entries : List (String × α)} {entry : String × α}
    (h : entry ∈ (ofList entries).entries) : entry ∈ entries :=
  (mem_foldl_insert h).resolve_left (List.not_mem_nil)

/-! ### Cursors -/

/-- The name lies strictly behind the cursor, if there is one. -/
def Behind (cursor : Option String) (key : String) : Prop := ∀ last ∈ cursor, last < key

instance (cursor : Option String) (key : String) : Decidable (Behind cursor key) :=
  inferInstanceAs (Decidable (∀ last ∈ cursor, last < key))

theorem mem_after {cursor : Option String} {entry : String × α} :
    entry ∈ map.after cursor ↔ entry ∈ map.entries ∧ Behind cursor entry.1 := by
  cases cursor with
  | none => simp [after, Behind]
  | some last => simp [after, Behind]

theorem map_fst_after (cursor : Option String) :
    (map.after cursor).map (·.1) = map.keys.filter (Behind cursor ·) := by
  cases cursor with
  | none => exact (List.filter_eq_self.2 (by simp [Behind])).symm
  | some last => simp [after, Behind, keys, List.filter_map, Function.comp_def]

/-- In an ascending list the entries behind an entry are those with greater names. -/
theorem filter_of_split {before behind : List (String × α)} {entry : String × α}
    (h : Ascending (before ++ entry :: behind)) :
    (before ++ entry :: behind).filter (entry.1 < ·.1) = behind := by
  obtain ⟨_, htail, hcross⟩ := List.pairwise_append.1 h
  obtain ⟨hbehind, _⟩ := List.pairwise_cons.1 htail
  have hdropped : ∀ e ∈ before ++ [entry], ¬ entry.1 < e.1 := by
    intro e member
    rcases List.mem_append.1 member with member | member
    · exact String.lt_asymm (hcross e member entry List.mem_cons_self)
    · rw [List.mem_singleton.1 member]
      exact String.lt_irrefl _
  rw [List.append_cons, List.filter_append, List.filter_eq_nil_iff.2, List.nil_append,
    List.filter_eq_self.2]
  · simpa using hbehind
  · simpa using hdropped

theorem ascending_after (cursor : Option String) : Ascending (map.after cursor) := by
  cases cursor with
  | none => exact map.ascending
  | some cursor => exact map.ascending.filter _

/-- Behind an entry that lies behind a cursor are those of the entries behind the cursor that follow
it. -/
theorem after_of_split {cursor : Option String} {before behind : List (String × α)}
    {entry : String × α} (h : map.after cursor = before ++ entry :: behind) :
    map.after (some entry.1) = behind := by
  have hbehind := filter_of_split (h ▸ map.ascending_after cursor)
  rw [← h] at hbehind
  cases cursor with
  | none => exact hbehind
  | some cursor =>
    rw [← hbehind, after, after, List.filter_filter]
    have hentry : cursor < entry.1 := by
      have member : entry ∈ map.after (some cursor) := by simp [h]
      simpa using (List.mem_filter.1 member).2
    refine List.filter_congr fun e _ => ?_
    by_cases hless : entry.1 < e.1
    · simp [hless, String.lt_trans hentry hless]
    · simp [hless]

end DocumentServer.KeyMap
