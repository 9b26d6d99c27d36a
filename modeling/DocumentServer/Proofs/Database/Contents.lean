import DocumentServer.Database.Vault

/-! What work on one database does to a vault. The manager that belongs to a database leads back to
it, so working through the manager changes the documents of that database and of no other. -/
namespace DocumentServer.Vault

/-- The managers that belong to databases lead back to them. -/
def Owned (vault : Vault) : Prop :=
  ∀ (number : Nat) (cell : Cell) (manager : Manager), vault.cells[number]? = some cell →
    cell.own = some manager → manager.database = number

variable {vault : Vault}

theorem owned_empty : Owned .empty := fun _ _ _ h => nomatch h

theorem getElem?_modify (vault : Vault) (number : Nat) (f : Cell → Cell) (n : Nat) :
    (vault.modify number f).cells[n]? =
      if n = number then vault.cells[n]?.map f else vault.cells[n]? := by
  show (vault.cells.modify number f)[n]? = _
  by_cases h : n = number
  · subst h
    rw [List.getElem?_modify_eq, if_pos rfl]
    rfl
  · rw [List.getElem?_modify_ne f _ (Ne.symm h), if_neg h]

@[simp] theorem length_modify (vault : Vault) (number : Nat) (f : Cell → Cell) :
    (vault.modify number f).cells.length = vault.cells.length :=
  List.length_modify ..

/-- A list with one more item at its end. -/
theorem getElem?_concat {α : Type} (items : List α) (item : α) (n : Nat) :
    (items ++ [item])[n]? = if n = items.length then some item else items[n]? := by
  rcases Nat.lt_trichotomy n items.length with hold | rfl | hbeyond
  · rw [List.getElem?_append_left hold, if_neg (Nat.ne_of_lt hold)]
  · rw [List.getElem?_concat_length, if_pos rfl]
  · rw [if_neg (Nat.ne_of_gt hbeyond), List.getElem?_eq_none (Nat.le_of_lt hbeyond),
      List.getElem?_eq_none (by rwa [List.length_append])]

theorem getElem?_create (vault : Vault) (id : String) (content : ObjectStore)
    (file : Option String) (n : Nat) :
    (vault.create id content file).2.cells[n]? =
      if n = vault.cells.length then some ⟨content, file, none⟩ else vault.cells[n]? :=
  getElem?_concat ..

theorem Owned.create (h : vault.Owned) (id : String) (content : ObjectStore)
    (file : Option String) : (vault.create id content file).2.Owned := by
  intro n cell manager hcell hown
  rw [getElem?_create] at hcell
  split at hcell
  · cases hcell
    cases hown
  · exact h n cell manager hcell hown

theorem content_create (vault : Vault) (id : String) (content : ObjectStore)
    (file : Option String) (n : Nat) :
    (vault.create id content file).2.content n =
      if n = vault.cells.length then content else vault.content n := by
  rw [Vault.content, getElem?_create, Vault.content]
  split <;> rfl

/-- A change that gives no database another's manager. -/
theorem Owned.modify (h : vault.Owned) {number : Nat} {f : Cell → Cell}
    (hf : ∀ cell manager, vault.cells[number]? = some cell → (f cell).own = some manager →
      manager.database = number) : (vault.modify number f).Owned := by
  intro n cell manager hcell hown
  rw [getElem?_modify] at hcell
  split at hcell
  next same =>
    subst same
    obtain ⟨old, hold, rfl⟩ := Option.map_eq_some_iff.1 hcell
    exact hf old manager hold hown
  next => exact h n cell manager hcell hown

theorem content_modify_of_content (vault : Vault) (number : Nat) {f : Cell → Cell}
    (hf : ∀ cell, (f cell).content = cell.content) (n : Nat) :
    (vault.modify number f).content n = vault.content n := by
  rw [content, getElem?_modify, content]
  split
  · cases vault.cells[n]? with
    | none => rfl
    | some cell => exact hf cell
  · rfl

theorem content_modify_set {number : Nat} (hnumber : number < vault.cells.length)
    (content : ObjectStore) (n : Nat) :
    (vault.modify number ({ · with content })).content n =
      if n = number then content else vault.content n := by
  rw [Vault.content, getElem?_modify]
  split
  next same =>
    subst same
    rw [List.getElem?_eq_getElem hnumber]
    rfl
  next => rfl

/-- What asking a database for its manager leaves as it is. -/
theorem ownManager_spec (h : vault.Owned) {database : Database}
    (hnumber : database.number < vault.cells.length) :
    (vault.ownManager database).1.database = database.number ∧
      (vault.ownManager database).2.Owned ∧
      (vault.ownManager database).2.cells.length = vault.cells.length ∧
      ∀ n, (vault.ownManager database).2.content n = vault.content n := by
  rw [ownManager, List.getElem?_eq_getElem hnumber, Option.bind_some]
  cases hown : vault.cells[database.number].own with
  | some manager =>
    exact ⟨h _ _ manager (List.getElem?_eq_getElem hnumber) hown, h, rfl, fun _ => rfl⟩
  | none =>
    refine ⟨rfl, Owned.modify h fun _ manager _ hown => ?_, length_modify .., fun n => ?_⟩
    · cases hown
      rfl
    · exact content_modify_of_content (vault.newManager database).2 database.number
        (f := ({ · with own := some (vault.newManager database).1 })) (fun _ => rfl) n

theorem files_modify (vault : Vault) (number : Nat) {f : Cell → Cell}
    (hf : ∀ cell, (f cell).file = cell.file) :
    (vault.modify number f).cells.map (·.file) = vault.cells.map (·.file) := by
  refine List.ext_getElem? fun n => ?_
  rw [List.getElem?_map, getElem?_modify, List.getElem?_map]
  split
  · cases vault.cells[n]? with
    | none => rfl
    | some cell => exact congrArg some (hf cell)
  · rfl

/-- Work on a database leaves every database in its file. -/
theorem files_update {α : Type} (vault : Vault) (database : Database)
    (f : ObjectStore → α × ObjectStore) :
    (vault.update database f).2.cells.map (·.file) = vault.cells.map (·.file) := by
  have hown : (vault.ownManager database).2.cells.map (·.file) = vault.cells.map (·.file) := by
    rw [ownManager]
    split
    · rfl
    · refine files_modify _ _ ?_
      exact fun _ => rfl
  refine Eq.trans (files_modify _ _ ?_) hown
  exact fun _ => rfl

/-- What work on a database leaves of a vault. -/
structure Updated (vault : Vault) (number : Nat) (content : ObjectStore) (after : Vault) :
    Prop where
  owned : after.Owned
  length : after.cells.length = vault.cells.length
  content : ∀ n, after.content n = if n = number then content else vault.content n

/-- Work on a database sees its documents and changes no others. -/
theorem update_spec {α : Type} (h : vault.Owned) {database : Database}
    (hnumber : database.number < vault.cells.length) (f : ObjectStore → α × ObjectStore) :
    (vault.update database f).1 = (f (vault.content database.number)).1 ∧
      vault.Updated database.number (f (vault.content database.number)).2
        (vault.update database f).2 := by
  obtain ⟨hmanager, howned, hlength, hcontent⟩ := ownManager_spec h hnumber
  have hroot : (vault.ownManager database).1.root.database = database.number := hmanager
  rw [← hlength] at hnumber
  simp only [update, updateRoot, hroot, hcontent]
  refine ⟨trivial, howned.modify fun cell manager hcell hown => ?_, ?_, fun n => ?_⟩
  · exact howned _ cell manager hcell hown
  · rw [length_modify, hlength]
  · rw [content_modify_set hnumber, hcontent]

/-- Work through the manager of a database sees the documents of that database. -/
theorem fst_update {α : Type} (h : vault.Owned) (database : Database)
    (f : ObjectStore → α × ObjectStore) :
    (vault.update database f).1 = (f (vault.content database.number)).1 := by
  by_cases hnumber : database.number < vault.cells.length
  · exact (update_spec h hnumber f).1
  · have hcell : vault.cells[database.number]? = none := List.getElem?_eq_none (by omega)
    have hcontent := content_modify_of_content (vault.newManager database).2 database.number
      (f := ({ · with own := some (vault.newManager database).1 })) (fun _ => rfl)
    simp only [update, ownManager, hcell, Option.bind_none, updateRoot, hcontent]
    rfl

end DocumentServer.Vault
