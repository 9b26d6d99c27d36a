import DocumentServer.Application
import DocumentServer.Proofs.Database.Contents
import DocumentServer.Proofs.KeyMap
import Mathlib.Data.List.Forall2
import Mathlib.Logic.Function.Basic

/-! Handles of one database are interchangeable. A `Desk` is an application with all handles that
were given out: databases, managers, roots and walks, in any number and kept for as long as anyone
likes, whatever happens to the names of the databases. A `Shelf` has the bare stores instead, and in
the place of a handle a label that says which store it stands for. Whatever is done at a desk gives
what it gives at the shelf, where calls go to the stores themselves. -/
namespace DocumentServer.Sharing

inductive Handle where
  | database (database : Database)
  | manager (manager : Manager)
  | root (root : Root)
  | walk (root : Root) (paging : Paging)

structure Desk where
  app : Application
  held : List Handle

/-- What is done at a desk. Handles are given by their numbers. -/
inductive Act where
  /-- Makes a database of some documents. -/
  | create (id : String) (content : ObjectStore) (file : Option String)
  /-- Gives a database a name, which may have been another's. -/
  | register (name : String) (handle : Nat)
  /-- Drops a name and hands out its database. -/
  | unregister (name : String)
  | lookup (name : String)
  /-- Hands out every database that has a name. -/
  | registered
  | copy (handle : Nat)
  | ownManager (handle : Nat)
  | newManager (handle : Nat)
  /-- Asks a database for a manager when there is one already. -/
  | managerFor (handle : Nat) (given : Nat)
  | root (handle : Nat)
  | call (handle : Nat) (call : StoreCall)
  /-- Sets out on a walk through the documents. -/
  | walk (handle : Nat)
  | poll (handle : Nat)

inductive Seen where
  | done
  /-- The handle is not there, or is not of the right kind. -/
  | refused
  | failed (error : DbError)
  | answer (answer : Except DbError StoreAnswer)
  | item (item : Option StoreItem)

namespace Desk

def fresh (configFile : Option String) : Desk := ⟨.empty configFile, []⟩

def hold (desk : Desk) (handle : Handle) : Seen × Desk :=
  (.done, { desk with held := desk.held ++ [handle] })

def withVault (desk : Desk) (vault : Vault) : Desk := { desk with app := { desk.app with vault } }

@[simp] def act (desk : Desk) : Act → Seen × Desk
  | .create id content file =>
    let (database, vault) := desk.app.vault.create id content file
    (desk.withVault vault).hold (.database database)
  | .register name i =>
    match desk.held[i]? with
    | some (.database database) => (.done, { desk with app := desk.app.setItem name database })
    | _ => (.refused, desk)
  | .unregister name =>
    match desk.app.delItem name with
    | .ok (database, app) => { desk with app }.hold (.database database)
    | .error error => (.failed error, desk)
  | .lookup name =>
    match desk.app.getItem name with
    | .ok database => desk.hold (.database database)
    | .error error => (.failed error, desk)
  | .registered =>
    (.done, { desk with held := desk.held ++ desk.app.items.map fun entry => .database entry.2 })
  | .copy i =>
    match desk.held[i]? with
    | none | some (.walk ..) => (.refused, desk)
    | some handle => desk.hold handle
  | .ownManager i =>
    match desk.held[i]? with
    | some (.database database) =>
      let (manager, vault) := desk.app.vault.managerFor database none
      (desk.withVault vault).hold (.manager manager)
    | _ => (.refused, desk)
  | .newManager i =>
    match desk.held[i]? with
    | some (.database database) =>
      let (manager, vault) := desk.app.vault.newManager database
      (desk.withVault vault).hold (.manager manager)
    | _ => (.refused, desk)
  | .managerFor i j =>
    match desk.held[i]?, desk.held[j]? with
    | some (.database database), some (.manager given) =>
      let (manager, vault) := desk.app.vault.managerFor database (some given)
      (desk.withVault vault).hold (.manager manager)
    | _, _ => (.refused, desk)
  | .root i =>
    match desk.held[i]? with
    | some (.database database) =>
      let (manager, vault) := desk.app.vault.ownManager database
      (desk.withVault vault).hold (.root manager.root)
    | some (.manager manager) => desk.hold (.root manager.root)
    | _ => (.refused, desk)
  | .call i call =>
    match desk.held[i]? with
    | some (.database database) =>
      let (answer, app) := desk.app.call database call
      (.answer answer, { desk with app })
    | some (.root root) =>
      let (answer, vault) := desk.app.vault.callRoot root call
      (.answer answer, desk.withVault vault)
    | _ => (.refused, desk)
  | .walk i =>
    match desk.held[i]? with
    | some (.database database) =>
      let (manager, vault) := desk.app.vault.ownManager database
      (desk.withVault vault).hold (.walk manager.root .fresh)
    | some (.root root) => desk.hold (.walk root .fresh)
    | _ => (.refused, desk)
  | .poll i =>
    match desk.held[i]? with
    | some (.walk root paging) =>
      let (item, paging) := paging.poll (desk.app.vault.content root.database)
      (.item item, { desk with held := desk.held.set i (.walk root paging) })
    | _ => (.refused, desk)

def run (desk : Desk) : List Act → List Seen × Desk
  | [] => ([], desk)
  | act :: rest =>
    let (seen, desk) := desk.act act
    let (others, desk) := desk.run rest
    (seen :: others, desk)

/-- The identifier of the manager with a number. -/
def managerId? (desk : Desk) (i : Nat) : Option Nat :=
  match desk.held[i]? with
  | some (.manager manager) => some manager.id
  | _ => none

end Desk

/-- Which manager it is: the one that belongs to a database, or one of those made besides. -/
inductive Tag where
  | own (number : Nat)
  | made (count : Nat)
  deriving DecidableEq

/-- What a handle stands for: a store, and which manager or how far a walk. -/
inductive Label where
  | database (number : Nat)
  | manager (number : Nat) (tag : Tag)
  | root (number : Nat)
  | walk (number : Nat) (paging : Paging)

structure Shelf where
  stores : List ObjectStore
  names : KeyMap Nat
  labels : List Label
  /-- How many managers were made apart from those that belong to databases. -/
  made : Nat

namespace Shelf

def empty : Shelf := ⟨[], ∅, [], 0⟩

def store (shelf : Shelf) (number : Nat) : ObjectStore := (shelf.stores[number]?).getD ∅

def hold (shelf : Shelf) (label : Label) : Seen × Shelf :=
  (.done, { shelf with labels := shelf.labels ++ [label] })

def call (shelf : Shelf) (number : Nat) (call : StoreCall) : Seen × Shelf :=
  let (answer, store) := (shelf.store number).call call
  (.answer answer, { shelf with stores := shelf.stores.set number store })

@[simp] def act (shelf : Shelf) : Act → Seen × Shelf
  | .create _ content _ =>
    { shelf with stores := shelf.stores ++ [content] }.hold (.database shelf.stores.length)
  | .register name i =>
    match shelf.labels[i]? with
    | some (.database number) => (.done, { shelf with names := shelf.names.insert name number })
    | _ => (.refused, shelf)
  | .unregister name =>
    match shelf.names.get? name with
    | some number => { shelf with names := shelf.names.erase name }.hold (.database number)
    | none => (.failed (.notFound name), shelf)
  | .lookup name =>
    match shelf.names.get? name with
    | some number => shelf.hold (.database number)
    | none => (.failed (.notFound name), shelf)
  | .registered =>
    (.done, { shelf with
      labels := shelf.labels ++ shelf.names.entries.map fun entry => .database entry.2 })
  | .copy i =>
    match shelf.labels[i]? with
    | none | some (.walk ..) => (.refused, shelf)
    | some label => shelf.hold label
  | .ownManager i =>
    match shelf.labels[i]? with
    | some (.database number) => shelf.hold (.manager number (.own number))
    | _ => (.refused, shelf)
  | .newManager i =>
    match shelf.labels[i]? with
    | some (.database number) =>
      { shelf with made := shelf.made + 1 }.hold (.manager number (.made shelf.made))
    | _ => (.refused, shelf)
  | .managerFor i j =>
    match shelf.labels[i]?, shelf.labels[j]? with
    | some (.database _), some (.manager number tag) => shelf.hold (.manager number tag)
    | _, _ => (.refused, shelf)
  | .root i =>
    match shelf.labels[i]? with
    | some (.database number) | some (.manager number _) => shelf.hold (.root number)
    | _ => (.refused, shelf)
  | .call i call =>
    match shelf.labels[i]? with
    | some (.database number) | some (.root number) => shelf.call number call
    | _ => (.refused, shelf)
  | .walk i =>
    match shelf.labels[i]? with
    | some (.database number) | some (.root number) => shelf.hold (.walk number .fresh)
    | _ => (.refused, shelf)
  | .poll i =>
    match shelf.labels[i]? with
    | some (.walk number paging) =>
      let (item, paging) := paging.poll (shelf.store number)
      (.item item, { shelf with labels := shelf.labels.set i (.walk number paging) })
    | _ => (.refused, shelf)

def run (shelf : Shelf) : List Act → List Seen × Shelf
  | [] => ([], shelf)
  | act :: rest =>
    let (seen, shelf) := shelf.act act
    let (others, shelf) := shelf.run rest
    (seen :: others, shelf)

/-- Which manager the label with a number stands for. -/
def tag? (shelf : Shelf) (i : Nat) : Option Tag :=
  match shelf.labels[i]? with
  | some (.manager _ tag) => some tag
  | _ => none

/-- The store that an act may change. -/
def target? (shelf : Shelf) : Act → Option Nat
  | .create .. => some shelf.stores.length
  | .call i _ =>
    match shelf.labels[i]? with
    | some (.database number) | some (.root number) => some number
    | _ => none
  | _ => none

end Shelf

/-! ### Identifiers of managers -/

/-- The identifiers of the managers that were made: no two managers share one, and none is past the
last one that was issued. -/
structure Issued (ids : Tag → Option Nat) (issued : Nat) : Prop where
  bounded : ∀ tag id, ids tag = some id → id ≤ issued
  injective : ∀ tag tag' id, ids tag = some id → ids tag' = some id → tag = tag'

/-- No manager changes its identifier. -/
def Extends (ids ids' : Tag → Option Nat) : Prop := ∀ tag id, ids tag = some id → ids' tag = some id

variable {ids ids' : Tag → Option Nat} {vault : Vault} {stores : List ObjectStore}
  {made issued : Nat} {database : Database}

theorem Extends.refl (ids : Tag → Option Nat) : Extends ids ids := fun _ _ h => h

theorem Issued.issue (h : Issued ids issued) (tag : Tag) :
    Issued (Function.update ids tag (some (issued + 1))) (issued + 1) where
  bounded other id hid := by
    by_cases hother : other = tag
    · subst hother
      rw [Function.update_self, Option.some_inj] at hid
      exact Nat.le_of_eq hid.symm
    · rw [Function.update_of_ne hother] at hid
      exact Nat.le_succ_of_le (h.bounded other id hid)
  injective a b id ha hb := by
    by_cases hatag : a = tag
    · by_cases hbtag : b = tag
      · rw [hatag, hbtag]
      · subst hatag
        rw [Function.update_self, Option.some_inj] at ha
        rw [Function.update_of_ne hbtag] at hb
        have := h.bounded b id hb
        omega
    · rw [Function.update_of_ne hatag] at ha
      by_cases hbtag : b = tag
      · subst hbtag
        rw [Function.update_self, Option.some_inj] at hb
        have := h.bounded a id ha
        omega
      · rw [Function.update_of_ne hbtag] at hb
        exact h.injective a b id ha hb

theorem extends_update {tag : Tag} (h : ids tag = none) (id : Nat) :
    Extends ids (Function.update ids tag (some id)) := by
  intro other id' hid
  have hne : other ≠ tag := by
    rintro rfl
    rw [h] at hid
    cases hid
  rwa [Function.update_of_ne hne]

/-! ### Vaults and stores -/

/-- The identifier of the manager that belongs to a database, once there is one. -/
def ownId? (vault : Vault) (number : Nat) : Option Nat :=
  ((vault.cells[number]?).bind (·.own)).map (·.id)

/-- A vault that keeps some stores and has made some managers. -/
structure Kept (ids : Tag → Option Nat) (vault : Vault) (stores : List ObjectStore) (made : Nat) :
    Prop where
  issued : Issued ids vault.issued
  own : ∀ number, ids (.own number) = ownId? vault number
  unmade : ∀ count, made ≤ count → ids (.made count) = none
  owned : vault.Owned
  length : vault.cells.length = stores.length
  content : ∀ number, vault.content number = (stores[number]?).getD ∅

theorem kept_empty : Kept (fun _ => none) .empty [] 0 where
  issued := ⟨fun _ _ h => (nomatch h), fun _ _ _ h => (nomatch h)⟩
  own _ := rfl
  unmade _ _ := rfl
  owned := Vault.owned_empty
  length := rfl
  content _ := rfl

theorem Kept.create (h : Kept ids vault stores made) (id : String) (content : ObjectStore)
    (file : Option String) :
    Kept ids (vault.create id content file).2 (stores ++ [content]) made where
  issued := h.issued
  own number := by
    rw [h.own, ownId?, ownId?, Vault.getElem?_create]
    split
    next hlast =>
      rw [hlast, List.getElem?_eq_none (Nat.le_refl _)]
      rfl
    next => rfl
  unmade := h.unmade
  owned := h.owned.create id content file
  length := by
    show (vault.cells ++ [_]).length = _
    rw [List.length_append, List.length_append, h.length]
    rfl
  content number := by
    rw [Vault.content_create, h.content, h.length, Vault.getElem?_concat]
    split <;> rfl

theorem Kept.setContent (h : Kept ids vault stores made) {number : Nat}
    (hnumber : number < stores.length) (content : ObjectStore) :
    Kept ids (vault.modify number ({ · with content })) (stores.set number content) made where
  issued := h.issued
  own other := by
    rw [h.own, ownId?, ownId?, Vault.getElem?_modify]
    split
    · cases vault.cells[other]? <;> rfl
    · rfl
  unmade := h.unmade
  owned := h.owned.modify fun cell manager hcell hown => h.owned _ cell manager hcell hown
  length := by rw [Vault.length_modify, List.length_set, h.length]
  content other := by
    rw [Vault.content_modify_set (h.length ▸ hnumber), h.content]
    split
    next hsame => rw [hsame, List.getElem?_set_self hnumber, Option.getD_some]
    next hother => rw [List.getElem?_set_ne (Ne.symm hother)]

theorem Kept.newManager (h : Kept ids vault stores made) (database : Database) :
    let after := vault.newManager database
    let ids' := Function.update ids (.made made) (some after.1.id)
    Kept ids' after.2 stores (made + 1) ∧ Extends ids ids' where
  left := {
    issued := h.issued.issue _
    own number := h.own number
    unmade count hcount := by
      rw [Function.update_of_ne]
      · exact h.unmade count (Nat.le_of_succ_le hcount)
      · intro heq
        cases heq
        exact Nat.not_succ_le_self _ hcount
    owned := h.owned
    length := h.length
    content := h.content }
  right := extends_update (h.unmade made (Nat.le_refl _)) _

/-- Asking a database for its manager makes one if there is none, and gives that one ever after. -/
theorem Kept.ownManager (h : Kept ids vault stores made)
    (hnumber : database.number < stores.length) :
    let after := vault.ownManager database
    after.1.database = database.number ∧ ∃ ids', Kept ids' after.2 stores made ∧
      Extends ids ids' ∧ ids' (.own database.number) = some after.1.id := by
  rw [← h.length] at hnumber
  obtain ⟨hmanager, howned, hlength, hcontent⟩ := Vault.ownManager_spec h.owned hnumber
  refine ⟨hmanager, ?_⟩
  have hown := h.own database.number
  rw [ownId?, List.getElem?_eq_getElem hnumber, Option.bind_some] at hown
  cases hcell : vault.cells[database.number].own with
  | some manager =>
    have hsame : vault.ownManager database = (manager, vault) := by
      rw [Vault.ownManager, List.getElem?_eq_getElem hnumber, Option.bind_some, hcell]
    rw [hsame]
    exact ⟨ids, h, .refl ids, by rw [hown, hcell]; rfl⟩
  | none =>
    rw [hcell] at hown
    have hmade : vault.ownManager database =
        ((vault.newManager database).1, (vault.newManager database).2.modify database.number
          ({ · with own := some (vault.newManager database).1 })) := by
      rw [Vault.ownManager, List.getElem?_eq_getElem hnumber, Option.bind_some, hcell]
    refine ⟨Function.update ids (.own database.number) (some (vault.issued + 1)), ?_,
      extends_update hown _, by rw [hmade, Function.update_self]; rfl⟩
    refine ⟨?_, fun number => ?_, fun count hcount => ?_, howned, hlength.trans h.length,
      fun number => (hcontent number).trans (h.content number)⟩
    · rw [hmade]
      exact h.issued.issue _
    · rw [hmade, ownId?, Vault.getElem?_modify]
      split
      next hsame =>
        have hcell : (vault.newManager database).2.cells[database.number]? =
            some vault.cells[database.number] := List.getElem?_eq_getElem hnumber
        rw [hsame, Function.update_self, hcell]
        rfl
      next hother =>
        rw [Function.update_of_ne (by simpa using hother)]
        exact h.own number
    · rw [Function.update_of_ne (by simp)]
      exact h.unmade count hcount

/-! ### Desks and shelves -/

/-- A handle leads to one of the stores, which is the one that its label says. Where there is no
handle, there is no label. -/
inductive Shows (ids : Tag → Option Nat) (count : Nat) : Option Handle → Option Label → Prop
  | absent : Shows ids count none none
  | database {database : Database} : database.number < count →
      Shows ids count (some (.database database)) (some (.database database.number))
  | manager (manager : Manager) {tag : Tag} : manager.database < count →
      ids tag = some manager.id →
      Shows ids count (some (.manager manager)) (some (.manager manager.database tag))
  | root (root : Root) : root.database < count →
      Shows ids count (some (.root root)) (some (.root root.database))
  | walk (root : Root) (paging : Paging) : root.database < count →
      Shows ids count (some (.walk root paging)) (some (.walk root.database paging))

theorem Shows.extend {count count' : Nat} {handle : Option Handle} {label : Option Label}
    (h : Shows ids count handle label) (hids : Extends ids ids') (hcount : count ≤ count') :
    Shows ids' count' handle label := by
  cases h with
  | absent => exact .absent
  | database h => exact .database (Nat.lt_of_lt_of_le h hcount)
  | manager manager h hid => exact .manager manager (Nat.lt_of_lt_of_le h hcount) (hids _ _ hid)
  | root root h => exact .root root (Nat.lt_of_lt_of_le h hcount)
  | walk root paging h => exact .walk root paging (Nat.lt_of_lt_of_le h hcount)

/-- Handles beside their labels. -/
def Labelled (ids : Tag → Option Nat) (count : Nat) : List Handle → List Label → Prop :=
  List.Forall₂ fun handle label => Shows ids count (some handle) (some label)

theorem Labelled.getElem? {count : Nat} {held : List Handle} {labels : List Label}
    (h : Labelled ids count held labels) (i : Nat) : Shows ids count held[i]? labels[i]? := by
  induction h generalizing i with
  | nil => exact .absent
  | cons hhead _ ih =>
    cases i with
    | zero => exact hhead
    | succ i => exact ih i

theorem Labelled.set {count : Nat} {held : List Handle} {labels : List Label}
    (h : Labelled ids count held labels) (i : Nat) {handle : Handle} {label : Label}
    (hshows : Shows ids count (some handle) (some label)) :
    Labelled ids count (held.set i handle) (labels.set i label) := by
  induction h generalizing i with
  | nil => exact .nil
  | cons hhead htail ih =>
    cases i with
    | zero => exact .cons hshows htail
    | succ i => exact .cons hhead (ih i)

/-- A desk and the shelf that says what is done at it. -/
structure Depicts (ids : Tag → Option Nat) (desk : Desk) (shelf : Shelf) : Prop where
  kept : Kept ids desk.app.vault shelf.stores shelf.made
  names : desk.app.databases.mapValues (·.number) = shelf.names
  registered : ∀ name database, desk.app.databases.get? name = some database →
    database.number < shelf.stores.length
  held : Labelled ids shelf.stores.length desk.held shelf.labels

/-- What is seen at a desk is seen at the shelf, which still says what is done at the desk. -/
def Agree (done : Seen × Desk) (told : Seen × Shelf) : Prop :=
  done.1 = told.1 ∧ ∃ ids, Depicts ids done.2 told.2

namespace Depicts

variable {desk : Desk} {shelf : Shelf}

theorem fresh (configFile : Option String) :
    Depicts (fun _ => none) (.fresh configFile) .empty where
  kept := kept_empty
  names := rfl
  registered _ _ h := nomatch h
  held := .nil

/-- Work on the vault that loses no store and no manager. -/
theorem withVault (h : Depicts ids desk shelf) (hkept : Kept ids' vault stores made)
    (hids : Extends ids ids') (hcount : shelf.stores.length ≤ stores.length) :
    Depicts ids' (desk.withVault vault) { shelf with stores, made } where
  kept := hkept
  names := h.names
  registered name database hfound := Nat.lt_of_lt_of_le (h.registered name database hfound) hcount
  held := h.held.imp fun _ _ hshows => hshows.extend hids hcount

/-- A database with its manager at hand. -/
theorem withOwn (h : Depicts ids desk shelf) (hnumber : database.number < shelf.stores.length) :
    let after := desk.app.vault.ownManager database
    after.1.database = database.number ∧ ∃ ids', Depicts ids' (desk.withVault after.2) shelf ∧
      ids' (.own database.number) = some after.1.id := by
  obtain ⟨hmanager, ids', hkept, hids, hid⟩ := h.kept.ownManager hnumber
  exact ⟨hmanager, ids', h.withVault hkept hids (Nat.le_refl _), hid⟩

theorem unchanged (h : Depicts ids desk shelf) (seen : Seen) :
    Agree (seen, desk) (seen, shelf) := ⟨rfl, ids, h⟩

theorem hold (h : Depicts ids desk shelf) {handle : Handle} {label : Label}
    (hshows : Shows ids shelf.stores.length (some handle) (some label)) :
    Agree (desk.hold handle) (shelf.hold label) :=
  ⟨rfl, ids, h.kept, h.names, h.registered, List.rel_append h.held (.cons hshows .nil)⟩

/-- What becomes of a call on a root. -/
theorem callRoot (h : Depicts ids desk shelf) (root : Root)
    (hnumber : root.database < shelf.stores.length) (call : StoreCall) :
    let after := desk.app.vault.callRoot root call
    Agree (.answer after.1, desk.withVault after.2) (shelf.call root.database call) := by
  have hcontent := h.kept.content root.database
  simp only [Shelf.call, Shelf.store, Vault.callRoot, Vault.updateRoot, hcontent]
  exact ⟨rfl, ids, h.withVault (h.kept.setContent hnumber _) (.refl ids)
    (Nat.le_of_eq (List.length_set ..).symm)⟩

/-! ### Acts without a handle -/

theorem get?_names (h : Depicts ids desk shelf) (name : String) :
    shelf.names.get? name = (desk.app.databases.get? name).map (·.number) := by
  rw [← h.names, KeyMap.get?_mapValues]

theorem create (h : Depicts ids desk shelf) (id : String) (content : ObjectStore)
    (file : Option String) :
    Agree (desk.act (.create id content file)) (shelf.act (.create id content file)) := by
  have hcount : shelf.stores.length < (shelf.stores ++ [content]).length := by
    rw [List.length_append]
    exact Nat.lt_succ_self _
  have hmade := h.withVault (h.kept.create id content file) (.refl ids) (Nat.le_of_lt hcount)
  have hnumber : (desk.app.vault.create id content file).1.number = shelf.stores.length :=
    h.kept.length
  have hshows : Shows ids (shelf.stores ++ [content]).length
      (some (.database (desk.app.vault.create id content file).1))
      (some (.database shelf.stores.length)) := by
    rw [← hnumber] at hcount ⊢
    exact .database hcount
  exact hmade.hold hshows

theorem unregister (h : Depicts ids desk shelf) (name : String) :
    Agree (desk.act (.unregister name)) (shelf.act (.unregister name)) := by
  have hname := h.get?_names name
  simp only [Desk.act, Shelf.act, Application.delItem, Application.getItem, Application.find?]
  cases hfound : desk.app.databases.get? name with
  | none =>
    rw [hfound] at hname
    simp only [hname, Option.map_none, Except.map]
    exact h.unchanged _
  | some database =>
    rw [hfound] at hname
    have hdropped : Depicts ids
        { desk with app := { desk.app with databases := desk.app.databases.erase name } }
        { shelf with names := shelf.names.erase name } := by
      refine ⟨h.kept, ?_, fun other found hother => ?_, h.held⟩
      · simp only [KeyMap.mapValues_erase, h.names]
      · simp only [KeyMap.get?_erase] at hother
        split at hother
        · cases hother
        · exact h.registered other found hother
    simp only [hname, Option.map_some, Except.map]
    exact hdropped.hold (.database (h.registered name database hfound))

theorem lookup (h : Depicts ids desk shelf) (name : String) :
    Agree (desk.act (.lookup name)) (shelf.act (.lookup name)) := by
  have hname := h.get?_names name
  simp only [Desk.act, Shelf.act, Application.getItem, Application.find?]
  cases hfound : desk.app.databases.get? name with
  | none =>
    rw [hfound] at hname
    simp only [hname, Option.map_none]
    exact h.unchanged _
  | some database =>
    rw [hfound] at hname
    simp only [hname, Option.map_some]
    exact h.hold (.database (h.registered name database hfound))

theorem handOut (h : Depicts ids desk shelf) :
    Agree (desk.act .registered) (shelf.act .registered) := by
  refine ⟨rfl, ids, h.kept, h.names, h.registered, List.rel_append h.held ?_⟩
  have hentries : shelf.names.entries =
      desk.app.databases.entries.map fun entry => (entry.1, entry.2.number) := by
    rw [← h.names]
    rfl
  rw [hentries, List.map_map, Application.items]
  refine List.forall₂_map_left_iff.2 (List.forall₂_map_right_iff.2 (List.forall₂_same.2 ?_))
  intro entry member
  exact .database (h.registered entry.1 entry.2 ((KeyMap.mem_entries_iff ..).1 member))

/-! ### Acts on a handle -/

/-- Handles that are not of the right kind change nothing, so only those that are matter. -/
theorem register (h : Depicts ids desk shelf) (name : String) (i : Nat) :
    Agree (desk.act (.register name i)) (shelf.act (.register name i)) := by
  have hshows := h.held.getElem? i
  simp only [Desk.act, Shelf.act]
  generalize desk.held[i]? = handle, shelf.labels[i]? = label at hshows ⊢
  cases hshows with
  | @database database hnumber =>
    refine ⟨rfl, ids, h.kept, ?_, fun other found hfound => ?_, h.held⟩
    · simp only [Application.setItem, KeyMap.mapValues_insert, h.names]
    · simp only [Application.setItem, KeyMap.get?_insert] at hfound
      split at hfound
      · cases hfound
        exact hnumber
      · exact h.registered other found hfound
  | _ => exact h.unchanged _

theorem copy (h : Depicts ids desk shelf) (i : Nat) :
    Agree (desk.act (.copy i)) (shelf.act (.copy i)) := by
  have hshows := h.held.getElem? i
  simp only [Desk.act, Shelf.act]
  generalize desk.held[i]? = handle, shelf.labels[i]? = label at hshows ⊢
  have hkeep := hshows
  cases hshows with
  | absent => exact h.unchanged _
  | walk => exact h.unchanged _
  | _ => exact h.hold hkeep

theorem ownManager (h : Depicts ids desk shelf) (i : Nat) :
    Agree (desk.act (.ownManager i)) (shelf.act (.ownManager i)) := by
  have hshows := h.held.getElem? i
  simp only [Desk.act, Shelf.act]
  generalize desk.held[i]? = handle, shelf.labels[i]? = label at hshows ⊢
  cases hshows with
  | @database database hnumber =>
    obtain ⟨hmanager, ids', hown, hid⟩ := h.withOwn hnumber
    rw [← hmanager] at hnumber
    have hshows := Shows.manager _ hnumber hid
    rw [hmanager] at hshows
    exact hown.hold hshows
  | _ => exact h.unchanged _

theorem newManager (h : Depicts ids desk shelf) (i : Nat) :
    Agree (desk.act (.newManager i)) (shelf.act (.newManager i)) := by
  have hshows := h.held.getElem? i
  simp only [Desk.act, Shelf.act]
  generalize desk.held[i]? = handle, shelf.labels[i]? = label at hshows ⊢
  cases hshows with
  | @database database hnumber =>
    obtain ⟨hkept, hids⟩ := h.kept.newManager database
    exact (h.withVault hkept hids (Nat.le_refl _)).hold
      (.manager (desk.app.vault.newManager database).1 hnumber (Function.update_self ..))
  | _ => exact h.unchanged _

theorem managerFor (h : Depicts ids desk shelf) (i j : Nat) :
    Agree (desk.act (.managerFor i j)) (shelf.act (.managerFor i j)) := by
  have hshows := h.held.getElem? i
  have hgiven := h.held.getElem? j
  simp only [Desk.act, Shelf.act]
  generalize desk.held[i]? = handle, shelf.labels[i]? = label at hshows ⊢
  generalize desk.held[j]? = handle', shelf.labels[j]? = label' at hgiven ⊢
  have hkeep := hgiven
  cases hshows with
  | database =>
    cases hgiven with
    | manager => exact h.hold hkeep
    | _ => exact h.unchanged _
  | _ => exact h.unchanged _

theorem root (h : Depicts ids desk shelf) (i : Nat) :
    Agree (desk.act (.root i)) (shelf.act (.root i)) := by
  have hshows := h.held.getElem? i
  simp only [Desk.act, Shelf.act]
  generalize desk.held[i]? = handle, shelf.labels[i]? = label at hshows ⊢
  cases hshows with
  | @database database hnumber =>
    obtain ⟨hmanager, ids', hown, -⟩ := h.withOwn hnumber
    rw [← hmanager] at hnumber ⊢
    exact hown.hold (.root (desk.app.vault.ownManager database).1.root hnumber)
  | manager manager hnumber => exact h.hold (.root manager.root hnumber)
  | _ => exact h.unchanged _

theorem call (h : Depicts ids desk shelf) (i : Nat) (call : StoreCall) :
    Agree (desk.act (.call i call)) (shelf.act (.call i call)) := by
  have hshows := h.held.getElem? i
  simp only [Desk.act, Shelf.act]
  generalize desk.held[i]? = handle, shelf.labels[i]? = label at hshows ⊢
  cases hshows with
  | @database database hnumber =>
    -- A call on a database goes through the root of its own manager.
    obtain ⟨hmanager, ids', hown, -⟩ := h.withOwn hnumber
    rw [← hmanager] at hnumber ⊢
    exact hown.callRoot (desk.app.vault.ownManager database).1.root hnumber call
  | root root hnumber => exact h.callRoot root hnumber call
  | _ => exact h.unchanged _

theorem walk (h : Depicts ids desk shelf) (i : Nat) :
    Agree (desk.act (.walk i)) (shelf.act (.walk i)) := by
  have hshows := h.held.getElem? i
  simp only [Desk.act, Shelf.act]
  generalize desk.held[i]? = handle, shelf.labels[i]? = label at hshows ⊢
  cases hshows with
  | @database database hnumber =>
    obtain ⟨hmanager, ids', hown, -⟩ := h.withOwn hnumber
    rw [← hmanager] at hnumber ⊢
    exact hown.hold (.walk (desk.app.vault.ownManager database).1.root .fresh hnumber)
  | root root hnumber => exact h.hold (.walk root .fresh hnumber)
  | _ => exact h.unchanged _

theorem poll (h : Depicts ids desk shelf) (i : Nat) :
    Agree (desk.act (.poll i)) (shelf.act (.poll i)) := by
  have hshows := h.held.getElem? i
  simp only [Desk.act, Shelf.act]
  generalize desk.held[i]? = handle, shelf.labels[i]? = label at hshows ⊢
  cases hshows with
  | walk root paging hnumber =>
    simp only [Shelf.store, h.kept.content]
    exact ⟨rfl, ids, h.kept, h.names, h.registered, h.held.set i (.walk root _ hnumber)⟩
  | _ => exact h.unchanged _

/-- Whatever is done at a desk, the shelf says what is seen, and goes on to do so. -/
theorem act (h : Depicts ids desk shelf) (act : Act) : Agree (desk.act act) (shelf.act act) := by
  cases act with
  | create id content file => exact h.create id content file
  | register name i => exact h.register name i
  | unregister name => exact h.unregister name
  | lookup name => exact h.lookup name
  | registered => exact h.handOut
  | copy i => exact h.copy i
  | ownManager i => exact h.ownManager i
  | newManager i => exact h.newManager i
  | managerFor i j => exact h.managerFor i j
  | root i => exact h.root i
  | call i call => exact h.call i call
  | walk i => exact h.walk i
  | poll i => exact h.poll i

theorem run (h : Depicts ids desk shelf) (acts : List Act) :
    (desk.run acts).1 = (shelf.run acts).1 ∧
      ∃ ids', Depicts ids' (desk.run acts).2 (shelf.run acts).2 := by
  induction acts generalizing ids desk shelf with
  | nil => exact ⟨rfl, ids, h⟩
  | cons act rest ih =>
    obtain ⟨hseen, ids', hafter⟩ := h.act act
    obtain ⟨hothers, hlast⟩ := ih hafter
    refine ⟨?_, hlast⟩
    simp only [Desk.run, Shelf.run, hseen, hothers]

theorem manager (h : Depicts ids desk shelf) (i : Nat) :
    (desk.managerId? i = none ∧ shelf.tag? i = none) ∨ ∃ id tag,
      desk.managerId? i = some id ∧ shelf.tag? i = some tag ∧ ids tag = some id := by
  have hshows := h.held.getElem? i
  simp only [Desk.managerId?, Shelf.tag?]
  generalize desk.held[i]? = handle, shelf.labels[i]? = label at hshows ⊢
  cases hshows with
  | manager _ _ hid => exact .inr ⟨_, _, rfl, rfl, hid⟩
  | _ => exact .inl ⟨rfl, rfl⟩

/-- Managers are told apart by their identifiers. -/
theorem managerId?_eq_iff (h : Depicts ids desk shelf) (i j : Nat) :
    desk.managerId? i = desk.managerId? j ↔ shelf.tag? i = shelf.tag? j := by
  rcases h.manager i with ⟨hi, hi'⟩ | ⟨id, tag, hi, hi', hid⟩ <;>
    rcases h.manager j with ⟨hj, hj'⟩ | ⟨id', tag', hj, hj', hid'⟩ <;>
    rw [hi, hi', hj, hj']
  · exact iff_of_true rfl rfl
  · exact iff_of_false nofun nofun
  · exact iff_of_false nofun nofun
  · rw [Option.some_inj, Option.some_inj]
    constructor
    · rintro rfl
      exact h.kept.issued.injective tag tag' id hid hid'
    · rintro rfl
      exact Option.some_inj.1 (hid.symm.trans hid')

end Depicts

/-- An act changes no store but its target. -/
theorem Shelf.store_act {shelf : Shelf} {act : Act} {number : Nat}
    (h : shelf.target? act ≠ some number) :
    (shelf.act act).2.store number = shelf.store number := by
  cases act with
  | create id content file =>
    have hne : number ≠ shelf.stores.length := fun heq => h (by rw [heq]; rfl)
    show ((shelf.stores ++ [content])[number]?).getD ∅ = _
    rw [Vault.getElem?_concat, if_neg hne]
    rfl
  | call i call =>
    have hcall (target : Nat) (hne : some target ≠ some number) :
        (shelf.call target call).2.store number = shelf.store number := by
      simp only [Shelf.call, Shelf.store, List.getElem?_set_ne (mt (congrArg some) hne)]
    simp only [Shelf.act]
    simp only [Shelf.target?] at h
    split
    next target hlabel =>
      rw [hlabel] at h
      exact hcall target h
    next target hlabel =>
      rw [hlabel] at h
      exact hcall target h
    next => rfl
  | _ =>
    simp only [Shelf.act]
    first
    | rfl
    | split <;> rfl

/-- Whatever handles are used, what is seen and what the databases hold in the end is what comes of
calls on the stores themselves, and an act leaves all databases but its target as they are. The
manager that belongs to a database is the same each time, and no other one has its identifier. -/
theorem Desk.run_as_shelf (configFile : Option String) (acts : List Act) :
    let desk := ((Desk.fresh configFile).run acts).2
    let shelf := (Shelf.empty.run acts).2
    ((Desk.fresh configFile).run acts).1 = (Shelf.empty.run acts).1 ∧
      (∀ number, desk.app.vault.content number = shelf.store number) ∧
      (∀ act number, shelf.target? act ≠ some number →
        (desk.act act).2.app.vault.content number = desk.app.vault.content number) ∧
      ∀ i j, desk.managerId? i = desk.managerId? j ↔ shelf.tag? i = shelf.tag? j := by
  intro desk shelf
  obtain ⟨hseen, ids, hdepicts⟩ := (Depicts.fresh configFile).run acts
  refine ⟨hseen, hdepicts.kept.content, fun act number htarget => ?_, hdepicts.managerId?_eq_iff⟩
  obtain ⟨-, ids', hafter⟩ := hdepicts.act act
  calc
    (desk.act act).2.app.vault.content number = (shelf.act act).2.store number :=
      hafter.kept.content number
    _ = shelf.store number := Shelf.store_act htarget
    _ = desk.app.vault.content number := (hdepicts.kept.content number).symm

/-- Two databases. The first one is reached through a manager that the second one was asked for, and
through a handle that its name left behind. -/
theorem Desk.run_as_shelf_past_dropped_name :
    let acts : List Act := [.create "a" ∅ none, .create "b" ∅ none, .register "x" 0, .ownManager 0,
      .newManager 0, .managerFor 1 3, .root 4, .unregister "x", .call 5 (.set "k" .null),
      .call 6 (.contains "k"), .ownManager 6]
    let desk := ((Desk.fresh none).run acts).2
    ((Desk.fresh none).run acts).1[9]? = some (.answer (.ok (.flag true))) ∧
      desk.app.vault.content 1 = ∅ ∧
      (desk.act (.call 6 (.delete "k"))).2.app.vault.content 1 = desk.app.vault.content 1 ∧
      desk.managerId? 2 = desk.managerId? 7 ∧ desk.managerId? 3 = desk.managerId? 4 ∧
      desk.managerId? 2 ≠ desk.managerId? 3 := by
  intro acts desk
  obtain ⟨hseen, hcontent, hothers, hmanagers⟩ := run_as_shelf none acts
  refine ⟨by rw [hseen]; rfl, hcontent 1, hothers _ 1 (by decide), (hmanagers 2 7).2 (by decide),
    (hmanagers 3 4).2 (by decide), mt (hmanagers 2 3).1 (by decide)⟩

end DocumentServer.Sharing
