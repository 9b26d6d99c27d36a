/-! Maps from names to values, kept as a list in strictly ascending order of the names. Names
compare by code points, which is the order of their UTF-8 bytes. The order is part of the type, so
two maps with the same entries are equal. -/
namespace DocumentServer

/-- Entries whose names strictly ascend. -/
def Ascending {α : Type} (entries : List (String × α)) : Prop :=
  entries.Pairwise fun a b => a.1 < b.1

/-- A finite map from names to values. -/
@[ext] structure KeyMap (α : Type) where
  /-- The entries in ascending order of their names. -/
  entries : List (String × α)
  /-- No name occurs twice, and smaller names come first. -/
  ascending : Ascending entries

namespace KeyMap

variable {α : Type}

/-! ### Entry lists -/

/-- Puts an entry at its place in an ascending list, in place of one with the same name. -/
def insertEntry (key : String) (value : α) : List (String × α) → List (String × α)
  | [] => [(key, value)]
  | entry :: rest =>
    if key < entry.1 then (key, value) :: entry :: rest
    else if entry.1 < key then entry :: insertEntry key value rest
    else (key, value) :: rest

theorem mem_insertEntry {key : String} {value : α} {entries : List (String × α)}
    {entry : String × α} (h : entry ∈ insertEntry key value entries) :
    entry = (key, value) ∨ entry ∈ entries := by
  induction entries with
  | nil => exact .inl (List.mem_singleton.1 h)
  | cons head rest ih =>
    unfold insertEntry at h
    split at h
    · simpa using h
    · split at h <;> rcases List.mem_cons.1 h with h | h
      · exact .inr (h ▸ List.mem_cons_self)
      · exact (ih h).imp id (List.mem_cons_of_mem _)
      · exact .inl h
      · exact .inr (List.mem_cons_of_mem _ h)

theorem ascending_insertEntry (key : String) (value : α) {entries : List (String × α)}
    (h : Ascending entries) : Ascending (insertEntry key value entries) := by
  induction entries with
  | nil => exact List.pairwise_singleton ..
  | cons head rest ih =>
    obtain ⟨before, tail⟩ := List.pairwise_cons.1 h
    unfold insertEntry
    split
    next less =>
      refine List.pairwise_cons.2 ⟨fun entry member => ?_, h⟩
      rcases List.mem_cons.1 member with rfl | member
      · exact less
      · exact String.lt_trans less (before entry member)
    next notLess =>
      split
      next greater =>
        refine List.pairwise_cons.2 ⟨fun entry member => ?_, ih tail⟩
        rcases mem_insertEntry member with rfl | member
        · exact greater
        · exact before entry member
      next notGreater =>
        have same : key = head.1 :=
          String.le_antisymm (String.not_lt.1 notGreater) (String.not_lt.1 notLess)
        exact List.pairwise_cons.2 ⟨fun entry member => same ▸ before entry member, tail⟩

/-! ### Maps -/

def empty : KeyMap α := ⟨[], .nil⟩

instance : EmptyCollection (KeyMap α) := ⟨empty⟩

instance : Inhabited (KeyMap α) := ⟨empty⟩

def get? (map : KeyMap α) (key : String) : Option α := map.entries.lookup key

def contains (map : KeyMap α) (key : String) : Bool := (map.get? key).isSome

/-- Puts a value under a name, in place of the one there. -/
def insert (map : KeyMap α) (key : String) (value : α) : KeyMap α :=
  ⟨insertEntry key value map.entries, ascending_insertEntry key value map.ascending⟩

def erase (map : KeyMap α) (key : String) : KeyMap α :=
  ⟨map.entries.filter (·.1 ≠ key), map.ascending.filter _⟩

/-- The map that a list of entries describes, later ones in place of earlier ones. -/
def ofList (entries : List (String × α)) : KeyMap α :=
  entries.foldl (fun map entry => map.insert entry.1 entry.2) empty

/-- The names in ascending order. -/
def keys (map : KeyMap α) : List String := map.entries.map (·.1)

def size (map : KeyMap α) : Nat := map.entries.length

/-- The entries whose names lie strictly after `cursor`, or all of them. -/
def after (map : KeyMap α) : Option String → List (String × α)
  | none => map.entries
  | some cursor => map.entries.filter (cursor < ·.1)

def mapValues {β : Type} (f : α → β) (map : KeyMap α) : KeyMap β :=
  ⟨map.entries.map fun entry => (entry.1, f entry.2),
    List.pairwise_map.2 (map.ascending.imp id)⟩

end KeyMap

end DocumentServer
