import DocumentServer.Toml.Value

/-! Building tables out of the entries and headers of a text. A table remembers how it came to be:
tables that a path only passes through are implicit, and those on a dotted key are dotted as well.
That decides which of them a later entry or header may still extend. -/
namespace DocumentServer.Toml

inductive Node where
  | value (value : Value)
  | table (isImplicit isDotted : Bool) (entries : List (String × Node))
  /-- Tables that share a header in double brackets, in their order. -/
  | tables (items : List (List (String × Node)))

/-- A table that is being built. -/
structure Table where
  isImplicit : Bool
  isDotted : Bool
  entries : List (String × Node)

namespace Table

/-- A table without entries that has a header or a value's braces of its own. -/
def empty : Table := ⟨false, false, []⟩

def node (table : Table) : Node := .table table.isImplicit table.isDotted table.entries

def get? (table : Table) (key : String) : Option Node := table.entries.lookup key

def add (table : Table) (key : String) (node : Node) : Table :=
  { table with entries := table.entries ++ [(key, node)] }

def replace (table : Table) (key : String) (node : Node) : Table :=
  { table with
    entries := table.entries.map fun entry => if entry.1 = key then (key, node) else entry }

def erase (table : Table) (key : String) : Table :=
  { table with entries := table.entries.filter (·.1 ≠ key) }

/-- Changes the table that a path leads to, creating the tables on the way. A path through tables
that share a header goes to the last of them. A dotted path passes through implicit tables only. -/
def descend (dotted : Bool) (change : Table → Option Table) : List String → Table → Option Table
  | [], table => change table
  | key :: path, table =>
    match table.get? key with
    | none =>
      (descend dotted change path ⟨true, dotted, []⟩).map fun child => table.add key child.node
    | some (.value _) => none
    | some (.table isImplicit isDotted entries) =>
      if dotted && !isImplicit then none
      else
        (descend dotted change path ⟨isImplicit, isDotted, entries⟩).map fun child =>
          table.replace key child.node
    | some (.tables items) =>
      match items.getLast? with
      | none => none
      | some entries =>
        (descend dotted change path ⟨false, false, entries⟩).map fun child =>
          table.replace key (.tables (items.dropLast ++ [child.entries]))

/-- Adds a value under a new name. A dotted key ends in a dotted table, a plain one in any other. -/
def addValue (atRoot : Bool) (key : String) (value : Value) (table : Table) : Option Table :=
  if table.isDotted = atRoot then none
  else
    match table.get? key with
    | some _ => none
    | none => some (table.add key (.value value))

def assign (table : Table) (path : List String) (value : Value) : Option Table :=
  match path.reverse with
  | [] => none
  | key :: parents =>
    table.descend true (addValue parents.isEmpty key value) parents.reverse

/-- Makes room for the table of a header. An implicit table of that name is taken over and moves to
the end. -/
def openTable (key : String) (parent : Table) : Option Table :=
  match parent.get? key with
  | none => some (parent.add key Table.empty.node)
  | some (.table true false entries) =>
    some ((parent.erase key).add key (Table.mk false false entries).node)
  | some _ => none

def openItem (key : String) (parent : Table) : Option Table :=
  match parent.get? key with
  | none => some (parent.add key (.tables [[]]))
  | some (.tables items) => some (parent.replace key (.tables (items ++ [[]])))
  | some _ => none

/-- Runs a change of the last name of a path in the table before it. -/
def atParent (change : String → Table → Option Table) (path : List String) (root : Table) :
    Option Table :=
  match path.reverse with
  | [] => none
  | key :: parents => root.descend false (change key) parents.reverse

def ofPairs (pairs : List (List String × Value)) : Option Table :=
  pairs.foldlM (fun table pair => table.assign pair.1 pair.2) empty

end Table

mutual

def Node.toValue : Node → Value
  | .value value => value
  | .table _ _ entries => .table (entryValues entries)
  | .tables items => .array (tableValues items)

def entryValues : List (String × Node) → List (String × Value)
  | [] => []
  | (key, node) :: rest => (key, node.toValue) :: entryValues rest

def tableValues : List (List (String × Node)) → List Value
  | [] => []
  | entries :: rest => .table (entryValues entries) :: tableValues rest

end

inductive Statement where
  | assign (path : List String) (value : Value)
  | header (path : List String)
  /-- A header in double brackets. -/
  | itemHeader (path : List String)

structure Assembly where
  root : Table
  /-- The path of the last header. -/
  position : List String

namespace Assembly

def empty : Assembly := ⟨.empty, []⟩

def add (assembly : Assembly) : Statement → Option Assembly
  | .assign path value =>
    (assembly.root.descend false (·.assign path value) assembly.position).map fun root =>
      { assembly with root }
  | .header path =>
    (Table.atParent Table.openTable path assembly.root).map fun root => ⟨root, path⟩
  | .itemHeader path =>
    (Table.atParent Table.openItem path assembly.root).map fun root => ⟨root, path⟩

/-- The table that lines describe, unless one contradicts those before it. -/
def ofStatements (statements : List Statement) : Option (List (String × Value)) :=
  (statements.foldlM add empty).map fun assembly => entryValues assembly.root.entries

end Assembly

end DocumentServer.Toml
