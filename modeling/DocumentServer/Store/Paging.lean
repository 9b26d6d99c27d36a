import DocumentServer.Store.Basic

/-! Going through the entries of a store page by page while it may change. A page is read when the
one before it is used up; a page that comes back short is the last one, and one that can not be read
ends the walk with its error. -/
namespace DocumentServer

/-- The entries of a page. -/
def pageSize : Nat := 64

/-- How far a walk through a store has come. -/
structure Paging where
  /-- The last name that was read. -/
  cursor : Option String
  /-- What was read and not yet given out. -/
  buffer : List (String × Document)
  /-- Whether no page is read any more. -/
  done : Bool

/-- An entry of a store, or why the next page can not be read. -/
abbrev StoreItem := Except DbError (String × Document)

namespace Paging

def fresh : Paging := ⟨none, [], false⟩

/-- Whether the next poll has to read a page. -/
def needsPage (paging : Paging) : Bool := paging.buffer.isEmpty && !paging.done

def received (paging : Paging) (page : List (String × Document)) : Paging where
  cursor := (page.getLast?.map (·.1)).or paging.cursor
  buffer := page
  done := decide (page.length < pageSize)

def takeBuffered (paging : Paging) : Option StoreItem × Paging :=
  match paging.buffer with
  | [] => (none, paging)
  | entry :: rest => (some (.ok entry), { paging with buffer := rest })

/-- The next entry of a store as it is now, or the error of a page, or nothing at the end. -/
def poll (paging : Paging) (store : ObjectStore) : Option StoreItem × Paging :=
  if paging.needsPage then
    match store.pageAfter paging.cursor pageSize with
    | .ok page => (paging.received page).takeBuffered
    | .error error => (some (.error error), { paging with done := true })
  else paging.takeBuffered

/-- Polls at most `count` times, up to the end. -/
def takeItems (store : ObjectStore) : Nat → Paging → List StoreItem × Paging
  | 0, paging => ([], paging)
  | count + 1, paging =>
    match paging.poll store with
    | (none, paging) => ([], paging)
    | (some item, paging) =>
      let (items, paging) := takeItems store count paging
      (item :: items, paging)

/-- Every item of a store that does not change meanwhile. One more than its entries suffice. -/
def allItems (store : ObjectStore) : List StoreItem := (takeItems store (store.size + 1) fresh).1

end Paging

end DocumentServer
