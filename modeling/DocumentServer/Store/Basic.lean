import DocumentServer.Document.Reader
import DocumentServer.Document.Text
import DocumentServer.Store.Error

/-! Object stores: documents under names, kept as their texts. Every document can be stored; one
that nests too deep can not be read back, which shows when it is read and at no other time. -/
namespace DocumentServer

/-- The texts of a store's documents under their names. -/
structure ObjectStore where
  objects : KeyMap String

namespace ObjectStore

def empty : ObjectStore := ⟨∅⟩

instance : EmptyCollection ObjectStore := ⟨empty⟩

instance : Inhabited ObjectStore := ⟨empty⟩

def decode (text : String) : Except DbError Document :=
  match Document.decode (.ofString text) with
  | .ok document => .ok document
  | .error fault => .error (.decoding (fault.message (.ofString text)))

def get (store : ObjectStore) (key : String) : Except DbError (Option Document) :=
  match store.objects.get? key with
  | none => .ok none
  | some text => (decode text).map some

/-- Puts a document under a name, in place of the one there. -/
def put (store : ObjectStore) (key : String) (document : Document) : ObjectStore :=
  ⟨store.objects.insert key document.text⟩

def erase (store : ObjectStore) (key : String) : ObjectStore := ⟨store.objects.erase key⟩

def contains (store : ObjectStore) (key : String) : Bool := store.objects.contains key

def size (store : ObjectStore) : Nat := store.objects.size

def keys (store : ObjectStore) : List String := store.objects.keys

/-- Drops the document under a name, which has to be there. -/
def delete (store : ObjectStore) (key : String) : Except DbError ObjectStore :=
  if store.contains key then .ok (store.erase key) else .error (.notFound key)

/-- Reads entries until one can not be read. -/
def decodeEntries : List (String × String) → Except DbError (List (String × Document))
  | [] => .ok []
  | (key, text) :: rest =>
    match decode text with
    | .error error => .error error
    | .ok document =>
      match decodeEntries rest with
      | .error error => .error error
      | .ok entries => .ok ((key, document) :: entries)

/-- The entries strictly after a name, at most `limit` of them but always the first. -/
def pageAfter (store : ObjectStore) (cursor : Option String) (limit : Nat) :
    Except DbError (List (String × Document)) :=
  decodeEntries ((store.objects.after cursor).take (max limit 1))

end ObjectStore

end DocumentServer
