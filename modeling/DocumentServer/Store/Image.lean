import DocumentServer.Store.Basic

/-! Stores as files. A file begins with a line that tells it from other files; behind it stands one
object whose members are the texts of the documents. A file without any bytes is a store without
documents. -/
namespace DocumentServer.ObjectStore

/-- The line that the file of a store begins with. -/
def signature : Bytes := .ofString "object store, format 1\n"

def image (store : ObjectStore) : Bytes :=
  signature ++
    (Document.object (store.objects.entries.map fun entry => (entry.1, .string entry.2))).encode

def imageEntry? : String × Document → Option (String × String)
  | (key, .string text) => some (key, text)
  | _ => none

/-- The store whose file consists of these bytes. -/
def ofImage? (bytes : Bytes) : Option ObjectStore :=
  if bytes.isEmpty then some ∅
  else if signature.isPrefixOf bytes then
    match Document.decode (bytes.drop signature.length) with
    | .ok (.object members) =>
      (members.mapM imageEntry?).map fun entries => ⟨.ofList entries⟩
    | _ => none
  else none

end DocumentServer.ObjectStore
