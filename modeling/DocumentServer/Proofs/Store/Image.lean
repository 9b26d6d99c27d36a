import DocumentServer.Proofs.Document.RoundTrip
import DocumentServer.Proofs.KeyMap
import DocumentServer.Store.Image

/-! The file of a store. It holds the texts of the documents and not the documents, so every store
reads back from its file, whether or not its texts can be read. -/
namespace DocumentServer.ObjectStore

variable {store : ObjectStore} {entries : List (String × String)}

/-- The document that a file holds behind its first line. -/
def imageDocument (store : ObjectStore) : Document :=
  .object (store.objects.entries.map fun entry => (entry.1, .string entry.2))

theorem canonical_imageDocument (store : ObjectStore) : store.imageDocument.Canonical := by
  refine .object (List.pairwise_map.2 store.objects.ascending) fun entry member => ?_
  obtain ⟨_, -, rfl⟩ := List.mem_map.1 member
  exact .string _

theorem integral_imageDocument (store : ObjectStore) : store.imageDocument.Integral := by
  refine .object fun entry member => ?_
  obtain ⟨_, -, rfl⟩ := List.mem_map.1 member
  exact .string _

theorem depth_imageDocument (store : ObjectStore) : store.imageDocument.depth ≤ 1 := by
  refine Nat.succ_le_succ ((Document.depthOfMembers_le_iff _ _).2 fun entry member => ?_)
  obtain ⟨_, -, rfl⟩ := List.mem_map.1 member
  exact Nat.le_refl 0

theorem decode_imageDocument (store : ObjectStore) :
    Document.decode store.imageDocument.encode = .ok store.imageDocument :=
  Document.decode_encode store.canonical_imageDocument store.integral_imageDocument
    (Nat.le_trans store.depth_imageDocument (by decide))

theorem mapM_imageEntry (entries : List (String × String)) :
    (entries.map fun entry => (entry.1, Document.string entry.2)).mapM imageEntry? =
      some entries := by
  induction entries with
  | nil => rfl
  | cons entry rest ih =>
    rw [List.map_cons, List.mapM_cons, ih]
    rfl

/-- A store reads back from its file. -/
theorem ofImage?_image (store : ObjectStore) : ofImage? store.image = some store := by
  have hnonempty : store.image.isEmpty = false := rfl
  have hsigned : signature.isPrefixOf store.image = true :=
    List.isPrefixOf_iff_prefix.2 (List.prefix_append ..)
  have hrest : store.image.drop signature.length = store.imageDocument.encode := List.drop_left
  have hobjects : KeyMap.ofList store.objects.entries = store.objects :=
    KeyMap.ext (KeyMap.entries_ofList store.objects.ascending)
  rw [ofImage?, hnonempty, if_neg Bool.false_ne_true, if_pos hsigned, hrest, decode_imageDocument,
    imageDocument]
  simp only [mapM_imageEntry, Option.map_some, hobjects]

/-- A file without any bytes is a store without documents. -/
theorem ofImage?_nil : ofImage? [] = some ∅ := rfl

end DocumentServer.ObjectStore
