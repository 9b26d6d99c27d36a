import DocumentServer.Config.Toml
import DocumentServer.Proofs.KeyMap
import DocumentServer.Proofs.Toml.RoundTrip

/-! Settings as values of a configuration text. A value stands for a document, and settings without
null become a value that stands for them. So does what is read back of the value: the order of its
entries may be another, and a document has its members in an order of its own. -/
namespace DocumentServer

namespace Document

/-- Documents that a configuration text can hold: without null, and all their numbers are integers
of 64 bits with a sign. -/
inductive Writable : Document → Prop
  | bool (value : Bool) : Writable (.bool value)
  | integer {value : Int} : minInteger ≤ value → value ≤ maxSigned → Writable (.integer value)
  | string (text : String) : Writable (.string text)
  | array {items : List Document} : (∀ item ∈ items, Writable item) → Writable (.array items)
  | object {members : List (String × Document)} :
      (∀ entry ∈ members, Writable entry.2) → Writable (.object members)

theorem canonical_ofMembers {members : List (String × Document)}
    (h : ∀ entry ∈ members, entry.2.Canonical) : (ofMembers members).Canonical :=
  .object (KeyMap.ofList members).ascending fun entry hentry =>
    h entry (KeyMap.mem_of_mem_ofList hentry)

theorem writable_ofMembers {members : List (String × Document)}
    (h : ∀ entry ∈ members, entry.2.Writable) : (ofMembers members).Writable :=
  .object fun entry hentry => h entry (KeyMap.mem_of_mem_ofList hentry)

end Document

namespace Toml

/-! ### What a value stands for -/

/-- The document that a value stands for. -/
def Value.document (value : Value) : Document := (Tree.ofValue value).toDocument

def member (entry : String × Value) : String × Document := (entry.1, entry.2.document)

theorem document_array (items : List Value) :
    (Value.array items).document = .array (items.map Value.document) := by
  have hitems : Tree.toItems (Tree.ofValues items) = items.map Value.document := by
    induction items with
    | nil => rfl
    | cons item items ih =>
      simp only [Tree.ofValues, Tree.toItems, ih, List.map_cons, Value.document]
  rw [Value.document, Tree.ofValue, Tree.toDocument, hitems]

theorem document_table (entries : List (String × Value)) :
    (Value.table entries).document = .ofMembers (entries.map member) := by
  have hmembers : Tree.toMembers (Tree.ofEntries entries) = entries.map member := by
    induction entries with
    | nil => rfl
    | cons entry entries ih =>
      simp only [Tree.ofEntries, Tree.toMembers, ih, List.map_cons, member, Value.document]
  rw [Value.document, Tree.ofValue, Tree.toDocument, hmembers]

theorem map_fst_member (entries : List (String × Value)) :
    (entries.map member).map (·.1) = entries.map (·.1) := by
  simp [member]

/-- Tables with the same entries stand for the same document, whatever their order. -/
theorem document_table_perm {entries entries' : List (String × Value)}
    (h : (entries.map member).Perm (entries'.map member)) (hnames : (entries.map (·.1)).Nodup) :
    (Value.table entries).document = (Value.table entries').document := by
  rw [document_table, document_table, Document.ofMembers, Document.ofMembers,
    KeyMap.ofList_perm h (by rwa [map_fst_member])]

/-! ### What is read back -/

theorem entryValues_eq (entries : List (String × Node)) :
    entryValues entries = entries.map fun entry => (entry.1, entry.2.toValue) := by
  induction entries with
  | nil => rfl
  | cons entry entries ih => rw [entryValues, ih, List.map_cons]

/-- What is read back of a table is its plain entries and what is read back of the others. -/
theorem entryValues_tableNodes (entries : List (String × Value)) :
    entryValues (tableNodes entries) =
      plainEntries entries ++ entryValues (headedNodes entries) := by
  have hplain := entryValues_value (plainEntries entries)
  rw [entryValues_eq] at hplain
  rw [entryValues_eq, entryValues_eq, tableNodes, List.map_append, plainNodes, hplain]

theorem map_fst_entryValues (entries : List (String × Node)) :
    (entryValues entries).map (·.1) = entries.map (·.1) := by
  rw [entryValues_eq, List.map_map]
  rfl

theorem document_tableNodes {entries : List (String × Value)}
    (hnames : (entries.map (·.1)).Nodup)
    (hheaded : (entryValues (headedNodes entries)).map member =
      (entries.filter (·.2.hasHeader)).map member) :
    (Value.table (entryValues (tableNodes entries))).document = (Value.table entries).document := by
  refine document_table_perm ?_ ?_
  · rw [entryValues_tableNodes, List.map_append, hheaded, ← List.map_append]
    have hsplit := List.filter_append_perm (·.2.hasHeader) entries
    exact (List.perm_append_comm.trans hsplit).map member
  · rw [map_fst_entryValues]
    exact (keys_tableNodes entries).nodup_iff.2 hnames

mutual

/-- What is read back of a value with headers stands for the same document. -/
theorem document_headedNode {room : Nat} (value : Value) (h : value.Fits room)
    (hheader : value.hasHeader = true) :
    (headedNode value).toValue.document = value.document := by
  match value with
  | .table entries =>
    cases h with
    | table hnames hentries =>
      have hheaded := members_headedNodes entries hentries
      exact document_tableNodes hnames hheaded
  | .array items =>
    cases h with
    | array hitems =>
      rw [Value.hasHeader, Bool.and_eq_true] at hheader
      rw [headedNode, Node.toValue, document_array, document_array,
        documents_itemNodes items hitems hheader.2]
  | .string _ => rfl
  | .integer _ => rfl
  | .real _ => rfl
  | .boolean _ => rfl
  | .moment _ => rfl

theorem members_headedNodes {room : Nat} (entries : List (String × Value))
    (h : ∀ entry ∈ entries, entry.2.Fits room) :
    (entryValues (headedNodes entries)).map member =
      (entries.filter (·.2.hasHeader)).map member := by
  match entries with
  | [] => rfl
  | (key, value) :: rest =>
    obtain ⟨hvalue, hothers⟩ := List.forall_mem_cons.1 h
    have hrest := members_headedNodes rest hothers
    rw [headedNodes]
    cases hheader : value.hasHeader with
    | false => simpa [hheader] using hrest
    | true =>
      have hfirst := document_headedNode value hvalue hheader
      simpa [hheader, entryValues, member, hfirst] using hrest

theorem documents_itemNodes {room : Nat} (items : List Value)
    (h : ∀ item ∈ items, item.Fits room) (htables : items.all Value.isTable = true) :
    (tableValues (itemNodes items)).map Value.document = items.map Value.document := by
  match items with
  | [] => rfl
  | .table entries :: rest =>
    obtain ⟨hitem, hothers⟩ := List.forall_mem_cons.1 h
    rw [List.all_cons, Bool.and_eq_true] at htables
    cases hitem with
    | table hnames hentries =>
      have hfirst := document_tableNodes hnames (members_headedNodes entries hentries)
      have hrest := documents_itemNodes rest hothers htables.2
      rw [itemNodes, itemNode, tableValues, List.map_cons, List.map_cons, hrest]
      exact congrArg (· :: _) hfirst
  | .array _ :: _ => cases htables
  | .string _ :: _ => cases htables
  | .integer _ :: _ => cases htables
  | .real _ :: _ => cases htables
  | .boolean _ :: _ => cases htables
  | .moment _ :: _ => cases htables

end

end Toml

namespace Config

open Toml

/-! ### Settings as values -/

/-- The value can stand for a document in a configuration text. -/
structure Stands (document : Document) (value : Value) : Prop where
  valueOf : valueOf document = .ok value
  fits : value.Fits document.depth
  document : value.document = document

theorem exists_valuesOf {items : List Document} (h : ∀ item ∈ items, ∃ value, Stands item value) :
    ∃ values, valuesOf items = .ok values ∧
      (∀ value ∈ values, value.Fits (Document.depthOfItems items)) ∧
      values.map Value.document = items := by
  induction items with
  | nil => exact ⟨[], rfl, nofun, rfl⟩
  | cons item items ih =>
    obtain ⟨⟨value, hvalue⟩, hothers⟩ := List.forall_mem_cons.1 h
    obtain ⟨values, hvalues, hfits, hdocuments⟩ := ih hothers
    refine ⟨value :: values, ?_, ?_, ?_⟩
    · rw [valuesOf, hvalue.valueOf, hvalues]
      rfl
    · rw [Document.depthOfItems, List.forall_mem_cons]
      exact ⟨hvalue.fits.mono (Nat.le_max_left ..),
        fun value hvalue => (hfits value hvalue).mono (Nat.le_max_right ..)⟩
    · rw [List.map_cons, hvalue.document, hdocuments]

theorem exists_entriesOf {members : List (String × Document)}
    (h : ∀ entry ∈ members, ∃ value, Stands entry.2 value) :
    ∃ entries, entriesOf members = .ok entries ∧
      (∀ entry ∈ entries, entry.2.Fits (Document.depthOfMembers members)) ∧
      entries.map member = members := by
  induction members with
  | nil => exact ⟨[], rfl, nofun, rfl⟩
  | cons entry members ih =>
    obtain ⟨name, document⟩ := entry
    obtain ⟨⟨value, hvalue⟩, hothers⟩ := List.forall_mem_cons.1 h
    obtain ⟨entries, hentries, hfits, hmembers⟩ := ih hothers
    refine ⟨(name, value) :: entries, ?_, ?_, ?_⟩
    · rw [entriesOf, hvalue.valueOf, hentries]
      rfl
    · rw [Document.depthOfMembers, List.forall_mem_cons]
      exact ⟨hvalue.fits.mono (Nat.le_max_left ..),
        fun entry hentry => (hfits entry hentry).mono (Nat.le_max_right ..)⟩
    · rw [List.map_cons, member, hvalue.document, hmembers]

/-- Settings without null and with integers only become a value that stands for them. -/
theorem exists_stands {document : Document} (h : document.Canonical)
    (hwritable : document.Writable) : ∃ value, Stands document value := by
  induction h with
  | null => cases hwritable
  | real => cases hwritable
  | bool value => exact ⟨.boolean value, rfl, .boolean value, rfl⟩
  | string text => exact ⟨.string text, rfl, .string text, rfl⟩
  | integer value =>
    cases hwritable with
    | integer hmin hmax =>
      refine ⟨.integer value, ?_, .integer hmin hmax, rfl⟩
      rw [Config.valueOf, integerValue, if_pos hmax]
  | array _ ih =>
    cases hwritable with
    | array hitems =>
      obtain ⟨values, hvalues, hfits, hdocuments⟩ :=
        exists_valuesOf fun item hitem => ih item hitem (hitems item hitem)
      refine ⟨.array values, ?_, .array hfits, ?_⟩
      · rw [Config.valueOf, hvalues]
        rfl
      · rw [document_array, hdocuments]
  | object hascending _ ih =>
    cases hwritable with
    | object hmembers =>
      obtain ⟨entries, hentries, hfits, hdocuments⟩ :=
        exists_entriesOf fun entry hentry => ih entry hentry (hmembers entry hentry)
      have hnames : (entries.map (·.1)).Nodup := by
        rw [← map_fst_member, hdocuments]
        exact KeyMap.nodup_of_ascending hascending
      refine ⟨.table entries, ?_, .table hnames hfits, ?_⟩
      · rw [Config.valueOf, hentries]
        rfl
      · rw [document_table, hdocuments, Document.ofMembers, KeyMap.entries_ofList hascending]

end Config

end DocumentServer
