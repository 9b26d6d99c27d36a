import DocumentServer.Proofs.Bytes
import DocumentServer.Proofs.Http.Headers
import Mathlib.Data.List.Forall2

/-! Headers as an ordered multimap. Lookups and changes compare names without regard to letter case,
and on the wire names are in small letters: these are the same notion of a name. The pairs on the
wire are all that lookups can tell, and changes act on these pairs by names that are equal or not.
So every history of changes shows as a history of a multimap whose names have no letter case. -/
namespace DocumentServer

namespace Headers

/-- What a name is on the wire. -/
def wireName (name : String) : Bytes := .ofString (Ascii.lower name)

theorem wireName_eq_iff (name other : String) :
    wireName name = wireName other ↔ Ascii.sameName name other = true := by
  rw [Ascii.sameName_iff]
  exact ⟨fun h => Bytes.ofString_inj h, congrArg Bytes.ofString⟩

theorem decide_wireName_eq (name other : String) :
    decide (wireName name = wireName other) = Ascii.sameName name other := by
  rw [Bool.eq_iff_iff, decide_eq_true_iff, wireName_eq_iff]

def others (headers : Headers) (name : String) : List Header :=
  headers.entries.filter (!Ascii.sameName ·.name name)

def editEach (headers : Headers) (edits : List Edit) : Headers := edits.foldl edit headers

namespace Edit

def name : Edit → String
  | insert name _ => name
  | append name _ => name
  | setDefault name _ => name
  | erase name => name

/-- What a change makes of the pairs on the wire. -/
def onWire (pairs : List (Bytes × Bytes)) : Edit → List (Bytes × Bytes)
  | insert name value =>
    pairs.filter (·.1 ≠ wireName name) ++ [(wireName name, .ofString value)]
  | append name value => pairs ++ [(wireName name, .ofString value)]
  | setDefault name value =>
    if pairs.any (·.1 = wireName name) then pairs
    else pairs ++ [(wireName name, .ofString value)]
  | erase name => pairs.filter (·.1 ≠ wireName name)

/-- Changes that differ in the letter case of their names at most. -/
inductive Alike : Edit → Edit → Prop
  | insert {name name' : String} (value : String) :
    Ascii.sameName name name' = true → Alike (insert name value) (insert name' value)
  | append {name name' : String} (value : String) :
    Ascii.sameName name name' = true → Alike (append name value) (append name' value)
  | setDefault {name name' : String} (value : String) :
    Ascii.sameName name name' = true → Alike (setDefault name value) (setDefault name' value)
  | erase {name name' : String} :
    Ascii.sameName name name' = true → Alike (erase name) (erase name')

theorem Alike.onWire_eq {edit edit' : Edit} (h : edit.Alike edit') (pairs : List (Bytes × Bytes)) :
    edit.onWire pairs = edit'.onWire pairs := by
  cases h with
  | insert value hname => simp only [onWire, (wireName_eq_iff _ _).2 hname]
  | append value hname => simp only [onWire, (wireName_eq_iff _ _).2 hname]
  | setDefault value hname => simp only [onWire, (wireName_eq_iff _ _).2 hname]
  | erase hname => simp only [onWire, (wireName_eq_iff _ _).2 hname]

end Edit

/-! ### The wire -/

variable (headers : Headers) (name value : String)

theorem wire_append :
    (headers.append name value).wire = headers.wire ++ [(wireName name, .ofString value)] := by
  simp [wire, append, wireName]

theorem wire_erase : (headers.erase name).wire = headers.wire.filter (·.1 ≠ wireName name) := by
  rw [wire, erase, wire, List.filter_map]
  congr 1
  refine List.filter_congr fun header _ => ?_
  show (!Ascii.sameName header.name name) = decide (wireName header.name ≠ wireName name)
  rw [← decide_wireName_eq, decide_not]

theorem any_wire : headers.wire.any (·.1 = wireName name) = headers.contains name := by
  rw [wire, contains, List.any_map]
  congr 1
  funext header
  exact decide_wireName_eq header.name name

/-- A change of headers is a change of the pairs on the wire. -/
theorem wire_edit (edit : Edit) : (headers.edit edit).wire = edit.onWire headers.wire := by
  cases edit with
  | insert name value => rw [Headers.edit, insert, wire_append, wire_erase]; rfl
  | append name value => exact headers.wire_append name value
  | setDefault name value =>
    simp only [Headers.edit, setDefault, Edit.onWire, any_wire]
    split
    · rfl
    · exact headers.wire_append name value
  | erase name => exact headers.wire_erase name

/-- A history of changes is one of the pairs on the wire. -/
theorem wire_editEach (edits : List Edit) :
    (headers.editEach edits).wire = edits.foldl Edit.onWire headers.wire := by
  induction edits generalizing headers with
  | nil => rfl
  | cons edit rest ih => rw [List.foldl_cons, ← wire_edit]; exact ih _

/-- Letter case leaves no trace on the wire. -/
theorem foldl_onWire_alike {edits edits' : List Edit} (h : List.Forall₂ Edit.Alike edits edits')
    (pairs : List (Bytes × Bytes)) :
    edits.foldl Edit.onWire pairs = edits'.foldl Edit.onWire pairs := by
  induction h generalizing pairs with
  | nil => rfl
  | cons halike _ ih => rw [List.foldl_cons, List.foldl_cons, halike.onWire_eq]; exact ih _

/-! ### Lookups -/

/-- The values of a name are those of its pairs on the wire. -/
theorem map_getAll :
    (headers.getAll name).map Bytes.ofString =
      (headers.wire.filter (·.1 = wireName name)).map (·.2) := by
  rw [getAll, wire, List.filter_map, List.map_map, List.map_map]
  congr 1
  refine List.filter_congr fun header _ => ?_
  exact (decide_wireName_eq header.name name).symm

theorem get?_eq_head? : headers.get? name = (headers.getAll name).head? := by
  rw [get?, getAll, List.head?_map, List.head?_filter]

/-- What is the same on the wire is the same to every lookup. -/
theorem getAll_eq_of_wire {headers headers' : Headers} (h : headers.wire = headers'.wire)
    {name name' : String} (hname : Ascii.sameName name name' = true) :
    headers.getAll name = headers'.getAll name' := by
  -- Different texts are different bytes: the wire loses nothing but the letter case of names.
  refine (List.map_inj_right fun _ _ => Bytes.ofString_inj).1 ?_
  rw [map_getAll, map_getAll, h, (wireName_eq_iff name name').2 hname]

/-! ### Changes -/

theorem others_edit (edit : Edit) :
    (headers.edit edit).others edit.name = headers.others edit.name := by
  have hself : Ascii.sameName edit.name edit.name = true := (Ascii.sameName_iff _ _).2 rfl
  have happend (headers : Headers) (value : String) :
      (headers.append edit.name value).others edit.name = headers.others edit.name := by
    simp [others, append, hself]
  have herase : (headers.erase edit.name).others edit.name = headers.others edit.name := by
    simp [others, erase]
  cases edit with
  | insert name value => exact (happend _ value).trans herase
  | append name value => exact happend _ value
  | setDefault name value =>
    simp only [Headers.edit, setDefault]
    split
    · rfl
    · exact happend _ value
  | erase name => exact herase

theorem getAll_setDefault_self :
    (headers.setDefault name value).getAll name =
      if headers.getAll name = [] then [value] else headers.getAll name := by
  simp [getAll_setDefault, (Ascii.sameName_iff name name).2 rfl]

/-- The value in effect is the first one once the default is added. -/
theorem head?_getAll_setDefault :
    ((headers.setDefault name value).getAll name).head? =
      some (headers.valueOrDefault name value) := by
  rw [getAll_setDefault_self, valueOrDefault, get?_eq_head?]
  cases headers.getAll name <;> rfl

/-- Dropping a name drops something if it has values. -/
theorem size_erase_ne_iff :
    (headers.erase name).size ≠ headers.size ↔ headers.getAll name ≠ [] := by
  rw [size, size, erase, Ne, List.length_filter_eq_length_iff, ← contains_iff, contains,
    List.any_eq_true]
  simp

/-- After any history, headers are a multimap from names without letter case to lists of values.
The values of a name are those of its pairs on the wire, and the other lookups follow from them;
each change does to the values of its name what it says and leaves the headers of other names as
they are, in their order; and nothing on the wire or in a lookup depends on the letter case of the
names that the changes or the lookup were given. -/
theorem ordered_multimap (start : Headers) (edits : List Edit) (name value : String) :
    let headers := start.editEach edits
    let values := headers.getAll name
    (values.map Bytes.ofString =
        (headers.wire.filter (·.1 = .ofString (Ascii.lower name))).map (·.2) ∧
      headers.get? name = values.head? ∧
      (headers.contains name = true ↔ values ≠ [])) ∧
    ((headers.insert name value).getAll name = [value] ∧
      (headers.append name value).getAll name = values ++ [value] ∧
      (headers.erase name).getAll name = [] ∧
      ((headers.erase name).size ≠ headers.size ↔ values ≠ []) ∧
      (headers.setDefault name value).getAll name = (if values = [] then [value] else values) ∧
      ((headers.setDefault name value).getAll name).head? =
        some (headers.valueOrDefault name value)) ∧
    (∀ edit : Edit, (headers.edit edit).others edit.name = headers.others edit.name) ∧
    ∀ edits' name', List.Forall₂ Edit.Alike edits edits' → Ascii.sameName name name' = true →
      let headers' := start.editEach edits'
      headers'.wire = headers.wire ∧ headers'.getAll name' = values ∧
        headers'.get? name' = headers.get? name ∧
        headers'.contains name' = headers.contains name := by
  intro headers values
  have hself : Ascii.sameName name name = true := (Ascii.sameName_iff _ _).2 rfl
  refine ⟨⟨headers.map_getAll name, headers.get?_eq_head? name, headers.contains_iff name⟩,
    ⟨?_, ?_, ?_, headers.size_erase_ne_iff name, headers.getAll_setDefault_self name value,
      headers.head?_getAll_setDefault name value⟩, headers.others_edit, ?_⟩
  · rw [getAll_insert, if_pos hself]
  · rw [getAll_append, if_pos hself]
  · rw [getAll_erase, if_pos hself]
  · intro edits' name' hedits hname headers'
    have hwire : headers.wire = headers'.wire := by
      rw [wire_editEach, wire_editEach, foldl_onWire_alike hedits]
    have hvalues : values = headers'.getAll name' := getAll_eq_of_wire hwire hname
    refine ⟨hwire.symm, hvalues.symm, ?_, ?_⟩
    · rw [get?_eq_head?, get?_eq_head?, ← hvalues]
    · rw [Bool.eq_iff_iff, contains_iff, contains_iff, ← hvalues]

end Headers

end DocumentServer
