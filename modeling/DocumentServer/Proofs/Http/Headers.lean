import DocumentServer.Http.Headers

/-! Headers by name. Names that differ in letter case at most are the same name. A change to the
headers of one name leaves the values of all others alone, and what it makes of its own values
depends on these values only. A default shows on the wire behind the other headers if its name
lacks there. -/
namespace DocumentServer

namespace Ascii

theorem isUpper_iff (c : Char) : c.isUpper = true ↔ 65 ≤ c.toNat ∧ c.toNat ≤ 90 := by
  show decide (65 ≤ c.val ∧ c.val ≤ 90) = true ↔ _
  rw [decide_eq_true_iff, UInt32.le_iff_toNat_le, UInt32.le_iff_toNat_le]
  rfl

theorem toNat_toLower_eq (c : Char) :
    c.toLower.toNat = if c.isUpper then c.toNat + 32 else c.toNat := by
  unfold Char.toLower
  split
  next h =>
    have hlow : 65 ≤ c.val.toNat := h.1
    have hhigh : c.val.toNat ≤ 90 := h.2
    have hshift : (32 : UInt32).toNat = 32 := rfl
    rw [if_pos ((isUpper_iff c).2 ⟨hlow, hhigh⟩)]
    show (c.val + 32).toNat = c.val.toNat + 32
    rw [UInt32.toNat_add]
    omega
  next h => rw [if_neg fun hupper => h ((isUpper_iff c).1 hupper)]

/-- Letters are the same if they have the same small letter. -/
theorem sameLetter_iff (a b : Char) : sameLetter a b = true ↔ a.toLower = b.toLower := by
  have hinj (a b : Char) : a = b ↔ a.toNat = b.toNat := Char.toNat_inj.symm
  have hlower := toNat_toLower_eq a
  have hlower' := toNat_toLower_eq b
  have hupper := isUpper_iff a
  have hupper' := isUpper_iff b
  rw [hinj a.toLower, hlower, hlower', sameLetter]
  cases ha : a.isUpper <;> cases hb : b.isUpper <;>
    simp [ha, hb, hinj] at hupper hupper' ⊢ <;> omega

theorem sameLetters_iff (as bs : List Char) :
    sameLetters as bs = true ↔ as.map Char.toLower = bs.map Char.toLower := by
  induction as generalizing bs with
  | nil => cases bs <;> simp [sameLetters]
  | cons a as ih =>
    cases bs with
    | nil => simp [sameLetters]
    | cons b bs => simp [sameLetters, ih, sameLetter_iff]

/-- Names are the same if they are equal in small letters. -/
theorem sameName_iff (a b : String) : sameName a b = true ↔ lower a = lower b := by
  rw [sameName, sameLetters_iff, lower, lower, ← String.toList_inj, String.toList_map,
    String.toList_map]

end Ascii

namespace Headers

variable (headers : Headers) (name value other : String)

theorem getAll_append :
    (headers.append name value).getAll other =
      headers.getAll other ++ if Ascii.sameName name other then [value] else [] := by
  cases h : Ascii.sameName name other <;> simp [append, getAll, h]

theorem getAll_erase :
    (headers.erase name).getAll other =
      if Ascii.sameName name other then [] else headers.getAll other := by
  rw [getAll, erase, List.filter_filter, getAll]
  split
  next same =>
    rw [List.filter_eq_nil_iff.2, List.map_nil]
    intro header _
    simp only [Bool.and_eq_true, Bool.not_eq_true', ← Bool.not_eq_true,
      Ascii.sameName_iff] at same ⊢
    rintro ⟨hother, hname⟩
    exact hname (hother.trans same.symm)
  next differ =>
    congr 1
    refine List.filter_congr fun header _ => ?_
    rw [Bool.and_eq_left_iff_imp]
    intro hother
    simp only [Bool.not_eq_true', ← Bool.not_eq_true, Ascii.sameName_iff] at hother differ ⊢
    exact fun hname => differ (hname.symm.trans hother)

theorem getAll_insert :
    (headers.insert name value).getAll other =
      if Ascii.sameName name other then [value] else headers.getAll other := by
  rw [insert, getAll_append, getAll_erase]
  split
  · rfl
  · exact List.append_nil _

theorem contains_iff : headers.contains name = true ↔ headers.getAll name ≠ [] := by
  simp [contains, getAll]

theorem getAll_congr {other : String} (h : Ascii.sameName name other = true) :
    headers.getAll name = headers.getAll other := by
  rw [getAll, getAll]
  congr 1
  refine List.filter_congr fun header _ => ?_
  rw [Bool.eq_iff_iff, Ascii.sameName_iff, Ascii.sameName_iff, (Ascii.sameName_iff _ _).1 h]

/-- A default is added behind the values of its own name, if there are none. -/
theorem getAll_setDefault :
    (headers.setDefault name value).getAll other =
      if Ascii.sameName name other ∧ headers.getAll other = [] then [value]
      else headers.getAll other := by
  by_cases hname : Ascii.sameName name other = true
  · have hcontains := headers.contains_iff name
    rw [headers.getAll_congr name hname] at hcontains
    by_cases hnone : headers.getAll other = []
    · rw [setDefault, if_neg fun h => hcontains.1 h hnone, getAll_append, if_pos hname, hnone,
        if_pos ⟨hname, rfl⟩, List.nil_append]
    · rw [setDefault, if_pos (hcontains.2 hnone), if_neg fun h => hnone h.2]
  · rw [if_neg fun h => hname h.1, setDefault]
    split
    · rfl
    · rw [getAll_append, if_neg hname, List.append_nil]

/-- What a change makes of the values of a name depends on these values only. -/
theorem getAll_edit_congr {headers headers' : Headers} {name : String}
    (h : headers.getAll name = headers'.getAll name) (edit : Edit) :
    (headers.edit edit).getAll name = (headers'.edit edit).getAll name := by
  cases edit with
  | insert other value => simp only [Headers.edit, getAll_insert, h]
  | append other value => simp only [Headers.edit, getAll_append, h]
  | setDefault other value => simp only [Headers.edit, getAll_setDefault, h]
  | erase other => simp only [Headers.edit, getAll_erase, h]

/-- A default takes effect once. -/
theorem setDefault_of_contains (h : headers.contains name = true) :
    headers.setDefault name value = headers := if_pos h

theorem contains_setDefault (h : headers.contains other = true) :
    (headers.setDefault name value).contains other = true := by
  rw [setDefault]
  split
  · exact h
  · rw [contains_iff, getAll_append]
    exact fun hnone => (headers.contains_iff other).1 h (List.append_eq_nil_iff.1 hnone).1

theorem contains_setDefault_self : (headers.setDefault name value).contains name = true := by
  rw [setDefault]
  split
  next h => exact h
  next =>
    rw [contains_iff, getAll_append, if_pos ((Ascii.sameName_iff name name).2 rfl)]
    simp

/-! ### On the wire -/

/-- What a start frame adds for a name in small letters: nothing if one of the headers has that name
in any letters. -/
def lacking (headers : Headers) (name value : String) : List (Bytes × Bytes) :=
  if ∃ header ∈ headers.entries, Ascii.lower header.name = name then []
  else [(.ofString name, .ofString value)]

theorem contains_iff_lower :
    headers.contains name = true ↔
      ∃ header ∈ headers.entries, Ascii.lower header.name = Ascii.lower name := by
  simp only [contains, List.any_eq_true, Ascii.sameName_iff]

theorem wire_setDefault :
    (headers.setDefault name value).wire =
      headers.wire ++ headers.lacking (Ascii.lower name) value := by
  rw [setDefault, lacking]
  by_cases hname : headers.contains name = true
  · rw [if_pos hname, if_pos ((headers.contains_iff_lower name).1 hname), List.append_nil]
  · rw [if_neg hname, if_neg fun h => hname ((headers.contains_iff_lower name).2 h)]
    simp [wire, append]

/-- A default does not stand in for another name. -/
theorem lacking_setDefault (h : Ascii.lower name ≠ other) (value' : String) :
    (headers.setDefault name value).lacking other value' = headers.lacking other value' := by
  rw [setDefault]
  split
  · rfl
  · simp [lacking, append, h]

theorem wire_contentType (contentType : String) :
    (headers.setDefault "Content-Type" contentType).wire =
      headers.wire ++ headers.lacking "content-type" contentType := by
  have htype : Ascii.lower "Content-Type" = "content-type" := by decide +kernel
  rw [wire_setDefault, htype]

/-- The content length lacks whether or not the content type did. -/
theorem wire_contentLength (contentType length : String) :
    ((headers.setDefault "Content-Type" contentType).setDefault "Content-Length" length).wire =
      (headers.setDefault "Content-Type" contentType).wire ++
        headers.lacking "content-length" length := by
  have htype : Ascii.lower "Content-Type" ≠ "content-length" := by decide +kernel
  have hlength : Ascii.lower "Content-Length" = "content-length" := by decide +kernel
  rw [wire_setDefault, hlength, lacking_setDefault _ _ _ _ htype]

end Headers

end DocumentServer
