import DocumentServer.Proofs.Http.Multimap

/-! Headers collected from a list. Each one takes the place of those of its name before it, so the
last header of each name stays, where it stood among the others and in the letters it was given. A
collection therefore has every name once, under the last value that was supplied for it, and to
collect it again changes nothing. -/
namespace DocumentServer.Headers

open Ascii (sameName sameName_iff)

/-- The headers that no later one of the same name follows. -/
def lasting : List Header → List Header
  | [] => []
  | header :: rest =>
    if rest.any (sameName header.name ·.name) then lasting rest else header :: lasting rest

/-- The values that are supplied for a name. -/
def supplied (given : List Header) (name : String) : List String :=
  (given.filter (sameName ·.name name)).map (·.value)

def collect (headers : Headers) (given : List Header) : Headers :=
  given.foldl (fun headers header => headers.insert header.name header.value) headers

/-! ### What stays -/

/-- A collection keeps what it has of other names, and of what is given the last of each name. -/
theorem entries_collect (headers : Headers) (given : List Header) :
    (headers.collect given).entries =
      headers.entries.filter (fun header => !given.any (sameName header.name ·.name)) ++
        lasting given := by
  induction given generalizing headers with
  | nil => simp [collect, lasting]
  | cons header rest ih =>
    have hentries : (headers.insert header.name header.value).entries =
        headers.entries.filter (!sameName ·.name header.name) ++ [header] := rfl
    rw [collect, List.foldl_cons, ← collect, ih, hentries, List.filter_append, List.filter_filter,
      List.append_assoc]
    congr 1
    · refine List.filter_congr fun other _ => ?_
      rw [List.any_cons, Bool.not_or, Bool.and_comm]
    · rw [lasting]
      -- What was just put at the end is dropped again if a later header has its name.
      cases hlater : rest.any (sameName header.name ·.name) <;> simp [hlater]

theorem mem_of_mem_lasting {header : Header} {given : List Header} (h : header ∈ lasting given) :
    header ∈ given := by
  induction given with
  | nil => exact h
  | cons first rest ih =>
    rw [lasting] at h
    split at h
    · exact List.mem_cons_of_mem _ (ih h)
    · exact (List.mem_cons.1 h).elim (fun h => h ▸ List.mem_cons_self)
        fun h => List.mem_cons_of_mem _ (ih h)

/-- Of each name one header stays. -/
theorem pairwise_lasting (given : List Header) :
    (lasting given).Pairwise fun a b => sameName a.name b.name = false := by
  induction given with
  | nil => exact .nil
  | cons header rest ih =>
    rw [lasting]
    split
    · exact ih
    next hlater =>
      refine List.pairwise_cons.2 ⟨fun other hother => ?_, ih⟩
      have hnone := List.any_eq_false.1 (Bool.not_eq_true _ ▸ hlater) other
        (mem_of_mem_lasting hother)
      exact Bool.not_eq_true _ ▸ hnone

/-- Where every name occurs once, everything stays. -/
theorem lasting_of_pairwise {given : List Header}
    (h : given.Pairwise fun a b => sameName a.name b.name = false) : lasting given = given := by
  induction h with
  | nil => rfl
  | cons hfirst _ ih =>
    rw [lasting, if_neg, ih]
    rw [List.any_eq_true]
    rintro ⟨other, hother, hsame⟩
    rw [hfirst other hother] at hsame
    cases hsame

/-! ### Lookups -/

/-- The last value supplied for a name stands in place of those that it had. -/
theorem getAll_collect (headers : Headers) (given : List Header) (name : String) :
    (headers.collect given).getAll name =
      ((supplied given name).getLast?.map ([·])).getD (headers.getAll name) := by
  induction given generalizing headers with
  | nil => rfl
  | cons header rest ih =>
    rw [collect, List.foldl_cons, ← collect, ih, getAll_insert]
    cases hname : sameName header.name name with
    | true =>
      have hsupplied : supplied (header :: rest) name = header.value :: supplied rest name := by
        simp [supplied, hname]
      rw [hsupplied, List.getLast?_cons]
      cases (supplied rest name).getLast? <;> rfl
    | false =>
      have hsupplied : supplied (header :: rest) name = supplied rest name := by
        simp [supplied, hname]
      rw [hsupplied]
      rfl

/-! ### Collections -/

theorem ofHeaders_eq (given : List Header) : ofHeaders given = empty.collect given := rfl

theorem entries_ofHeaders (given : List Header) : (ofHeaders given).entries = lasting given := by
  rw [ofHeaders_eq, entries_collect]
  rfl

theorem getAll_ofHeaders (given : List Header) (name : String) :
    (ofHeaders given).getAll name = (supplied given name).getLast?.toList := by
  rw [ofHeaders_eq, getAll_collect]
  cases (supplied given name).getLast? <;> rfl

/-- Pairs are collected as the headers that they stand for. -/
theorem ofList_eq_ofHeaders (pairs : List (String × String)) :
    ofList pairs = ofHeaders (pairs.map fun pair => ⟨pair.1, pair.2⟩) := by
  rw [ofList, ofHeaders, List.foldl_map]

/-- What was collected is collected again as it is. -/
theorem ofHeaders_entries (given : List Header) :
    ofHeaders (ofHeaders given).entries = ofHeaders given := by
  have hagain := entries_ofHeaders (ofHeaders given).entries
  rw [lasting_of_pairwise (entries_ofHeaders given ▸ pairwise_lasting given)] at hagain
  exact congrArg Headers.mk hagain

/-- Pairs of names and values, and headers, are collected alike. Of what is given those stay that no
later one of the same name follows, so that each name occurs once and every lookup finds the last
value supplied for the name; what was collected is collected again as it is. -/
theorem collected_lasting (pairs : List (String × String)) :
    let given : List Header := pairs.map fun pair => ⟨pair.1, pair.2⟩
    let headers := ofList pairs
    ofHeaders given = headers ∧ headers.entries = lasting given ∧
      headers.entries.Pairwise (fun a b => sameName a.name b.name = false) ∧
      (∀ name,
        let values := (pairs.filter (sameName ·.1 name)).map (·.2)
        headers.get? name = values.getLast? ∧ headers.getAll name = values.getLast?.toList ∧
          (headers.contains name = true ↔ values ≠ [])) ∧
      ofHeaders headers.entries = headers ∧
      ofList (headers.entries.map fun header => (header.name, header.value)) = headers := by
  intro given headers
  have hheaders : headers = ofHeaders given := ofList_eq_ofHeaders pairs
  have hentries : headers.entries = lasting given := hheaders ▸ entries_ofHeaders given
  have hagain : ofHeaders headers.entries = headers := hheaders ▸ ofHeaders_entries given
  refine ⟨hheaders.symm, hentries, hentries ▸ pairwise_lasting given, fun name => ?_, hagain, ?_⟩
  · intro values
    have hvalues : supplied given name = values := by
      rw [supplied, List.filter_map, List.map_map]
      rfl
    have hall : headers.getAll name = values.getLast?.toList := by
      rw [hheaders, getAll_ofHeaders, hvalues]
    refine ⟨?_, hall, ?_⟩
    · rw [get?_eq_head?, hall, Option.head?_toList]
    · rw [contains_iff, hall, Ne, Option.toList_eq_nil_iff, List.getLast?_eq_none_iff]
  · rw [ofList_eq_ofHeaders, List.map_map]
    exact (congrArg ofHeaders (List.map_id _)).trans hagain

/-- The later letters count, and the later place. -/
example : (ofList [("Vary", "a"), ("Allow", "b"), ("VARY", "c")]).entries =
    [⟨"Allow", "b"⟩, ⟨"VARY", "c"⟩] := by decide +kernel

end DocumentServer.Headers
