import DocumentServer.Proofs.Bytes
import DocumentServer.Proofs.Store.Containment

/-! Single pages of a store. A page holds the first entries behind its cursor, in ascending order of
the names' bytes, and as many of them as its limit allows. Its length is looked at only behind an
entry, so the limit zero reads a page of one. -/
namespace DocumentServer.ObjectStore

open KeyMap (Behind)

/-- The names behind a cursor, in ascending order. The cursor need not be a name of the store. -/
def keysAfter (store : ObjectStore) (cursor : Option String) : List String :=
  store.keys.filter fun key => ∀ last ∈ cursor, Bytes.ofString last < Bytes.ofString key

/-- The first `count` entries behind a cursor, or all of them if there are fewer. -/
structure IsPage (store : ObjectStore) (cursor : Option String) (count : Nat)
    (page : List (String × Document)) : Prop where
  names : page.map (·.1) = (store.keysAfter cursor).take count
  documents : ∀ entry ∈ page, store.get entry.1 = .ok (some entry.2)
  ascending : page.Pairwise fun a b => Bytes.ofString a.1 < Bytes.ofString b.1

variable {store : ObjectStore} {documents : KeyMap Document} {cursor : Option String}
  {count : Nat} {page : List (String × Document)}

theorem keysAfter_eq (store : ObjectStore) (cursor : Option String) :
    store.keysAfter cursor = store.keys.filter (Behind cursor ·) := by
  refine List.filter_congr fun key _ => decide_eq_decide.2 ?_
  simp only [Bytes.ofString_lt_iff, Behind]

theorem IsPage.length_eq (h : store.IsPage cursor count page) :
    page.length = min count (store.keysAfter cursor).length := by
  rw [← List.length_map (f := (·.1)), h.names, List.length_take]

theorem isPage_take (h : store.Shows documents) (cursor : Option String) (count : Nat) :
    store.IsPage cursor count ((documents.after cursor).take count) where
  names := by rw [List.map_take, KeyMap.map_fst_after, keysAfter_eq, h.keys]
  documents entry member := by
    obtain ⟨found, -⟩ := (KeyMap.mem_after _).1 (List.mem_of_mem_take member)
    rw [h.get, (documents.mem_entries_iff _ _).1 found]
  ascending :=
    ((documents.ascending_after cursor).sublist (List.take_sublist ..)).imp fun hless =>
      (Bytes.ofString_lt_iff _ _).2 hless

/-- A page that comes back is whole, even if texts elsewhere in the store can not be read. -/
theorem isPage_of_pageAfter (hcount : 1 ≤ count) (h : store.pageAfter cursor count = .ok page) :
    store.IsPage cursor count page := by
  rcases store.pageAfter_cases cursor hcount with ⟨found, hfound, hread⟩ | ⟨error, herror, -⟩
  · obtain rfl : page = found := by rwa [h, Except.ok.injEq] at hfound
    have hnames : page.map (·.1) = (store.keysAfter cursor).take count := by
      have hfst := congrArg (List.map Prod.fst) hread
      rw [List.map_map, List.map_map] at hfst
      rw [keysAfter_eq]
      exact hfst.symm.trans (List.map_id _)
    refine ⟨hnames, fun entry member => ?_, ?_⟩
    · have hentry : (entry.1, Except.ok (some entry.2)) ∈
          (store.pageNames cursor count).map fun name => (name, store.get name) :=
        hread ▸ List.mem_map_of_mem (f := fun entry => (entry.1, Except.ok (some entry.2))) member
      obtain ⟨name, -, hname⟩ := List.mem_map.1 hentry
      obtain ⟨rfl, hget⟩ := Prod.mk.inj hname
      exact hget
    · have hkeys : (store.keysAfter cursor).Pairwise (· < ·) :=
        (List.pairwise_map.2 store.objects.ascending).filter _
      have hpage := hkeys.sublist (List.take_sublist count _)
      rw [← hnames] at hpage
      exact (List.pairwise_map.1 hpage).imp fun hless => (Bytes.ofString_lt_iff _ _).2 hless
  · rw [h] at herror
    cases herror

theorem IsPage.behind (h : store.IsPage cursor count page) {name : String}
    (hname : name ∈ page.map (·.1)) :
    ∀ last ∈ cursor, Bytes.ofString last < Bytes.ofString name := by
  rw [h.names] at hname
  exact of_decide_eq_true (List.mem_filter.1 (List.mem_of_mem_take hname)).2

/-- A page of a readable store holds the first entries behind its cursor, up to its limit. Only the
limit zero is read as one. -/
theorem pageAfter_exact (h : store.Legible) (cursor : Option String) (limit : Nat) :
    ∃ page, store.pageAfter cursor limit = .ok page ∧
      store.IsPage cursor (max limit 1) page ∧
      page.length = min (max limit 1) (store.keysAfter cursor).length ∧
      (store.IsPage cursor limit page ↔ 0 < limit ∨ store.keysAfter cursor = []) ∧
      (page.length ≤ limit ↔ 0 < limit ∨ store.keysAfter cursor = []) := by
  obtain ⟨documents, hshows⟩ := h.exists_shows
  have hpage := isPage_take hshows cursor (max limit 1)
  have hlength := hpage.length_eq
  have hwithin : ((documents.after cursor).take (max limit 1)).length ≤ limit ↔
      0 < limit ∨ store.keysAfter cursor = [] := by
    rw [hlength, ← List.length_eq_zero_iff]
    omega
  refine ⟨_, hshows.pageAfter cursor limit, hpage, hlength, ⟨fun hexact => ?_, fun hroom => ?_⟩,
    hwithin⟩
  · rw [← hwithin, hexact.length_eq]
    exact Nat.min_le_left ..
  · rcases hroom with hpositive | hnone
    · rw [Nat.max_eq_left hpositive] at hpage ⊢
      exact hpage
    · refine ⟨?_, hpage.documents, hpage.ascending⟩
      rw [hpage.names, hnone, List.take_nil, List.take_nil]

/-- The cursor stands between two names, of which the page holds the greater one. -/
theorem pageAfter_exact_between_names :
    let store := ((∅ : ObjectStore).put "a" .null).put "c" .null
    store.Legible ∧
      ∃ page, store.pageAfter (some "b") 1 = .ok page ∧ store.IsPage (some "b") 1 page := by
  intro store
  have hnull : Document.Readable .null := ⟨.null, .null, by decide⟩
  have hlegible : store.Legible := ((keeps_empty.put hnull "a").put hnull "c").shows.legible
  obtain ⟨page, hpage, hexact, -⟩ := pageAfter_exact hlegible (some "b") 1
  exact ⟨hlegible, page, hpage, hexact⟩

/-- With the limit zero a page holds an entry. -/
theorem not_isPage_limit_zero :
    let store := (∅ : ObjectStore).put "a" (.integer 1)
    store.Legible ∧ store.pageAfter none 0 = .ok [("a", .integer 1)] ∧
      ¬ store.IsPage none 0 [("a", .integer 1)] := by
  intro store
  have hone : Document.Readable (.integer 1) :=
    ⟨.integer 1, .integer (by decide) (by decide), by decide⟩
  have hshows := (keeps_empty.put hone "a").shows
  exact ⟨hshows.legible, hshows.pageAfter none 0, fun hpage => nomatch hpage.names⟩

end DocumentServer.ObjectStore
