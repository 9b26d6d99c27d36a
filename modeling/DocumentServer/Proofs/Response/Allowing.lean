import DocumentServer.Proofs.Bytes
import DocumentServer.Proofs.Http.Headers
import DocumentServer.Response.Basic
import Mathlib

/-! The methods that a refusal lists. They are brought into a normal form, capital letters in
ascending order, which forgets the letter case and the order they were given in and nothing else:
two lists of methods have the same normal form exactly if one is a permutation of the other up to
letter case. The header that joins them with commas reads back as the list. -/
namespace DocumentServer

namespace Ascii

/-- Names are the same if they are equal in capital letters. -/
theorem sameName_iff_upper (a b : String) : sameName a b = true ↔ upper a = upper b := by
  have hupper (text : String) : upper (lower text) = upper text := by
    rw [upper, upper, lower, ← String.toList_inj, String.toList_map, String.toList_map,
      String.toList_map, List.map_map]
    exact List.map_congr_left fun c _ => Char.toUpper_toLower_eq_toUpper c
  have hlower (text : String) : lower (upper text) = lower text := by
    rw [lower, lower, upper, ← String.toList_inj, String.toList_map, String.toList_map,
      String.toList_map, List.map_map]
    exact List.map_congr_left fun c _ => Char.toLower_toUpper_eq_toLower c
  rw [sameName_iff]
  constructor
  · intro h
    rw [← hupper a, h, hupper]
  · intro h
    rw [← hlower a, h, hlower]

/-- Lists of names that are permutations of each other up to letter case. -/
def SameNames (names names' : List String) : Prop :=
  ∃ listed, List.Forall₂ (fun a b => sameName a b = true) names listed ∧ listed.Perm names'

theorem sameNames_iff (names names' : List String) :
    SameNames names names' ↔ (names.map upper).Perm (names'.map upper) := by
  constructor
  · rintro ⟨listed, hsame, hperm⟩
    have hmap : names.map upper = listed.map upper := by
      rw [← List.forall₂_eq_eq_eq, List.forall₂_map_left_iff, List.forall₂_map_right_iff]
      exact hsame.imp fun a b => (sameName_iff_upper a b).1
    rw [hmap]
    exact hperm.map upper
  · intro hperm
    have hnames : List.Forall₂ (fun a b => a = upper b) (names'.map upper) names' :=
      List.forall₂_map_left_iff.2 (List.forall₂_same.2 fun _ _ => rfl)
    obtain ⟨listed, hlisted, hperm'⟩ := List.perm_comp_forall₂ hperm hnames
    refine ⟨listed, ?_, hperm'⟩
    rw [List.forall₂_map_left_iff] at hlisted
    exact hlisted.imp fun a b => (sameName_iff_upper a b).2

end Ascii

open Ascii (upper sameName sameName_iff_upper SameNames sameNames_iff)

/-- Texts stand in the order of their bytes. -/
theorem Bytes.ofString_le_iff (text text' : String) :
    ofString text ≤ ofString text' ↔ text ≤ text' := by
  rw [← List.not_lt, ofString_lt_iff, String.not_lt]

namespace Response

/-! ### The normal form -/

theorem perm_normalizeMethods (methods : List String) :
    (normalizeMethods methods).Perm (methods.map upper) :=
  List.mergeSort_perm _ _

theorem pairwise_normalizeMethods (methods : List String) :
    (normalizeMethods methods).Pairwise fun a b => a ≤ b := by
  let le (a b : String) : Bool := decide (a ≤ b)
  have htrans (a b c : String) (hab : le a b = true) (hbc : le b c = true) : le a c = true :=
    decide_eq_true (String.le_trans (of_decide_eq_true hab) (of_decide_eq_true hbc))
  have htotal (a b : String) : (le a b || le b a) = true := by
    simpa [le] using String.le_total a b
  exact (List.pairwise_mergeSort htrans htotal (methods.map upper)).imp of_decide_eq_true

/-- A list has one arrangement in ascending order. -/
theorem normalizeMethods_eq_iff (methods methods' : List String) :
    normalizeMethods methods = normalizeMethods methods' ↔ SameNames methods methods' := by
  rw [sameNames_iff]
  constructor
  · intro h
    exact (perm_normalizeMethods methods).symm.trans (h ▸ perm_normalizeMethods methods')
  · intro h
    refine List.Perm.eq_of_pairwise (fun a b _ _ => String.le_antisymm)
      (pairwise_normalizeMethods methods) (pairwise_normalizeMethods methods') ?_
    exact (perm_normalizeMethods methods).trans (h.trans (perm_normalizeMethods methods').symm)

/-! ### The header -/

/-- Capital letters are not commas, so a name has a comma only if it was given one. -/
theorem comma_not_mem_upper {name : String} (h : ',' ∉ name.toList) :
    ',' ∉ (upper name).toList := by
  rw [upper, String.toList_map, List.mem_map]
  rintro ⟨c, hc, hcomma⟩
  by_cases hlower : c.isLower = true
  · have hupper : c.toUpper.isUpper = true := by
      rw [Char.isUpper_toUpper_eq_isAlpha, Char.isAlpha, hlower, Bool.or_true]
    rw [hcomma] at hupper
    exact absurd hupper (by decide)
  · rw [Char.toUpper_eq_of_not_isLower hlower] at hcomma
    exact h (hcomma ▸ hc)

/-- What commas join, and does not contain any, is what stands between the commas. -/
theorem split_join {names : List String} (hnames : names ≠ [])
    (hcomma : ∀ name ∈ names, ',' ∉ name.toList) :
    ((",".intercalate names).split ',').toList.map (·.copy) = names := by
  have hsplit := String.toList_split_intercalate hcomma
  rwa [if_neg hnames] at hsplit

theorem split_normalizeMethods {methods : List String} (hmethods : methods ≠ [])
    (hcomma : ∀ name ∈ methods, ',' ∉ name.toList) :
    ((",".intercalate (normalizeMethods methods)).split ',').toList.map (·.copy) =
      normalizeMethods methods := by
  refine split_join (fun hnone => hmethods ?_) fun name hname => ?_
  · have hperm := perm_normalizeMethods methods
    rw [hnone, List.nil_perm] at hperm
    exact List.map_eq_nil_iff.1 hperm
  · have hmem := (perm_normalizeMethods methods).mem_iff.1 hname
    obtain ⟨given, hgiven, rfl⟩ := List.mem_map.1 hmem
    exact comma_not_mem_upper (hcomma given hgiven)

/-! ### Refusals -/

/-- Nothing but a status keeps a refusal from being built. -/
theorem methodNotAllowed_eq {options : ResponseOptions} (hstatus : options.status = none)
    (method : String) (allowed : List String) :
    methodNotAllowed method allowed options =
      .ok ((build Status.methodNotAllowed.statusCode options.content options.headers).withDetail
        "Allow" (",".intercalate (normalizeMethods allowed))
        (.methodNotAllowed (upper method) (normalizeMethods allowed))) := by
  rw [methodNotAllowed, fixed, hstatus]
  rfl

/-- A refusal that gives no status of its own is built. It records the method in capital letters,
and the allowed methods in capital letters in ascending order of their bytes, each as often as it
was given; its header joins them with commas, and reads back as them if there are any and none has a
comma. Refusals are the same exactly if their methods and, up to the order, their lists of allowed
methods differ in letter case at most. -/
theorem methodNotAllowed_normal (method : String) (allowed : List String)
    (options : ResponseOptions) (hstatus : options.status = none) :
    ∃ (response : Response) (names : List String) (header : String),
      methodNotAllowed method allowed options = .ok response ∧
      response.detail = .methodNotAllowed (upper method) names ∧
      names.Perm (allowed.map upper) ∧
      names.Pairwise (fun name name' => Bytes.ofString name ≤ Bytes.ofString name') ∧
      response.headers.getAll "Allow" = [header] ∧ header = ",".intercalate names ∧
      (∀ method' allowed', methodNotAllowed method' allowed' options = .ok response ↔
        sameName method method' = true ∧ SameNames allowed allowed') ∧
      (allowed ≠ [] → (∀ name ∈ allowed, ',' ∉ name.toList) →
        (header.split ',').toList.map (·.copy) = names) := by
  refine ⟨_, normalizeMethods allowed, ",".intercalate (normalizeMethods allowed),
    methodNotAllowed_eq hstatus method allowed, rfl, perm_normalizeMethods allowed, ?_, ?_, rfl, ?_,
    split_normalizeMethods⟩
  · exact (pairwise_normalizeMethods allowed).imp (Bytes.ofString_le_iff _ _).2
  · have hself : sameName "Allow" "Allow" = true := (Ascii.sameName_iff _ _).2 rfl
    exact (Headers.getAll_insert _ _ _ _).trans (if_pos hself)
  · intro method' allowed'
    rw [methodNotAllowed_eq hstatus, Except.ok.injEq, sameName_iff_upper,
      ← normalizeMethods_eq_iff]
    constructor
    · intro h
      have hdetail := congrArg Response.detail h
      injection hdetail with hmethod hallowed
      exact ⟨hmethod.symm, hallowed.symm⟩
    · rintro ⟨hmethod, hallowed⟩
      rw [hmethod, hallowed]

/-- Three allowed methods, two of which differ in letter case, and the same list in another order
and other letters. -/
theorem methodNotAllowed_normal_of_repeated :
    ∃ (response : Response) (names : List String) (header : String),
      methodNotAllowed "patch" ["put", "Get", "get"] {} = .ok response ∧
      methodNotAllowed "Patch" ["GET", "gEt", "PUT"] {} = .ok response ∧
      names = ["GET", "GET", "PUT"] ∧ response.headers.getAll "Allow" = [header] ∧
      (header.split ',').toList.map (·.copy) = names := by
  obtain ⟨response, names, header, hok, hdetail, hperm, hascending, hheader, hjoin, hsame,
    hsplit⟩ := methodNotAllowed_normal "patch" ["put", "Get", "get"] {} rfl
  refine ⟨response, names, header, hok, ?_, ?_, hheader, hsplit (by decide) (by decide)⟩
  · refine (hsame _ _).2 ⟨by decide +kernel, ["PUT", "GET", "gEt"], ?_, by decide⟩
    simp only [List.forall₂_cons, List.Forall₂.nil, and_true]
    decide +kernel
  · have hgiven : ["put", "Get", "get"].map upper = ["PUT", "GET", "GET"] := by decide +kernel
    refine List.Perm.eq_of_pairwise (fun a b _ _ => String.le_antisymm)
      (hascending.imp (Bytes.ofString_le_iff _ _).1) (by decide) ?_
    exact (hgiven ▸ hperm).trans (by decide)

end Response

end DocumentServer
