import DocumentServer.Proofs.Document.Lexemes
import DocumentServer.Proofs.KeyMap

/-! Documents read back from their texts. A canonical document with integers of 64 bits is read as
itself when there is room for its brackets. The reader goes through an array or an object once there
is room for one level more, so the induction is on the room. -/
namespace DocumentServer.Document

open Bytes (ofChars ofChars_cons_ascii)

/-! ### Beginnings -/

theorem skipBlanks_cons {b : UInt8} (h : isBlank b = false) (rest : Bytes) :
    skipBlanks (b :: rest) = b :: rest := by
  simp [skipBlanks, h]

theorem endsNumber_cons {b : UInt8} (h : b = 44 ∨ b = 93 ∨ b = 125 ∨ b = 10) (rest : Bytes) :
    EndsNumber (b :: rest) := by
  rintro c hc
  obtain rfl : b = c := by simpa using hc
  rcases h with rfl | rfl | rfl | rfl <;> decide

theorem ne_of_isDigit {b c : UInt8} (hb : isDigit b = true) (hc : isDigit c = false) : b ≠ c := by
  rintro rfl
  rw [hb] at hc
  cases hc

theorem isBlank_of_isDigit {b : UInt8} (h : isDigit b = true) : isBlank b = false := by
  have hne (c : UInt8) (hc : isDigit c = false) : (b == c) = false :=
    beq_eq_false_iff_ne.2 (ne_of_isDigit h hc)
  rw [isBlank, hne 32 rfl, hne 10 rfl, hne 13 rfl, hne 9 rfl]
  rfl

theorem endsNumber_nil : EndsNumber [] := fun _ h => nomatch h

/-- A text begins neither with a blank nor with a closing bracket. -/
theorem chars_cons {document : Document} (h : document.Integral) :
    ∃ b bytes, ofChars (chars document) = b :: bytes ∧ isBlank b = false ∧ b ≠ 93 := by
  cases h with
  | null => exact ⟨_, _, rfl, by decide⟩
  | bool value => cases value <;> exact ⟨_, _, rfl, by decide⟩
  | integer hmin hmax =>
    rcases readNumber_integerText hmin hmax endsNumber_nil with h | h
    · obtain ⟨digits, hdigits, -⟩ := h
      exact ⟨_, _, hdigits, by decide⟩
    · obtain ⟨b, digits, hdigits, hb, -⟩ := h
      exact ⟨_, _, hdigits, isBlank_of_isDigit hb, ne_of_isDigit hb rfl⟩
  | string text => exact ⟨_, _, ofChars_quote text, by decide⟩
  | @array items _ => cases items <;> exact ⟨91, _, ofChars_cons_ascii (by decide) _, by decide⟩
  | @object members _ =>
    cases members <;> exact ⟨123, _, ofChars_cons_ascii (by decide) _, by decide⟩

/-! ### Scalars -/

theorem readWith_number (fuel : Nat) (nested : Option (Bytes → Reading Document)) {value : Int}
    (hmin : minInteger ≤ value) (hmax : value ≤ maxInteger) {rest : Bytes}
    (hrest : EndsNumber rest) :
    readWith fuel nested (ofChars (integerText value) ++ rest) = .ok (.integer value, rest) := by
  rcases readNumber_integerText hmin hmax hrest with h | h
  · obtain ⟨digits, hdigits, hread⟩ := h
    rw [hdigits, ← hread]
    rfl
  · obtain ⟨b, digits, hdigits, hb, hread⟩ := h
    have hne (c : UInt8) (hc : isDigit c = false) : b ≠ c := ne_of_isDigit hb hc
    rw [hdigits, List.cons_append, readWith, skipBlanks_cons (isBlank_of_isDigit hb), ← hread]
    simp only [hne 91 rfl, hne 123 rfl, hne 34 rfl, hne 45 rfl, hb, ↓reduceIte]

theorem readWith_quote (fuel : Nat) (nested : Option (Bytes → Reading Document)) (text : String)
    (rest : Bytes) (hfuel : (ofChars (quote text)).length ≤ fuel) :
    readWith fuel nested (ofChars (quote text) ++ rest) = .ok (.string text, rest) := by
  rw [ofChars_quote, List.length_cons, List.length_append] at hfuel
  rw [ofChars_quote, List.cons_append, List.append_assoc, readWith, skipBlanks_cons rfl,
    List.singleton_append]
  simp [readString_contents text fuel rest (by omega)]

/-! ### Arrays and objects -/

/-- The reader takes the text of a document for the document, whatever may follow it. -/
def Reads (read : Bytes → Reading Document) (document : Document) : Prop :=
  ∀ rest, EndsNumber rest → read (ofChars (chars document) ++ rest) = .ok (document, rest)

theorem endsNumber_itemChars (items : List Document) (rest : Bytes) :
    EndsNumber (ofChars (itemChars items) ++ rest) := by
  cases items with
  | nil => exact endsNumber_cons (.inr (.inl rfl)) _
  | cons item items =>
    rw [itemChars, ofChars_cons_ascii (by decide)]
    exact endsNumber_cons (.inl rfl) _

theorem endsNumber_memberChars (members : List (String × Document)) (rest : Bytes) :
    EndsNumber (ofChars (memberChars members) ++ rest) := by
  cases members with
  | nil => exact endsNumber_cons (.inr (.inr (.inl rfl))) _
  | cons member members =>
    rw [memberChars, ofChars_cons_ascii (by decide)]
    exact endsNumber_cons (.inl rfl) _

theorem readItems_chars {read : Bytes → Reading Document} {items : List Document}
    (hread : ∀ item ∈ items, item.Integral ∧ Reads read item) {fuel : Nat}
    (hfuel : (ofChars (itemChars items)).length ≤ fuel) (seen : List Document) (rest : Bytes) :
    readItems read fuel seen (ofChars (itemChars items) ++ rest) =
      .ok (.array (seen.reverse ++ items), rest) := by
  induction items generalizing fuel seen with
  | nil =>
    obtain ⟨left, rfl⟩ := Nat.exists_eq_add_of_le' hfuel
    show readItems read (left + 1) seen (93 :: rest) = _
    rw [readItems, skipBlanks_cons rfl, List.append_nil]
    rfl
  | cons item items ih =>
    obtain ⟨⟨hintegral, hitem⟩, hitems⟩ := List.forall_mem_cons.1 hread
    obtain ⟨b, bytes, hbytes, hblank, hbracket⟩ := chars_cons hintegral
    have htext : ofChars (itemChars (item :: items)) =
        44 :: b :: (bytes ++ ofChars (itemChars items)) := by
      rw [itemChars, ofChars_cons_ascii (by decide), Bytes.ofChars_append, hbytes]
      rfl
    rw [htext, List.length_cons, List.length_cons, List.length_append] at hfuel
    obtain ⟨left, rfl⟩ := Nat.exists_eq_add_of_le' (Nat.le_of_add_left_le hfuel)
    have hitem := hitem _ (endsNumber_itemChars items rest)
    rw [hbytes, List.cons_append] at hitem
    have hrest : readItems read left (item :: seen) _ = _ := ih hitems (by omega) _
    rw [htext, List.cons_append, List.cons_append, List.append_assoc, readItems,
      skipBlanks_cons rfl]
    simp [skipBlanks_cons hblank, hbracket, hitem, hrest]

/-- A name of an object with its value reads back. -/
theorem readMember_chars {read : Bytes → Reading Document} {name : String} {value : Document}
    (hread : Reads read value) {fuel : Nat}
    (hfuel : (ofChars (name.toList.flatMap escape)).length < fuel) {rest : Bytes}
    (hrest : EndsNumber rest) :
    readMember read fuel
        (ofChars (name.toList.flatMap escape) ++ 34 :: 58 :: (ofChars (chars value) ++ rest)) =
      .ok ((name, value), rest) := by
  simp [readMember, readString_contents name fuel _ hfuel, skipBlanks_cons (b := 58) rfl,
    hread rest hrest]

theorem readMembers_chars {read : Bytes → Reading Document} {members : List (String × Document)}
    (hread : ∀ member ∈ members, Reads read member.2) {fuel : Nat}
    (hfuel : (ofChars (memberChars members)).length ≤ fuel) (seen : List (String × Document))
    (rest : Bytes) :
    readMembers read fuel seen (ofChars (memberChars members) ++ rest) =
      .ok (ofMembers (seen.reverse ++ members), rest) := by
  induction members generalizing fuel seen with
  | nil =>
    obtain ⟨left, rfl⟩ := Nat.exists_eq_add_of_le' hfuel
    show readMembers read (left + 1) seen (125 :: rest) = _
    rw [readMembers, skipBlanks_cons rfl, List.append_nil]
    rfl
  | cons member members ih =>
    obtain ⟨name, value⟩ := member
    obtain ⟨hvalue, hmembers⟩ := List.forall_mem_cons.1 hread
    have htext : ofChars (memberChars ((name, value) :: members)) =
        44 :: 34 :: (ofChars (name.toList.flatMap escape) ++
          34 :: 58 :: (ofChars (chars value) ++ ofChars (memberChars members))) := by
      rw [memberChars, ofChars_cons_ascii (by decide), Bytes.ofChars_append, ofChars_quote,
        ofChars_cons_ascii (by decide), Bytes.ofChars_append]
      simp
    rw [htext, List.length_cons, List.length_cons, List.length_append, List.length_cons,
      List.length_cons, List.length_append] at hfuel
    obtain ⟨left, rfl⟩ := Nat.exists_eq_add_of_le' (Nat.le_of_add_left_le hfuel)
    have hmember : readMember read left (ofChars (name.toList.flatMap escape) ++
        34 :: 58 :: (ofChars (chars value) ++ (ofChars (memberChars members) ++ rest))) = _ :=
      readMember_chars hvalue (by omega) (endsNumber_memberChars members rest)
    have hrest : readMembers read left ((name, value) :: seen) _ = _ := ih hmembers (by omega) _
    rw [htext]
    simp [readMembers, skipBlanks_cons (b := 44) rfl, skipBlanks_cons (b := 34) rfl, hmember,
      hrest]

/-! ### Documents -/

theorem depthOfItems_le_iff (items : List Document) (n : Nat) :
    depthOfItems items ≤ n ↔ ∀ item ∈ items, item.depth ≤ n := by
  induction items with
  | nil => simp [depthOfItems]
  | cons item items ih => rw [depthOfItems, Nat.max_le, ih, List.forall_mem_cons]

theorem depthOfMembers_le_iff (members : List (String × Document)) (n : Nat) :
    depthOfMembers members ≤ n ↔ ∀ member ∈ members, member.2.depth ≤ n := by
  induction members with
  | nil => simp [depthOfMembers]
  | cons member members ih => rw [depthOfMembers, Nat.max_le, ih, List.forall_mem_cons]

theorem length_chars_le_itemChars {item : Document} {items : List Document}
    (member : item ∈ items) :
    (ofChars (chars item)).length ≤ (ofChars (itemChars items)).length := by
  induction items with
  | nil => cases member
  | cons head items ih =>
    rw [itemChars, ofChars_cons_ascii (by decide), Bytes.ofChars_append, List.length_cons,
      List.length_append]
    rcases List.mem_cons.1 member with rfl | member
    · omega
    · have := ih member
      omega

theorem length_chars_le_memberChars {member : String × Document}
    {members : List (String × Document)} (h : member ∈ members) :
    (ofChars (chars member.2)).length ≤ (ofChars (memberChars members)).length := by
  induction members with
  | nil => cases h
  | cons head members ih =>
    rw [memberChars, ofChars_cons_ascii (by decide), Bytes.ofChars_append,
      ofChars_cons_ascii (by decide), Bytes.ofChars_append]
    simp only [List.length_cons, List.length_append]
    rcases List.mem_cons.1 h with rfl | h
    · omega
    · have := ih h
      omega

/-- The text of an array is as long as that of its items behind another one. -/
theorem length_chars_array {item : Document} {items : List Document} (member : item ∈ items) :
    (ofChars (chars item)).length ≤ (ofChars (chars (.array items))).length := by
  cases items with
  | nil => cases member
  | cons head items => exact length_chars_le_itemChars member

theorem length_chars_object {member : String × Document} {members : List (String × Document)}
    (h : member ∈ members) :
    (ofChars (chars member.2)).length ≤ (ofChars (chars (.object members))).length := by
  cases members with
  | nil => cases h
  | cons head members => exact length_chars_le_memberChars h

theorem reads_array {read : Bytes → Reading Document} {items : List Document}
    (hread : ∀ item ∈ items, item.Integral ∧ Reads read item) {fuel : Nat}
    (hfuel : (ofChars (chars (.array items))).length ≤ fuel) :
    Reads (readWith fuel (some read)) (.array items) := by
  intro rest hrest
  cases items with
  | nil => rfl
  | cons item items =>
    obtain ⟨⟨hintegral, hitem⟩, hitems⟩ := List.forall_mem_cons.1 hread
    obtain ⟨b, bytes, hbytes, hblank, hbracket⟩ := chars_cons hintegral
    have htext : ofChars (chars (.array (item :: items))) =
        91 :: b :: (bytes ++ ofChars (itemChars items)) := by
      rw [chars, ofChars_cons_ascii (by decide), Bytes.ofChars_append, hbytes]
      rfl
    rw [htext, List.length_cons, List.length_cons, List.length_append] at hfuel
    have hitem := hitem _ (endsNumber_itemChars items rest)
    rw [hbytes, List.cons_append] at hitem
    have hitems : readItems read fuel [item] _ = _ := readItems_chars hitems (by omega) _ rest
    rw [htext]
    simp [readWith, readArray, skipBlanks_cons (b := 91) rfl, skipBlanks_cons hblank, hbracket,
      hitem, hitems]

theorem reads_object {read : Bytes → Reading Document} {members : List (String × Document)}
    (hascending : Ascending members) (hread : ∀ member ∈ members, Reads read member.2) {fuel : Nat}
    (hfuel : (ofChars (chars (.object members))).length ≤ fuel) :
    Reads (readWith fuel (some read)) (.object members) := by
  intro rest hrest
  cases members with
  | nil => rfl
  | cons member members =>
    obtain ⟨name, value⟩ := member
    obtain ⟨hvalue, hmembers⟩ := List.forall_mem_cons.1 hread
    have htext : ofChars (chars (.object ((name, value) :: members))) =
        123 :: 34 :: (ofChars (name.toList.flatMap escape) ++
          34 :: 58 :: (ofChars (chars value) ++ ofChars (memberChars members))) := by
      rw [chars, ofChars_cons_ascii (by decide), Bytes.ofChars_append, ofChars_quote,
        ofChars_cons_ascii (by decide), Bytes.ofChars_append]
      simp
    rw [htext, List.length_cons, List.length_cons, List.length_append, List.length_cons,
      List.length_cons, List.length_append] at hfuel
    have hmember : readMember read fuel (ofChars (name.toList.flatMap escape) ++
        34 :: 58 :: (ofChars (chars value) ++ (ofChars (memberChars members) ++ rest))) = _ :=
      readMember_chars hvalue (by omega) (endsNumber_memberChars members rest)
    have hmembers : readMembers read fuel [(name, value)] _ = _ :=
      readMembers_chars hmembers (by omega) _ rest
    have hentries : ofMembers ((name, value) :: members) = .object ((name, value) :: members) := by
      rw [ofMembers, KeyMap.entries_ofList hascending]
    rw [htext]
    simp [readWith, readObject, skipBlanks_cons (b := 123) rfl, skipBlanks_cons (b := 34) rfl,
      hmember, hmembers, hentries]

/-- A document that has room for its brackets reads back from its text. -/
theorem reads_readValue (fuel : Nat) {room : Nat} {document : Document}
    (hcanonical : document.Canonical) (hintegral : document.Integral)
    (hdepth : document.depth ≤ room) (hfuel : (ofChars (chars document)).length ≤ fuel) :
    Reads (readValue fuel room) document := by
  induction room generalizing document with
  | zero =>
    cases hintegral with
    | null => exact fun _ _ => rfl
    | bool value => cases value <;> exact fun _ _ => rfl
    | integer hmin hmax => exact fun _ hrest => readWith_number fuel none hmin hmax hrest
    | string text => exact fun rest _ => readWith_quote fuel none text rest hfuel
    | array => exact absurd hdepth (Nat.not_succ_le_zero _)
    | object => exact absurd hdepth (Nat.not_succ_le_zero _)
  | succ room ih =>
    cases hintegral with
    | null => exact fun _ _ => rfl
    | bool value => cases value <;> exact fun _ _ => rfl
    | integer hmin hmax => exact fun _ hrest => readWith_number fuel _ hmin hmax hrest
    | string text => exact fun rest _ => readWith_quote fuel _ text rest hfuel
    | array hitems =>
      have hshallow := (depthOfItems_le_iff _ _).1 (Nat.le_of_succ_le_succ hdepth)
      cases hcanonical with
      | array hcanonical =>
        refine reads_array (fun item member => ⟨hitems item member, ?_⟩) hfuel
        exact ih (hcanonical item member) (hitems item member) (hshallow item member)
          (Nat.le_trans (length_chars_array member) hfuel)
    | object hmembers =>
      have hshallow := (depthOfMembers_le_iff _ _).1 (Nat.le_of_succ_le_succ hdepth)
      cases hcanonical with
      | object hascending hcanonical =>
        refine reads_object hascending (fun member h => ?_) hfuel
        exact ih (hcanonical member h) (hmembers member h) (hshallow member h)
          (Nat.le_trans (length_chars_object h) hfuel)

theorem encode_eq (document : Document) : document.encode = ofChars (chars document) := by
  rw [encode, Bytes.ofString_eq, toList_text]

/-- The document that a text holds for a reader with the given room. -/
def decodeWithin (room : Nat) (input : Bytes) : Except Fault Document :=
  match readValue (input.length + 1) room input with
  | .error fault => .error fault
  | .ok (document, rest) =>
    match skipBlanks rest with
    | [] => .ok document
    | b :: rest => .error (FaultCause.trailingCharacters.past (b :: rest))

theorem decode_eq (input : Bytes) : decode input = decodeWithin nestingLimit input := rfl

/-- A document is decoded from its encoding by a reader that has room for its brackets. -/
theorem decodeWithin_encode {document : Document} {room : Nat} (hcanonical : document.Canonical)
    (hintegral : document.Integral) (hdepth : document.depth ≤ room) :
    decodeWithin room document.encode = .ok document := by
  have hread := reads_readValue (document.encode.length + 1) hcanonical hintegral hdepth
    (by rw [encode_eq]; omega) [] endsNumber_nil
  rw [List.append_nil, ← encode_eq] at hread
  rw [decodeWithin, hread]
  rfl

/-- A document that nests no deeper than can be read is decoded from its encoding. -/
theorem decode_encode {document : Document} (hcanonical : document.Canonical)
    (hintegral : document.Integral) (hdepth : document.depth ≤ nestingLimit) :
    decode document.encode = .ok document :=
  decodeWithin_encode hcanonical hintegral hdepth

end DocumentServer.Document
