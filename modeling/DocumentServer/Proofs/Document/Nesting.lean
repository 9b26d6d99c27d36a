import DocumentServer.Proofs.Document.Scanning
import DocumentServer.Proofs.Document.RoundTrip

/-! What a reader makes of a text depends on its room in one way only: a text that is a document for
some room is that document whenever there is room for the nesting of the text, and is refused
otherwise. What is read is canonical and nests no deeper than its text. -/
namespace DocumentServer.Document

/-! ### Balanced parts -/

/-- The text up to `rest` leaves a scan at its level and takes it `levels` further in between. -/
def Spans (levels : Nat) (input rest : Bytes) : Prop :=
  ∃ part, input = part ++ rest ∧ ∀ level deepest, level ≤ deepest →
    part.foldl Scan.step ⟨.outside, level, deepest⟩ =
      ⟨.outside, level, max deepest (level + levels)⟩

theorem Passes.spans {input rest : Bytes} (h : Passes .outside .outside input rest) :
    Spans 0 input rest := by
  obtain ⟨part, rfl, hpart⟩ := h
  refine ⟨part, rfl, fun level deepest hle => ?_⟩
  rw [hpart, Nat.add_zero, Nat.max_eq_left hle]

theorem Spans.trans {m n : Nat} {a b c : Bytes} (h : Spans m a b) (h' : Spans n b c) :
    Spans (max m n) a c := by
  obtain ⟨part, rfl, hpart⟩ := h
  obtain ⟨part', rfl, hpart'⟩ := h'
  refine ⟨part ++ part', (List.append_assoc ..).symm, fun level deepest hle => ?_⟩
  rw [List.foldl_append, hpart _ _ hle, hpart' _ _ (by omega), Nat.max_assoc, Nat.add_max_add_left]

theorem Spans.behind {n : Nat} {a b c : Bytes} (h : Spans n b c)
    (hpasses : Passes .outside .outside a b) : Spans n a c := by
  have := hpasses.spans.trans h
  rwa [Nat.zero_max] at this

theorem Spans.before {n : Nat} {a b c : Bytes} (h : Spans n a b)
    (hpasses : Passes .outside .outside b c) : Spans n a c := by
  have := h.trans hpasses.spans
  rwa [Nat.max_zero] at this

/-- Brackets around a part take a scan one level further. -/
theorem Spans.brackets {n : Nat} {a rest : Bytes} {b c : UInt8} (h : Spans n a (c :: rest))
    (hb : b = 91 ∨ b = 123) (hc : c = 93 ∨ c = 125) : Spans (n + 1) (b :: a) rest := by
  obtain ⟨part, rfl, hpart⟩ := h
  refine ⟨b :: (part ++ [c]), by simp, fun level deepest hle => ?_⟩
  have hopen : Scan.step ⟨.outside, level, deepest⟩ b =
      ⟨.outside, level + 1, max deepest (level + 1)⟩ := by
    rcases hb with rfl | rfl <;> rfl
  have hclose (deepest : Nat) :
      Scan.step ⟨.outside, level + 1, deepest⟩ c = ⟨.outside, level, deepest⟩ := by
    rcases hc with rfl | rfl <;> rfl
  rw [List.foldl_cons, hopen, List.foldl_append, hpart _ _ (Nat.le_max_right _ _), List.foldl_cons,
    List.foldl_nil, hclose]
  congr 1
  omega

/-- A text that is spanned with nothing but blanks behind it nests as deep as was spanned. -/
theorem Spans.nesting_eq {n : Nat} {input rest : Bytes} (h : Spans n input rest)
    (hrest : skipBlanks rest = []) : nesting input = n := by
  have hall := h.before (passes_skipBlanks rest)
  rw [hrest] at hall
  obtain ⟨part, rfl, hpart⟩ := hall
  rw [List.append_nil, nesting, hpart _ _ (Nat.le_refl _)]
  show max 0 (0 + n) = n
  omega

/-! ### Readers and their room -/

section Settled

variable {α β : Type}

/-- The outcomes of reading with no more room than `limit`: the text is refused throughout, or the
same is read from some number of levels on and the text is refused with less room. -/
def Settled (limit : Nat) (read : Nat → Reading α) (Q : Nat → α → Bytes → Prop) : Prop :=
  (∀ room ≤ limit, ∃ fault, read room = .error fault) ∨
    ∃ levels value rest, Q levels value rest ∧
      (∀ room ≤ limit, levels ≤ room → read room = .ok (value, rest)) ∧
      ∀ room ≤ limit, room < levels → ∃ fault, read room = .error fault

variable {limit : Nat} {read : Nat → Reading α} {Q : Nat → α → Bytes → Prop}

theorem Settled.error (fault : Fault) : Settled limit (fun _ => .error fault) Q :=
  .inl fun _ _ => ⟨fault, rfl⟩

theorem Settled.ok {value : α} {rest : Bytes} (h : Q 0 value rest) :
    Settled limit (fun _ => .ok (value, rest)) Q :=
  .inr ⟨0, value, rest, h, fun _ _ _ => rfl, fun _ _ h => nomatch h⟩

/-- A reader that does not look at its room. -/
theorem Settled.of_taken (result : Reading α)
    (h : ∀ value rest, result = .ok (value, rest) → Q 0 value rest) :
    Settled limit (fun _ => result) Q := by
  cases result with
  | error fault => exact .error fault
  | ok taken => exact .ok (h taken.1 taken.2 rfl)

theorem Settled.congr {read' : Nat → Reading α} (h : Settled limit read Q)
    (heq : ∀ room ≤ limit, read' room = read room) : Settled limit read' Q := by
  rcases h with h | ⟨levels, value, rest, h, hok, herror⟩
  · exact .inl fun room hlimit => heq room hlimit ▸ h room hlimit
  · exact .inr ⟨levels, value, rest, h, fun room hlimit => heq room hlimit ▸ hok room hlimit,
      fun room hlimit => heq room hlimit ▸ herror room hlimit⟩

theorem Settled.mono {Q' : Nat → α → Bytes → Prop} (h : Settled limit read Q)
    (hQ : ∀ levels value rest, Q levels value rest → Q' levels value rest) :
    Settled limit read Q' := by
  rcases h with h | ⟨levels, value, rest, h, hok, herror⟩
  · exact .inl h
  · exact .inr ⟨levels, value, rest, hQ _ _ _ h, hok, herror⟩

/-- Reading one thing and then another, which is refused if one of them is. -/
theorem Settled.bind {whole : Nat → Reading β} {Q' : Nat → β → Bytes → Prop}
    (h : Settled limit read Q) (next : α → Bytes → Nat → Reading β)
    (hok : ∀ room value rest, read room = .ok (value, rest) → whole room = next value rest room)
    (herror : ∀ room fault, read room = .error fault → whole room = .error fault)
    (hnext : ∀ levels value rest, Q levels value rest →
      Settled limit (next value rest) fun levels' => Q' (max levels levels')) :
    Settled limit whole Q' := by
  have refused {room : Nat} (h : ∃ fault, read room = .error fault) :
      ∃ fault, whole room = .error fault :=
    h.imp fun fault h => herror room fault h
  rcases h with h | ⟨levels, value, rest, h, hread, hshort⟩
  · exact .inl fun room hlimit => refused (h room hlimit)
  · rcases hnext levels value rest h with hbad | ⟨levels', value', rest', h', hread', hshort'⟩
    · refine .inl fun room hlimit => ?_
      by_cases hroom : levels ≤ room
      · rw [hok room value rest (hread room hlimit hroom)]
        exact hbad room hlimit
      · exact refused (hshort room hlimit (by omega))
    · refine .inr ⟨max levels levels', value', rest', h', fun room hlimit hroom => ?_,
        fun room hlimit hroom => ?_⟩
      · rw [hok room value rest (hread room hlimit (by omega)), hread' room hlimit (by omega)]
      · by_cases hfirst : levels ≤ room
        · rw [hok room value rest (hread room hlimit hfirst)]
          exact hshort' room hlimit (by omega)
        · exact refused (hshort room hlimit (by omega))

/-- Brackets need one level of room more than what stands in them. -/
theorem Settled.succ {whole : Nat → Reading α} {Q' : Nat → α → Bytes → Prop}
    (h : Settled limit read Q) (hzero : ∃ fault, whole 0 = .error fault)
    (hsucc : ∀ room, whole (room + 1) = read room)
    (hQ : ∀ levels value rest, Q levels value rest → Q' (levels + 1) value rest) :
    Settled (limit + 1) whole Q' := by
  rcases h with h | ⟨levels, value, rest, h, hread, hshort⟩
  · refine .inl fun room hlimit => ?_
    cases room with
    | zero => exact hzero
    | succ room => exact hsucc room ▸ h room (by omega)
  · refine .inr ⟨levels + 1, value, rest, hQ _ _ _ h, fun room hlimit hroom => ?_,
      fun room hlimit hroom => ?_⟩
    · cases room with
      | zero => omega
      | succ room => exact hsucc room ▸ hread room (by omega) (by omega)
    · cases room with
      | zero => exact hzero
      | succ room => exact hsucc room ▸ hshort room (by omega) (by omega)

end Settled

/-! ### Arrays and objects -/

/-- A canonical document that nests no deeper than its text. -/
structure Understood (input : Bytes) (levels : Nat) (document : Document) (rest : Bytes) :
    Prop where
  canonical : document.Canonical
  depth : document.depth ≤ levels
  spans : Spans levels input rest

/-- Items up to the closing bracket, behind those seen before. -/
def UnderstoodItems (seen : List Document) (input : Bytes) (levels : Nat) (document : Document)
    (rest : Bytes) : Prop :=
  ∃ items, document = .array (seen.reverse ++ items) ∧
    (∀ item ∈ items, item.Canonical ∧ item.depth ≤ levels) ∧ Spans levels input (93 :: rest)

/-- Members up to the closing brace, behind those seen before. -/
def UnderstoodMembers (seen : List (String × Document)) (input : Bytes) (levels : Nat)
    (document : Document) (rest : Bytes) : Prop :=
  ∃ members, document = ofMembers (seen.reverse ++ members) ∧
    (∀ member ∈ members, member.2.Canonical ∧ member.2.depth ≤ levels) ∧
      Spans levels input (125 :: rest)

/-- A name with its value, behind the opening quote of the name. -/
structure UnderstoodMember (input : Bytes) (levels : Nat) (member : String × Document)
    (rest : Bytes) : Prop where
  canonical : member.2.Canonical
  depth : member.2.depth ≤ levels
  spans : Spans levels (34 :: input) rest

section Cons

variable {input behind rest rest' : Bytes} {levels levels' : Nat} {document : Document}

theorem UnderstoodItems.cons {item : Document} {seen : List Document}
    (hpasses : Passes .outside .outside input behind) (hitem : Understood behind levels item rest)
    (hitems : UnderstoodItems (item :: seen) rest levels' document rest') :
    UnderstoodItems seen input (max levels levels') document rest' := by
  obtain ⟨items, rfl, hitems, hspans⟩ := hitems
  refine ⟨item :: items, by simp, ?_, (hitem.spans.trans hspans).behind hpasses⟩
  refine List.forall_mem_cons.2 ⟨⟨hitem.canonical, ?_⟩, fun other member => ?_⟩
  · exact Nat.le_trans hitem.depth (Nat.le_max_left _ _)
  · obtain ⟨hcanonical, hdepth⟩ := hitems other member
    exact ⟨hcanonical, Nat.le_trans hdepth (Nat.le_max_right _ _)⟩

theorem UnderstoodMembers.cons {member : String × Document} {seen : List (String × Document)}
    (hpasses : Passes .outside .outside input (34 :: behind))
    (hmember : UnderstoodMember behind levels member rest)
    (hmembers : UnderstoodMembers (member :: seen) rest levels' document rest') :
    UnderstoodMembers seen input (max levels levels') document rest' := by
  obtain ⟨members, rfl, hmembers, hspans⟩ := hmembers
  refine ⟨member :: members, by simp, ?_, (hmember.spans.trans hspans).behind hpasses⟩
  refine List.forall_mem_cons.2 ⟨⟨hmember.canonical, ?_⟩, fun other h => ?_⟩
  · exact Nat.le_trans hmember.depth (Nat.le_max_left _ _)
  · obtain ⟨hcanonical, hdepth⟩ := hmembers other h
    exact ⟨hcanonical, Nat.le_trans hdepth (Nat.le_max_right _ _)⟩

end Cons

section Brackets

variable {limit : Nat} {read : Nat → Bytes → Reading Document}
  (hread : ∀ input, Settled limit (read · input) (Understood input))

include hread

theorem settled_readItems (fuel : Nat) (seen : List Document) (input : Bytes) :
    Settled limit (fun room => readItems (read room) fuel seen input)
      (UnderstoodItems seen input) := by
  induction fuel generalizing seen input with
  | zero => exact .error _
  | succ fuel ih =>
    have hblanks := passes_skipBlanks input
    cases hskip : skipBlanks input with
    | nil => simp only [readItems, hskip]; exact .error _
    | cons b rest =>
      rw [hskip] at hblanks
      by_cases hclose : b = 93
      · simp only [readItems, hskip, hclose, ↓reduceIte]
        exact .ok ⟨[], by rw [List.append_nil], by simp, (hclose ▸ hblanks).spans⟩
      by_cases hcomma : b = 44
      · subst hcomma
        have hblanks := hblanks.trans (Plain.passes (by decide) (passes_skipBlanks rest))
        cases hnext : skipBlanks rest with
        | nil => simp only [readItems, hskip, hclose, hnext, ↓reduceIte]; exact .error _
        | cons b after =>
          rw [hnext] at hblanks
          by_cases hbracket : b = 93
          · simp only [readItems, hskip, hclose, hnext, hbracket, ↓reduceIte]
            exact .error _
          refine (hread (b :: after)).bind
            (fun item rest room => readItems (read room) fuel (item :: seen) rest)
            (fun room item rest h => ?_) (fun room fault h => ?_) (fun levels item rest hitem =>
              (ih (item :: seen) rest).mono fun levels' document rest' hitems => ?_)
          · simp only [readItems, hskip, hclose, hnext, hbracket, h, ↓reduceIte]
          · simp only [readItems, hskip, hclose, hnext, hbracket, h, ↓reduceIte]
          · exact hitems.cons hblanks hitem
      · simp only [readItems, hskip, hclose, hcomma, ↓reduceIte]
        exact .error _

theorem settled_readMember (fuel : Nat) (input : Bytes) :
    Settled limit (fun room => readMember (read room) fuel input) (UnderstoodMember input) := by
  cases hname : readString fuel input with
  | error fault => simp only [readMember, hname]; exact .error _
  | ok taken =>
    obtain ⟨name, rest⟩ := taken
    have hpasses := (passes_readString hname).trans (passes_skipBlanks rest)
    cases hskip : skipBlanks rest with
    | nil => simp only [readMember, hname, hskip]; exact .error _
    | cons b rest =>
      rw [hskip] at hpasses
      by_cases hcolon : b = 58
      · subst hcolon
        have hpasses := hpasses.trans (Plain.passes (by decide) (.refl _ rest))
        refine (hread rest).bind (fun value rest _ => .ok ((name, value), rest))
          (fun room value rest h => ?_) (fun room fault h => ?_)
          (fun levels value rest hvalue => ?_)
        · simp only [readMember, hname, hskip, h, ↓reduceIte]
        · simp only [readMember, hname, hskip, h, ↓reduceIte]
        · refine .ok ⟨hvalue.canonical, ?_, ?_⟩ <;> rw [Nat.max_zero]
          · exact hvalue.depth
          · exact hvalue.spans.behind hpasses
      · simp only [readMember, hname, hskip, hcolon, ↓reduceIte]
        exact .error _

theorem settled_readMembers (fuel : Nat) (seen : List (String × Document)) (input : Bytes) :
    Settled limit (fun room => readMembers (read room) fuel seen input)
      (UnderstoodMembers seen input) := by
  induction fuel generalizing seen input with
  | zero => exact .error _
  | succ fuel ih =>
    have hblanks := passes_skipBlanks input
    cases hskip : skipBlanks input with
    | nil => simp only [readMembers, hskip]; exact .error _
    | cons b rest =>
      rw [hskip] at hblanks
      by_cases hclose : b = 125
      · simp only [readMembers, hskip, hclose, ↓reduceIte]
        exact .ok ⟨[], by rw [List.append_nil], by simp, (hclose ▸ hblanks).spans⟩
      by_cases hcomma : b = 44
      · subst hcomma
        have hblanks := hblanks.trans (Plain.passes (by decide) (passes_skipBlanks rest))
        cases hnext : skipBlanks rest with
        | nil => simp only [readMembers, hskip, hclose, hnext, ↓reduceIte]; exact .error _
        | cons b after =>
          rw [hnext] at hblanks
          by_cases hquote : b = 34
          · subst hquote
            refine (settled_readMember hread fuel after).bind
              (fun member rest room => readMembers (read room) fuel (member :: seen) rest)
              (fun room member rest h => ?_) (fun room fault h => ?_)
              (fun levels member rest hmember =>
                (ih (member :: seen) rest).mono fun levels' document rest' hmembers => ?_)
            · simp only [readMembers, hskip, hclose, hnext, h, ↓reduceIte]
            · simp only [readMembers, hskip, hclose, hnext, h, ↓reduceIte]
            · exact hmembers.cons hblanks hmember
          · by_cases hbrace : b = 125
            · simp only [readMembers, hskip, hclose, hnext, hbrace, ↓reduceIte]
              exact .error _
            · simp only [readMembers, hskip, hclose, hnext, hquote, hbrace, ↓reduceIte]
              exact .error _
      · simp only [readMembers, hskip, hclose, hcomma, ↓reduceIte]
        exact .error _

theorem settled_readArray (fuel : Nat) (input : Bytes) :
    Settled limit (fun room => readArray (read room) fuel input) (UnderstoodItems [] input) := by
  have hblanks := passes_skipBlanks input
  cases hskip : skipBlanks input with
  | nil => simp only [readArray, hskip]; exact .error _
  | cons b rest =>
    rw [hskip] at hblanks
    by_cases hclose : b = 93
    · simp only [readArray, hskip, hclose, ↓reduceIte]
      exact .ok ⟨[], rfl, by simp, (hclose ▸ hblanks).spans⟩
    refine (hread (b :: rest)).bind (fun item rest room => readItems (read room) fuel [item] rest)
      (fun room item rest h => ?_) (fun room fault h => ?_) (fun levels item rest hitem =>
        (settled_readItems hread fuel [item] rest).mono fun levels' document rest' hitems =>
          hitems.cons hblanks hitem)
    · simp only [readArray, hskip, hclose, h, ↓reduceIte]
    · simp only [readArray, hskip, hclose, h, ↓reduceIte]

theorem settled_readObject (fuel : Nat) (input : Bytes) :
    Settled limit (fun room => readObject (read room) fuel input) (UnderstoodMembers [] input) := by
  have hblanks := passes_skipBlanks input
  cases hskip : skipBlanks input with
  | nil => simp only [readObject, hskip]; exact .error _
  | cons b rest =>
    rw [hskip] at hblanks
    by_cases hclose : b = 125
    · simp only [readObject, hskip, hclose, ↓reduceIte]
      exact .ok ⟨[], rfl, by simp, (hclose ▸ hblanks).spans⟩
    by_cases hquote : b = 34
    · subst hquote
      refine (settled_readMember hread fuel rest).bind
        (fun member rest room => readMembers (read room) fuel [member] rest)
        (fun room member rest h => ?_) (fun room fault h => ?_) (fun levels member rest hmember =>
          (settled_readMembers hread fuel [member] rest).mono
            fun levels' document rest' hmembers => hmembers.cons hblanks hmember)
      · simp only [readObject, hskip, hclose, h, ↓reduceIte]
      · simp only [readObject, hskip, hclose, h, ↓reduceIte]
    · simp only [readObject, hskip, hclose, hquote, ↓reduceIte]
      exact .error _

end Brackets

/-! ### Documents -/

theorem UnderstoodItems.understood {input rest : Bytes} {levels : Nat} {document : Document}
    (h : UnderstoodItems [] input levels document rest) :
    Understood (91 :: input) (levels + 1) document rest := by
  obtain ⟨items, rfl, hitems, hspans⟩ := h
  refine ⟨.array fun item member => (hitems item member).1, ?_,
    hspans.brackets (.inl rfl) (.inl rfl)⟩
  exact Nat.succ_le_succ ((depthOfItems_le_iff _ _).2 fun item member => (hitems item member).2)

theorem UnderstoodMembers.understood {input rest : Bytes} {levels : Nat} {document : Document}
    (h : UnderstoodMembers [] input levels document rest) :
    Understood (123 :: input) (levels + 1) document rest := by
  obtain ⟨members, rfl, hmembers, hspans⟩ := h
  have hentries (entry : String × Document) (h : entry ∈ (KeyMap.ofList members).entries) :=
    hmembers entry (KeyMap.mem_of_mem_ofList h)
  refine ⟨.object (KeyMap.ascending _) fun entry member => (hentries entry member).1, ?_,
    hspans.brackets (.inr rfl) (.inr rfl)⟩
  exact Nat.succ_le_succ
    ((depthOfMembers_le_iff _ _).2 fun entry member => (hentries entry member).2)

theorem Understood.behind {a b rest : Bytes} {levels : Nat} {document : Document}
    (h : Understood b levels document rest) (hpasses : Passes .outside .outside a b) :
    Understood a levels document rest :=
  ⟨h.canonical, h.depth, h.spans.behind hpasses⟩

theorem TakesScalar.understood {result : Reading Document} {input rest : Bytes}
    {document : Document} (h : TakesScalar result input) (hresult : result = .ok (document, rest)) :
    Understood input 0 document rest := by
  obtain ⟨hcanonical, hdepth, hpasses⟩ := h document rest hresult
  exact ⟨hcanonical, Nat.le_of_eq hdepth, hpasses.spans⟩

theorem takesScalar_readWord {value : Document} {word : Bytes} (hcanonical : value.Canonical)
    (hdepth : value.depth = 0) (hword : ∀ b ∈ word, Plain b) (input : Bytes) :
    TakesScalar (readWord value word input) input := by
  intro document rest h
  obtain ⟨rfl, hpasses⟩ := passes_readWord hword h
  exact ⟨hcanonical, hdepth, hpasses⟩

/-- Without room for brackets scalars are read and nothing else. -/
theorem takesScalar_readWith (fuel : Nat) (input : Bytes) :
    TakesScalar (readWith fuel none input) input := by
  have hblanks := passes_skipBlanks input
  unfold readWith
  cases hskip : skipBlanks input with
  | nil => exact takesScalar_error _ _
  | cons b rest =>
    rw [hskip] at hblanks
    have plain (hb : Plain b) : Passes .outside .outside input rest :=
      hblanks.trans (hb.passes (.refl _ _))
    dsimp only
    split_ifs with _ _ hquote hminus hdigit hnull htrue hfalse
    · exact takesScalar_error _ _
    · exact takesScalar_error _ _
    · subst hquote
      split
      next => exact takesScalar_error _ _
      next text rest hstring =>
        exact .ok (.string text) rfl (hblanks.trans (passes_readString hstring))
    · subst hminus
      exact (takesScalar_readNumber true rest).behind (plain (by decide))
    · exact (takesScalar_readNumber false (b :: rest)).behind hblanks
    · subst hnull
      exact (takesScalar_readWord .null rfl (by simp [Plain]) rest).behind (plain (by decide))
    · subst htrue
      exact (takesScalar_readWord (.bool true) rfl (by simp [Plain]) rest).behind
        (plain (by decide))
    · subst hfalse
      exact (takesScalar_readWord (.bool false) rfl (by simp [Plain]) rest).behind
        (plain (by decide))
    · exact takesScalar_error _ _

theorem settled_readWith (fuel limit : Nat) (input : Bytes) :
    Settled limit (fun _ => readWith fuel none input) (Understood input) :=
  .of_taken _ fun _ _ => (takesScalar_readWith fuel input).understood

theorem settled_readValue (fuel limit : Nat) (input : Bytes) :
    Settled limit (fun room => readValue fuel room input) (Understood input) := by
  induction limit generalizing input with
  | zero =>
    refine (settled_readWith fuel 0 input).congr fun room hroom => ?_
    rw [Nat.le_zero.1 hroom, readValue]
  | succ limit ih =>
    have hblanks := passes_skipBlanks input
    cases hskip : skipBlanks input with
    | nil =>
      refine (settled_readWith fuel _ input).congr fun room _ => ?_
      cases room <;> simp only [readValue, readWith, hskip]
    | cons b rest =>
      rw [hskip] at hblanks
      by_cases harray : b = 91
      · subst harray
        refine (settled_readArray ih fuel rest).succ
          ⟨FaultCause.nestingTooDeep.past (91 :: rest), ?_⟩ (fun room => ?_)
          fun levels document rest h => h.understood.behind hblanks
        · simp only [readValue, readWith, hskip, ↓reduceIte]
        · simp only [readValue, readWith, hskip, ↓reduceIte]
      by_cases hobject : b = 123
      · subst hobject
        refine (settled_readObject ih fuel rest).succ
          ⟨FaultCause.nestingTooDeep.past (123 :: rest), ?_⟩ (fun room => ?_)
          fun levels document rest h => h.understood.behind hblanks
        · simp only [readValue, readWith, hskip, harray, ↓reduceIte]
        · simp only [readValue, readWith, hskip, harray, ↓reduceIte]
      · refine (settled_readWith fuel _ input).congr fun room _ => ?_
        cases room <;> simp only [readValue, readWith, hskip, harray, hobject, ↓reduceIte]

/-- A text that is refused for every room, or a document for all room that its brackets need. -/
theorem decodeWithin_cases (limit : Nat) (input : Bytes) :
    (∀ room ≤ limit, ∃ fault, decodeWithin room input = .error fault) ∨
      ∃ document : Document, document.Canonical ∧ document.depth ≤ nesting input ∧
        ∀ room ≤ limit, (nesting input ≤ room → decodeWithin room input = .ok document) ∧
          (room < nesting input → ∃ fault, decodeWithin room input = .error fault) := by
  have refused {room : Nat}
      (h : ∃ fault, readValue (input.length + 1) room input = .error fault) :
      ∃ fault, decodeWithin room input = .error fault := by
    obtain ⟨fault, h⟩ := h
    exact ⟨fault, by rw [decodeWithin, h]⟩
  rcases settled_readValue (input.length + 1) limit input with h | h
  · exact .inl fun room hlimit => refused (h room hlimit)
  · obtain ⟨levels, document, rest, hunderstood, hread, hshort⟩ := h
    cases hskip : skipBlanks rest with
    | nil =>
      have hnesting := hunderstood.spans.nesting_eq hskip
      rw [hnesting]
      refine .inr ⟨document, hunderstood.canonical, hunderstood.depth, fun room hlimit =>
        ⟨fun hroom => ?_, fun hroom => refused (hshort room hlimit hroom)⟩⟩
      simp only [decodeWithin, hread room hlimit hroom, hskip]
    | cons b behind =>
      refine .inl fun room hlimit => ?_
      by_cases hroom : levels ≤ room
      · simp only [decodeWithin, hread room hlimit hroom, hskip]
        exact ⟨_, rfl⟩
      · exact refused (hshort room hlimit (by omega))

/-- A text is decoded when it is a document for a reader without a limit and its brackets are no
more than the limit allows. -/
theorem decode_ok_iff (input : Bytes) (document : Document) :
    decode input = .ok document ↔
      decodeWithin input.length input = .ok document ∧ nesting input ≤ nestingLimit := by
  have hlength := nesting_le input
  rw [decode_eq]
  rcases decodeWithin_cases (max nestingLimit input.length) input with h | ⟨value, -, -, h⟩
  · obtain ⟨fault, hlimited⟩ := h nestingLimit (Nat.le_max_left _ _)
    obtain ⟨fault', hfree⟩ := h input.length (Nat.le_max_right _ _)
    simp [hlimited, hfree]
  · have hfree := (h input.length (Nat.le_max_right _ _)).1 hlength
    obtain ⟨hok, hshort⟩ := h nestingLimit (Nat.le_max_left _ _)
    by_cases hnesting : nesting input ≤ nestingLimit
    · simp [hok hnesting, hfree, hnesting]
    · obtain ⟨fault, hlimited⟩ := hshort (by omega)
      simp [hlimited, hnesting]

/-- The encoding of a document nests as deep as the document. -/
theorem nesting_encode {document : Document} (hcanonical : document.Canonical)
    (hintegral : document.Integral) : nesting document.encode = document.depth := by
  have hread := decodeWithin_encode hcanonical hintegral (Nat.le_refl document.depth)
  rcases decodeWithin_cases document.depth document.encode with h | ⟨value, -, hdepth, h⟩
  · obtain ⟨fault, hbad⟩ := h _ (Nat.le_refl _)
    rw [hbad] at hread
    cases hread
  · obtain ⟨hok, hshort⟩ := h _ (Nat.le_refl _)
    by_cases hroom : nesting document.encode ≤ document.depth
    · rw [hok hroom] at hread
      cases hread
      exact Nat.le_antisymm hroom hdepth
    · obtain ⟨fault, hbad⟩ := hshort (by omega)
      rw [hbad] at hread
      cases hread

/-- A document that nests deeper than can be read is refused, although it has an encoding. -/
theorem decode_encode_deep {document : Document} (hcanonical : document.Canonical)
    (hintegral : document.Integral) (hdepth : nestingLimit < document.depth) :
    ∃ fault, decode document.encode = .error fault := by
  cases hdecode : decode document.encode with
  | error fault => exact ⟨fault, rfl⟩
  | ok value =>
    obtain ⟨-, hnesting⟩ := (decode_ok_iff _ _).1 hdecode
    rw [nesting_encode hcanonical hintegral] at hnesting
    omega

/-- What is decoded is canonical and nests no deeper than can be read. -/
theorem canonical_decode {input : Bytes} {document : Document} (h : decode input = .ok document) :
    document.Canonical ∧ document.depth ≤ nestingLimit := by
  rw [decode_eq] at h
  rcases decodeWithin_cases nestingLimit input with hbad | ⟨value, hcanonical, hdepth, hcases⟩
  · obtain ⟨fault, hbad⟩ := hbad nestingLimit (Nat.le_refl _)
    rw [hbad] at h
    cases h
  · obtain ⟨hok, hshort⟩ := hcases nestingLimit (Nat.le_refl _)
    by_cases hnesting : nesting input ≤ nestingLimit
    · rw [hok hnesting] at h
      cases h
      exact ⟨hcanonical, Nat.le_trans hdepth hnesting⟩
    · obtain ⟨fault, hbad⟩ := hshort (by omega)
      rw [hbad] at h
      cases h

end DocumentServer.Document
