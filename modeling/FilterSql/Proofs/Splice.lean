import FilterSql.Proofs.Continuation
import FilterSql.Proofs.Document

/-!
# Values inside longer texts

A text that holds one value is read in the same way inside a longer text, whatever is open around it
and whatever follows it (`atValue_extend`).  So an object that is put together from the texts of its
values is read member by member (`Document.ofText_objectText`), also where a value can only be passed
over.
-/

namespace FilterSql.Json

/-! ## values -/

section
variable {d d' : Doc}

theorem skipFault?_broken (start : Start) (read skip : Fault) :
    (Doc.broken start read skip).skipFault? ≠ none := Option.some_ne_none skip

theorem skipFault?_array_some (items : List Doc) (f : Fault) :
    (Doc.array items (some f)).skipFault? ≠ none := by
  rw [Doc.skipFault?, Ne, Option.or_eq_none_iff]
  exact fun h => nomatch h.2

theorem skipFault?_object_some (members : List (Key × Doc)) (f : Fault) :
    (Doc.object members (some f)).skipFault? ≠ none := by
  rw [Doc.skipFault?, Ne, Option.or_eq_none_iff]
  exact fun h => nomatch h.2

/-- a fault stays in what is left open around it -/
theorem skipFault?_abandon (h : d.skipFault? ≠ none) (up : List Frame) :
    (abandon d up).skipFault? ≠ none := by
  induction up generalizing d with
  | nil => exact h
  | cons frame up ih =>
    cases frame with
    | array items => exact ih (skipFault?_array_some _ _)
    | object members key => exact ih (skipFault?_object_some _ _)

theorem skipFault?_ne_none {up : List Frame} (hd' : d'.skipFault? ≠ none)
    (h : (⟨abandon d' up, false⟩ : Document) = ⟨d, false⟩) : d.skipFault? ≠ none := by
  cases h
  exact skipFault?_abandon hd' up

/-- what is left open has a fault -/
theorem skipFault?_ne_none_of_frame {frame : Frame} {up : List Frame}
    (h : (⟨abandon d' (frame :: up), false⟩ : Document) = ⟨d, false⟩) : d.skipFault? ≠ none := by
  cases frame with
  | array items => exact skipFault?_ne_none (skipFault?_array_some _ _) h
  | object members key => exact skipFault?_ne_none (skipFault?_object_some _ _) h

end

/-- the tokens are read as one value, whatever is open around it and whatever follows it -/
def Whole (read : List Frame → List Token → Document) (ts : List Token) (d : Doc) : Prop :=
  (∀ t ∈ ts, ¬ t.IsBroken) ∧ ∀ up us, read up (ts ++ us) = afterValue d up us

theorem Whole.cons {read read' : List Frame → List Token → Document} {t : Token} {ts : List Token}
    {d : Doc} (ht : ¬ t.IsBroken) (hstep : ∀ up us, read' up (t :: us) = read up us)
    (h : Whole read ts d) : Whole read' (t :: ts) d :=
  ⟨List.forall_mem_cons.mpr ⟨ht, h.1⟩, fun up us => (hstep up _).trans (h.2 up us)⟩

theorem atValue_openObject {t : Token} (ht : t ≠ .closeObject) (up : List Frame) (ts : List Token) :
    atValue up (.openObject :: t :: ts) = atKey [] up (t :: ts) := by
  cases t <;> first | rfl | exact absurd rfl ht

-- The recursion is on the tokens; the frames that are open change with every bracket.
mutual

theorem atValue_extend : ∀ {ts : List Token} {up : List Frame} {d : Doc},
    atValue up ts = ⟨d, false⟩ → d.skipFault? = none → Whole (fun up' => atValue (up ++ up')) ts d
  | .null :: _, _, _, h, hd | .bool _ :: _, _, _, h, hd | .number _ :: _, _, _, h, hd
  | .string _ :: _, _, _, h, hd => .cons id (fun _ _ => rfl) (afterValue_extend h hd)
  | .openArray :: t :: ts, up, d, h, hd => by
    by_cases ht : t = .closeArray
    · subst ht
      exact .cons id (fun _ _ => rfl) (.cons id (fun _ _ => rfl) (afterValue_extend h hd))
    · rw [atValue_openArray ht] at h
      obtain ⟨hbroken, hread⟩ := atValue_extend h hd
      refine ⟨List.forall_mem_cons.mpr ⟨id, hbroken⟩, fun up' us => ?_⟩
      rw [← hread up' us]
      exact atValue_openArray ht _ _
  | .openObject :: t :: ts, up, d, h, hd => by
    by_cases ht : t = .closeObject
    · subst ht
      exact .cons id (fun _ _ => rfl) (.cons id (fun _ _ => rfl) (afterValue_extend h hd))
    · rw [atValue_openObject ht] at h
      obtain ⟨hbroken, hread⟩ := atKey_extend h hd
      refine ⟨List.forall_mem_cons.mpr ⟨id, hbroken⟩, fun up' us => ?_⟩
      rw [← hread up' us]
      exact atValue_openObject ht _ _
  | [.openArray], _, _, h, hd | [.openObject], _, _, h, hd =>
    absurd hd (skipFault?_ne_none_of_frame h)
  | [], _, _, h, hd | .closeArray :: _, _, _, h, hd | .closeObject :: _, _, _, h, hd
  | .comma :: _, _, _, h, hd | .colon :: _, _, _, h, hd | .broken _ _ _ :: _, _, _, h, hd =>
    absurd hd (skipFault?_ne_none (skipFault?_broken _ _ _) h)

theorem atKey_extend : ∀ {ts : List Token} {members : List (Key × Doc)} {up : List Frame} {d : Doc},
    atKey members up ts = ⟨d, false⟩ → d.skipFault? = none →
      Whole (fun up' => atKey members (up ++ up')) ts d
  | .string _ :: t :: _, _, _, _, h, hd => by
    by_cases ht : t = .colon
    · subst ht
      exact .cons id (fun _ _ => rfl) (.cons id (fun _ _ => rfl) (atValue_extend h hd))
    · cases t <;>
        first | exact absurd rfl ht | exact absurd hd (skipFault?_ne_none_of_frame h)
  | [], _, _, _, h, hd | [.string _], _, _, _, h, hd
  | .null :: _, _, _, _, h, hd | .bool _ :: _, _, _, _, h, hd | .number _ :: _, _, _, _, h, hd
  | .openArray :: _, _, _, _, h, hd | .closeArray :: _, _, _, _, h, hd
  | .openObject :: _, _, _, _, h, hd | .closeObject :: _, _, _, _, h, hd
  | .comma :: _, _, _, _, h, hd | .colon :: _, _, _, _, h, hd
  | .broken _ _ _ :: _, _, _, _, h, hd => absurd hd (skipFault?_ne_none_of_frame h)

theorem afterValue_extend : ∀ {ts : List Token} {up : List Frame} {d₀ d : Doc},
    afterValue d₀ up ts = ⟨d, false⟩ → d.skipFault? = none →
      Whole (fun up' => afterValue d₀ (up ++ up')) ts d
  | [], [], _, _, h, _ => by
    cases h
    exact ⟨List.forall_mem_nil _, fun _ _ => rfl⟩
  | _ :: _, [], _, _, h, _ => by cases h
  | [], .array _ :: _, _, _, h, hd =>
    absurd hd (skipFault?_ne_none (skipFault?_array_some _ _) h)
  | [], .object _ _ :: _, _, _, h, hd =>
    absurd hd (skipFault?_ne_none (skipFault?_object_some _ _) h)
  | t :: ts, .array items :: up, d₀, d, h, hd => by
    cases t with
    | comma => exact .cons id (fun _ _ => rfl) (atValue_extend h hd)
    | closeArray =>
      have hclosed : afterValue (.array (d₀ :: items).reverse none) up ts = ⟨d, false⟩ := h
      exact .cons id (fun _ _ => rfl) (afterValue_extend hclosed hd)
    | _ => exact absurd hd (skipFault?_ne_none (skipFault?_array_some _ _) h)
  | t :: ts, .object members key :: up, d₀, d, h, hd => by
    cases t with
    | comma => exact .cons id (fun _ _ => rfl) (atKey_extend h hd)
    | closeObject =>
      have hclosed : afterValue (.object ((key, d₀) :: members).reverse none) up ts = ⟨d, false⟩ := h
      exact .cons id (fun _ _ => rfl) (afterValue_extend hclosed hd)
    | _ => exact absurd hd (skipFault?_ne_none (skipFault?_object_some _ _) h)

end

/-! ## values in their texts -/

/-- the text holds one value, which can at least be passed over, and nothing else -/
def IsValue (s : String) : Prop :=
  (Document.ofText s).trailing = false ∧ (Document.ofText s).root.skipFault? = none

instance (s : String) : Decidable (IsValue s) := inferInstanceAs (Decidable (_ ∧ _))

theorem isValue_of_ofText? {s : String} {J : Json} (h : Json.ofText? s = some J) : IsValue s := by
  rw [IsValue, (Json.ofText?_eq_some h).1]
  exact ⟨rfl, Doc.skipFault?_ofJson J⟩

/-- inside a longer text it is read as it is alone -/
theorem IsValue.whole {s : String} (h : IsValue s) :
    Whole atValue (tokens s.toList) (Document.ofText s).root := by
  have hread : atValue [] (tokens s.toList) = ⟨(Document.ofText s).root, false⟩ := by
    rw [← h.1]
    rfl
  exact atValue_extend hread h.2

theorem IsValue.lexes {s : String} (h : IsValue s) {rest : List Char} (hrest : EndsNumeral rest) :
    Lexes (s.toList ++ rest) (tokens s.toList) rest := lexes_extend h.whole.1 hrest

/-! ## objects of texts -/

def memberText (layout : Layout) (m : String × String) : List Char :=
  layout.lineBreak ++ quote m.1 ++ layout.colon ++ m.2.toList

def objectText (layout : Layout) : List (String × String) → List Char
  | [] => ['{', '}']
  | m :: members =>
    '{' :: memberText layout.deeper m ++
      members.flatMap (fun m => ',' :: memberText layout.deeper m) ++ layout.lineBreak ++ ['}']

theorem Layout.colon_deeper (layout : Layout) : layout.deeper.colon = layout.colon := by
  cases layout <;> rfl

/-- a printed object is made of the texts of its values -/
theorem write_object (layout : Layout) (members : List (String × Json)) :
    (Json.object members).write layout =
      objectText layout (members.map fun m => (m.1, String.ofList (m.2.write layout.deeper))) := by
  have hmembers : ∀ ms : List (String × Json), writeMembers layout.deeper ms =
      (ms.map fun m => (m.1, String.ofList (m.2.write layout.deeper))).flatMap
        fun m => ',' :: memberText layout.deeper m := by
    intro ms
    induction ms with
    | nil => rfl
    | cons m ms ih =>
      rw [writeMembers, ih]
      simp [memberText]
  cases members with
  | nil => rfl
  | cons m members =>
    rw [write, hmembers]
    simp [objectText, memberText, layout.colon_deeper]

def memberToken (m : String × String) : List Token :=
  .string (some m.1) :: .colon :: tokens m.2.toList

def objectTokens : List (String × String) → List Token
  | [] => [.openObject, .closeObject]
  | m :: members =>
    .openObject :: memberToken m ++ members.flatMap (fun m => .comma :: memberToken m) ++
      [.closeObject]

def memberDoc (m : String × String) : Key × Doc := (.text m.1, (Document.ofText m.2).root)

section
variable {layout : Layout} {rest : List Char}

theorem lexes_memberText {m : String × String} (h : IsValue m.2) (hrest : EndsNumeral rest) :
    Lexes (memberText layout m ++ rest) (memberToken m) rest := by
  rw [memberText, List.append_assoc, List.append_assoc, List.append_assoc]
  exact lexes_member layout layout m.1 (h.lexes hrest)

theorem endsNumeral_members (members : List (String × String)) (hrest : EndsNumeral rest) :
    EndsNumeral (members.flatMap (fun m => ',' :: memberText layout m) ++ rest) := by
  cases members with
  | nil => exact hrest
  | cons m members => exact endsNumeral_cons (by decide) _

theorem lexes_members {members : List (String × String)} (h : ∀ m ∈ members, IsValue m.2)
    (hrest : EndsNumeral rest) :
    Lexes (members.flatMap (fun m => ',' :: memberText layout m) ++ rest)
      (members.flatMap fun m => .comma :: memberToken m) rest := by
  induction members with
  | nil => exact .refl rest
  | cons m members ih =>
    obtain ⟨hm, hmembers⟩ := List.forall_mem_cons.mp h
    rw [List.flatMap_cons, List.flatMap_cons, List.append_assoc]
    refine Lexes.trans ?_ (ih hmembers)
    refine lexes_single rfl (fun _ => rfl) ?_
    exact lexes_memberText hm (endsNumeral_members members hrest)

theorem lexes_object {members : List (String × String)} (h : ∀ m ∈ members, IsValue m.2) :
    Lexes (objectText layout members ++ rest) (objectTokens members) rest := by
  cases members with
  | nil => exact lexes_single rfl (fun _ => rfl) (lexes_single rfl (fun _ => rfl) (.refl rest))
  | cons m members =>
    obtain ⟨hm, hmembers⟩ := List.forall_mem_cons.mp h
    have hclose : EndsNumeral (layout.lineBreak ++ '}' :: rest) :=
      (endsNumeral_cons (by decide) rest).lineBreak
    rw [objectText, objectTokens]
    simp only [List.append_assoc, List.cons_append, List.nil_append]
    refine lexes_single rfl (fun _ => rfl) ?_
    refine (lexes_memberText hm (endsNumeral_members members hclose)).trans ?_
    refine (lexes_members hmembers hclose).trans ((lexes_lineBreak _ _).trans ?_)
    exact lexes_single rfl (fun _ => rfl) (.refl rest)

end

theorem afterValue_members {members : List (String × String)} (h : ∀ m ∈ members, IsValue m.2)
    (d : Doc) (key : Key) (read : List (Key × Doc)) (up : List Frame) (ts : List Token) :
    afterValue d (.object read key :: up)
        (members.flatMap (fun m => .comma :: memberToken m) ++ .closeObject :: ts) =
      afterValue (.object (((key, d) :: read).reverse ++ members.map memberDoc) none) up ts := by
  induction members generalizing d key read with
  | nil =>
    rw [List.map_nil, List.append_nil]
    rfl
  | cons m members ih =>
    obtain ⟨hm, hmembers⟩ := List.forall_mem_cons.mp h
    have hcomma : afterValue d (.object read key :: up)
        ((m :: members).flatMap (fun m => .comma :: memberToken m) ++ .closeObject :: ts) =
        atValue (.object ((key, d) :: read) (.text m.1) :: up) (tokens m.2.toList ++
          (members.flatMap (fun m => .comma :: memberToken m) ++ .closeObject :: ts)) := by
      rw [List.flatMap_cons, List.append_assoc]
      rfl
    rw [hcomma, hm.whole.2, ih hmembers, List.reverse_cons, List.append_assoc, List.map_cons]
    rfl

theorem atValue_objectTokens {members : List (String × String)} (h : ∀ m ∈ members, IsValue m.2)
    (up : List Frame) (ts : List Token) : atValue up (objectTokens members ++ ts) =
      afterValue (.object (members.map memberDoc) none) up ts := by
  cases members with
  | nil => rfl
  | cons m members =>
    obtain ⟨hm, hmembers⟩ := List.forall_mem_cons.mp h
    have hopen : atValue up (objectTokens (m :: members) ++ ts) =
        atValue (.object [] (.text m.1) :: up) (tokens m.2.toList ++
          (members.flatMap (fun m => .comma :: memberToken m) ++ .closeObject :: ts)) := by
      rw [objectTokens, List.append_assoc, List.append_assoc]
      rfl
    rw [hopen, hm.whole.2, afterValue_members hmembers]
    rfl

/-- an object is read member by member, each value as it is read alone -/
theorem Document.ofText_objectText {members : List (String × String)}
    (h : ∀ m ∈ members, IsValue m.2) (layout : Layout) {blanks : List Char}
    (hblanks : ∀ c ∈ blanks, isSpace c = true) :
    Document.ofText (String.ofList (objectText layout members ++ blanks)) =
      ⟨.object (members.map memberDoc) none, false⟩ := by
  have hend : Lexes blanks [] [] := by
    have hlexes := lexes_blanks hblanks []
    rwa [List.append_nil] at hlexes
  have htokens : tokens (objectText layout members ++ blanks) = objectTokens members := by
    have hobject : Lexes (objectText layout members ++ blanks) (objectTokens members) blanks :=
      lexes_object h
    have hlexes := hobject.trans hend
    rw [List.append_nil] at hlexes
    exact hlexes.tokens_eq
  have hread := atValue_objectTokens h [] []
  rw [List.append_nil] at hread
  rw [Document.ofText, String.toList_ofList, htokens, hread]
  rfl

end FilterSql.Json
