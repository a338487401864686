import FilterSql.Json.Doc
import FilterSql.Proofs.Literal

/-!
# Reading printed values back

A value without floats is read back from its text, in every layout: its text is cut into its tokens
(`lexes_write`), and from its tokens its document is built (`atValue_toTokens`).  So the text of a value
that is not too deep is well-formed and holds that value (`Json.ofText?_write`).
-/

namespace FilterSql.Json

/-! ## cutting a text into tokens -/

/-- the text is cut into these tokens up to where `rest` starts -/
def Lexes (cs : List Char) (ts : List Token) (rest : List Char) : Prop :=
  ∀ fuel, cs.length ≤ fuel →
    ∃ fuel', rest.length ≤ fuel' ∧ tokensWithin fuel cs = ts ++ tokensWithin fuel' rest

theorem Lexes.refl (cs : List Char) : Lexes cs [] cs := fun fuel h => ⟨fuel, h, rfl⟩

theorem Lexes.trans {cs mid rest : List Char} {ts us : List Token} (h : Lexes cs ts mid)
    (h' : Lexes mid us rest) : Lexes cs (ts ++ us) rest := by
  intro fuel hfuel
  obtain ⟨fuel₁, hfuel₁, hts⟩ := h fuel hfuel
  obtain ⟨fuel₂, hfuel₂, hus⟩ := h' fuel₁ hfuel₁
  refine ⟨fuel₂, hfuel₂, ?_⟩
  rw [hts, hus, List.append_assoc]

theorem lexes_token {c : Char} {cs rest : List Char} {t : Token} (hspace : isSpace c = false)
    (htoken : token c cs = (t, rest)) (hlength : rest.length ≤ cs.length) :
    Lexes (c :: cs) [t] rest := by
  intro fuel hfuel
  cases fuel with
  | zero => cases hfuel
  | succ fuel =>
    refine ⟨fuel, Nat.le_trans hlength (Nat.le_of_succ_le_succ hfuel), ?_⟩
    rw [tokensWithin, hspace, htoken]
    rfl

theorem lexes_space {c : Char} (hspace : isSpace c = true) (cs : List Char) :
    Lexes (c :: cs) [] cs := by
  intro fuel hfuel
  cases fuel with
  | zero => cases hfuel
  | succ fuel =>
    refine ⟨fuel, Nat.le_of_succ_le_succ hfuel, ?_⟩
    rw [tokensWithin, hspace]
    rfl

theorem lexes_blanks {blanks : List Char} (h : ∀ c ∈ blanks, isSpace c = true)
    (rest : List Char) : Lexes (blanks ++ rest) [] rest := by
  induction blanks with
  | nil => exact .refl rest
  | cons c blanks ih =>
    obtain ⟨hc, hblanks⟩ := List.forall_mem_cons.mp h
    exact (lexes_space hc _).trans (ih hblanks)

theorem Lexes.tokens_eq {cs : List Char} {ts : List Token} (h : Lexes cs ts []) :
    tokens cs = ts := by
  obtain ⟨fuel, -, hts⟩ := h cs.length (Nat.le_refl _)
  have hnil : tokensWithin fuel [] = [] := by cases fuel <;> rfl
  rw [tokens, hts, hnil, List.append_nil]

/-! ## layout -/

section
variable (layout : Layout) (rest : List Char)

theorem lexes_lineBreak : Lexes (layout.lineBreak ++ rest) [] rest := by
  refine lexes_blanks (fun c hc => ?_) rest
  cases layout with
  | compact => cases hc
  | pretty level =>
    rcases List.mem_cons.mp hc with rfl | hc
    · rfl
    · rw [List.eq_of_mem_replicate hc]
      rfl

theorem lexes_colon : Lexes (layout.colon ++ rest) [.colon] rest := by
  have hcolon : ∀ cs, Lexes (':' :: cs) [.colon] cs := fun cs =>
    lexes_token rfl rfl (Nat.le_refl _)
  cases layout with
  | compact => exact hcolon rest
  | pretty level => exact (hcolon _).trans (lexes_space rfl rest)

end

theorem endsNumeral_cons {c : Char} (h : c ∈ [',', '\n', ']', '}']) (rest : List Char) :
    EndsNumeral (c :: rest) := by
  intro d hd
  cases hd
  simp only [List.mem_cons, List.not_mem_nil, or_false] at h
  rcases h with rfl | rfl | rfl | rfl <;> decide

section
variable {layout : Layout} {rest : List Char} (h : EndsNumeral rest)
include h

theorem EndsNumeral.lineBreak : EndsNumeral (layout.lineBreak ++ rest) := by
  cases layout with
  | compact => exact h
  | pretty level => exact endsNumeral_cons (by decide) _

theorem EndsNumeral.writeItems (items : List Json) :
    EndsNumeral (Json.writeItems layout items ++ rest) := by
  cases items with
  | nil => exact h
  | cons item items => exact endsNumeral_cons (by decide) _

theorem EndsNumeral.writeMembers (members : List (String × Json)) :
    EndsNumeral (Json.writeMembers layout members ++ rest) := by
  cases members with
  | nil => exact h
  | cons member members => exact endsNumeral_cons (by decide) _

end

/-! ## scalars -/

theorem lexes_quote (s : String) (rest : List Char) :
    Lexes (quote s ++ rest) [.string (some s)] rest := by
  have hquote : quote s ++ rest = '"' :: (s.toList.flatMap escape ++ '"' :: rest) := by
    rw [quote, List.append_assoc]
    rfl
  rw [hquote]
  refine lexes_token rfl (stringToken_quote s rest) ?_
  rw [List.length_append, List.length_cons]
  omega

theorem lexes_int {n : Int} (hn : IsWhole n) {rest : List Char} (hrest : EndsNumeral rest) :
    Lexes ((toString n).toList ++ rest) [.number (some (.int n))] rest := by
  rw [toList_toString_int]
  by_cases hneg : n < 0
  · have habs : -(n.natAbs : Int) = n := by omega
    have hread := numberToken_negative n.natAbs hrest (by omega) (by rw [habs]; exact hn.1)
    rw [habs] at hread
    rw [if_pos hneg, List.cons_append]
    refine lexes_token rfl hread ?_
    rw [List.length_append]
    omega
  · have habs : (n.natAbs : Int) = n := by omega
    have hread := numberToken_natural n.natAbs hrest (by have := hn.2; omega)
    rw [habs] at hread
    rw [if_neg hneg]
    obtain ⟨c, cs, hcs⟩ := List.exists_cons_of_ne_nil
      (Nat.toDigits_ne_nil (n := n.natAbs) (b := 10))
    have hdigit : c.isDigit = true := Nat.isDigit_of_mem_toDigits (by decide) (by decide)
      (hcs ▸ List.mem_cons_self : c ∈ Nat.toDigits 10 n.natAbs)
    rw [hcs, List.cons_append] at hread ⊢
    refine lexes_token (isSpace_of_isDigit hdigit) ((token_of_isDigit hdigit _).trans hread) ?_
    rw [List.length_append]
    omega

/-! ## values -/

mutual

def toTokens : Json → List Token
  | .null => [.null]
  | .bool b => [.bool b]
  | .int n => [.number (some (.int n))]
  | .float x => [.number (some (.float x))]
  | .string s => [.string (some s)]
  | .array [] => [.openArray, .closeArray]
  | .array (item :: items) => .openArray :: (item.toTokens ++ (itemTokens items ++ [.closeArray]))
  | .object [] => [.openObject, .closeObject]
  | .object ((key, value) :: members) =>
    .openObject :: .string (some key) :: .colon ::
      (value.toTokens ++ (memberTokens members ++ [.closeObject]))

def itemTokens : List Json → List Token
  | [] => []
  | item :: items => .comma :: (item.toTokens ++ itemTokens items)

def memberTokens : List (String × Json) → List Token
  | [] => []
  | (key, value) :: members =>
    .comma :: .string (some key) :: .colon :: (value.toTokens ++ memberTokens members)

end

mutual

/-- no floats, and no whole numbers of more than 64 bits -/
def isExact : Json → Bool
  | .null => true
  | .bool _ => true
  | .int n => decide (IsWhole n)
  | .float _ => false
  | .string _ => true
  | .array items => itemsExact items
  | .object members => membersExact members

def itemsExact : List Json → Bool
  | [] => true
  | item :: items => item.isExact && itemsExact items

def membersExact : List (String × Json) → Bool
  | [] => true
  | (_, value) :: members => value.isExact && membersExact members

end

theorem isExact_int {n : Int} (h : IsWhole n) : (Json.int n).isExact = true := decide_eq_true h

theorem itemsExact_eq_true {items : List Json} :
    itemsExact items = true ↔ ∀ item ∈ items, item.isExact = true := by
  induction items with
  | nil => exact iff_of_true rfl (List.forall_mem_nil _)
  | cons item items ih => rw [itemsExact, Bool.and_eq_true, ih, List.forall_mem_cons]

theorem membersExact_eq_true {members : List (String × Json)} :
    membersExact members = true ↔ ∀ m ∈ members, m.2.isExact = true := by
  induction members with
  | nil => exact iff_of_true rfl (List.forall_mem_nil _)
  | cons m members ih => rw [membersExact, Bool.and_eq_true, ih, List.forall_mem_cons]

/-- a bracket, a comma or a colon is a token by itself -/
theorem lexes_single {c : Char} {t : Token} (hspace : isSpace c = false)
    (htoken : ∀ cs, token c cs = (t, cs)) {cs rest : List Char} {ts : List Token}
    (h : Lexes cs ts rest) : Lexes (c :: cs) (t :: ts) rest :=
  (lexes_token hspace (htoken cs) (Nat.le_refl _)).trans h

/-- a member is its key, a colon and what its value is cut into -/
theorem lexes_member (layout layout' : Layout) (key : String) {cs rest : List Char} {ts : List Token}
    (h : Lexes cs ts rest) : Lexes (layout.lineBreak ++ (quote key ++ (layout'.colon ++ cs)))
      (.string (some key) :: .colon :: ts) rest :=
  (lexes_lineBreak _ _).trans ((lexes_quote _ _).trans ((lexes_colon _ _).trans h))

-- The recursion is on the value; the text behind it stays general, as an item is followed by the rest of
-- its array.
mutual

theorem lexes_write : ∀ {J : Json}, J.isExact = true → ∀ (layout : Layout) {rest : List Char},
    EndsNumeral rest → Lexes (J.write layout ++ rest) J.toTokens rest
  | .null, _, _, rest, _ => by
    show Lexes ('n' :: 'u' :: 'l' :: 'l' :: rest) _ rest
    exact lexes_token rfl rfl (Nat.le_add_right _ 3)
  | .bool true, _, _, rest, _ => by
    show Lexes ('t' :: 'r' :: 'u' :: 'e' :: rest) _ rest
    exact lexes_token rfl rfl (Nat.le_add_right _ 3)
  | .bool false, _, _, rest, _ => by
    show Lexes ('f' :: 'a' :: 'l' :: 's' :: 'e' :: rest) _ rest
    exact lexes_token rfl rfl (Nat.le_add_right _ 4)
  | .int n, h, _, rest, hrest => lexes_int (of_decide_eq_true h) hrest
  | .float _, h, _, _, _ => by cases h
  | .string s, _, _, rest, _ => lexes_quote s rest
  | .array [], _, _, rest, _ =>
    lexes_single rfl (fun _ => rfl) (lexes_single rfl (fun _ => rfl) (.refl rest))
  | .array (item :: items), h, layout, rest, _ => by
    obtain ⟨hitem, hitems⟩ := (Bool.and_eq_true _ _).mp h
    have hclose : EndsNumeral (layout.lineBreak ++ ']' :: rest) :=
      (endsNumeral_cons (by decide) rest).lineBreak
    rw [write, toTokens]
    simp only [List.append_assoc, List.cons_append, List.nil_append]
    refine lexes_single rfl (fun _ => rfl) ((lexes_lineBreak _ _).trans ?_)
    refine (lexes_write hitem layout.deeper (hclose.writeItems items)).trans ?_
    refine (lexes_writeItems hitems layout.deeper hclose).trans ((lexes_lineBreak _ _).trans ?_)
    exact lexes_single rfl (fun _ => rfl) (.refl rest)
  | .object [], _, _, rest, _ =>
    lexes_single rfl (fun _ => rfl) (lexes_single rfl (fun _ => rfl) (.refl rest))
  | .object ((key, value) :: members), h, layout, rest, _ => by
    obtain ⟨hvalue, hmembers⟩ := (Bool.and_eq_true _ _).mp h
    have hclose : EndsNumeral (layout.lineBreak ++ '}' :: rest) :=
      (endsNumeral_cons (by decide) rest).lineBreak
    rw [write, toTokens]
    simp only [List.append_assoc, List.cons_append, List.nil_append]
    refine lexes_single rfl (fun _ => rfl) (lexes_member _ _ _ ?_)
    refine (lexes_write hvalue layout.deeper (hclose.writeMembers members)).trans ?_
    refine (lexes_writeMembers hmembers layout.deeper hclose).trans ((lexes_lineBreak _ _).trans ?_)
    exact lexes_single rfl (fun _ => rfl) (.refl rest)

theorem lexes_writeItems : ∀ {items : List Json}, itemsExact items = true →
    ∀ (layout : Layout) {rest : List Char}, EndsNumeral rest →
      Lexes (writeItems layout items ++ rest) (itemTokens items) rest
  | [], _, _, rest, _ => .refl rest
  | item :: items, h, layout, rest, hrest => by
    obtain ⟨hitem, hitems⟩ := (Bool.and_eq_true _ _).mp h
    rw [writeItems, itemTokens]
    simp only [List.append_assoc, List.cons_append]
    refine lexes_single rfl (fun _ => rfl) ((lexes_lineBreak _ _).trans ?_)
    refine (lexes_write hitem layout (hrest.writeItems items)).trans ?_
    exact lexes_writeItems hitems layout hrest

theorem lexes_writeMembers : ∀ {members : List (String × Json)}, membersExact members = true →
    ∀ (layout : Layout) {rest : List Char}, EndsNumeral rest →
      Lexes (writeMembers layout members ++ rest) (memberTokens members) rest
  | [], _, _, rest, _ => .refl rest
  | (key, value) :: members, h, layout, rest, hrest => by
    obtain ⟨hvalue, hmembers⟩ := (Bool.and_eq_true _ _).mp h
    rw [writeMembers, memberTokens]
    simp only [List.append_assoc, List.cons_append]
    refine lexes_single rfl (fun _ => rfl) (lexes_member _ _ _ ?_)
    refine (lexes_write hvalue layout (hrest.writeMembers members)).trans ?_
    exact lexes_writeMembers hmembers layout hrest

end

/-! ## documents -/

theorem toTokens_eq_cons (J : Json) : ∃ t ts, J.toTokens = t :: ts ∧ t ≠ .closeArray := by
  cases J with
  | array items => cases items <;> exact ⟨_, _, rfl, Token.noConfusion⟩
  | object members => cases members <;> exact ⟨_, _, rfl, Token.noConfusion⟩
  | _ => exact ⟨_, _, rfl, Token.noConfusion⟩

/-- a bracket that is not closed at once opens an array with a first item -/
theorem atValue_openArray {t : Token} (ht : t ≠ .closeArray) (up : List Frame) (ts : List Token) :
    atValue up (.openArray :: t :: ts) = atValue (.array [] :: up) (t :: ts) := by
  cases t <;> first | rfl | exact absurd rfl ht

mutual

/-- the tokens of a value are read as its document, whatever is open around it -/
theorem atValue_toTokens : ∀ (J : Json) (up : List Frame) (ts : List Token),
    atValue up (J.toTokens ++ ts) = afterValue (.ofJson J) up ts
  | .null, _, _ | .bool _, _, _ | .int _, _, _ | .float _, _, _ | .string _, _, _
  | .array [], _, _ | .object [], _, _ => rfl
  | .array (item :: items), up, ts => by
    obtain ⟨t, us, htokens, ht⟩ := item.toTokens_eq_cons
    have hopen : atValue up (Json.toTokens (.array (item :: items)) ++ ts) =
        atValue (.array [] :: up) (item.toTokens ++ (itemTokens items ++ .closeArray :: ts)) := by
      rw [toTokens, List.cons_append, List.append_assoc, List.append_assoc, htokens]
      exact atValue_openArray ht up _
    rw [hopen, atValue_toTokens item, afterValue_itemTokens]
    rfl
  | .object ((key, value) :: members), up, ts => by
    have hopen : atValue up (Json.toTokens (.object ((key, value) :: members)) ++ ts) =
        atValue (.object [] (.text key) :: up)
          (value.toTokens ++ (memberTokens members ++ .closeObject :: ts)) := by
      rw [toTokens, List.cons_append, List.cons_append, List.cons_append, List.append_assoc,
        List.append_assoc]
      rfl
    rw [hopen, atValue_toTokens value, afterValue_memberTokens]
    rfl

theorem afterValue_itemTokens : ∀ (items : List Json) (d : Doc) (read : List Doc)
    (up : List Frame) (ts : List Token),
    afterValue d (.array read :: up) (itemTokens items ++ .closeArray :: ts) =
      afterValue (.array ((d :: read).reverse ++ itemsOfJson items) none) up ts
  | [], d, read, up, ts => by
    rw [itemTokens, itemsOfJson, List.append_nil]
    rfl
  | item :: items, d, read, up, ts => by
    have hcomma : afterValue d (.array read :: up) (itemTokens (item :: items) ++ .closeArray :: ts) =
        atValue (.array (d :: read) :: up)
          (item.toTokens ++ (itemTokens items ++ .closeArray :: ts)) := by
      rw [itemTokens, List.cons_append, List.append_assoc]
      rfl
    rw [hcomma, atValue_toTokens item, afterValue_itemTokens, itemsOfJson, List.reverse_cons,
      List.append_assoc]
    rfl

theorem afterValue_memberTokens : ∀ (members : List (String × Json)) (d : Doc) (key : Key)
    (read : List (Key × Doc)) (up : List Frame) (ts : List Token),
    afterValue d (.object read key :: up) (memberTokens members ++ .closeObject :: ts) =
      afterValue (.object (((key, d) :: read).reverse ++ membersOfJson members) none) up ts
  | [], d, key, read, up, ts => by
    rw [memberTokens, membersOfJson, List.append_nil]
    rfl
  | (name, value) :: members, d, key, read, up, ts => by
    have hcomma : afterValue d (.object read key :: up)
        (memberTokens ((name, value) :: members) ++ .closeObject :: ts) =
        atValue (.object ((key, d) :: read) (.text name) :: up)
          (value.toTokens ++ (memberTokens members ++ .closeObject :: ts)) := by
      rw [memberTokens, List.cons_append, List.cons_append, List.cons_append, List.append_assoc]
      rfl
    rw [hcomma, atValue_toTokens value, afterValue_memberTokens, membersOfJson, List.reverse_cons,
      List.append_assoc]
    rfl

end

mutual

theorem Doc.json?_ofJson : ∀ J : Json, (Doc.ofJson J).json? = some J
  | .null | .bool _ | .int _ | .float _ | .string _ => rfl
  | .array items => by
    rw [Doc.ofJson, Doc.json?, itemsJson?_itemsOfJson]
    rfl
  | .object members => by
    rw [Doc.ofJson, Doc.json?, membersJson?_membersOfJson]
    rfl

theorem itemsJson?_itemsOfJson : ∀ items : List Json, itemsJson? (itemsOfJson items) = some items
  | [] => rfl
  | item :: items => by
    rw [itemsOfJson, itemsJson?, Doc.json?_ofJson, itemsJson?_itemsOfJson]
    rfl

theorem membersJson?_membersOfJson : ∀ members : List (String × Json),
    membersJson? (membersOfJson members) = some members
  | [] => rfl
  | (key, value) :: members => by
    rw [membersOfJson, membersJson?, Doc.json?_ofJson, membersJson?_membersOfJson]
    rfl

end

/-! ## texts -/

theorem Document.ofText_write {J : Json} (h : J.isExact = true) (layout : Layout) :
    Document.ofText (String.ofList (J.write layout)) = ⟨.ofJson J, false⟩ := by
  have hends : EndsNumeral [] := fun c hc => by cases hc
  have htokens : tokens (J.write layout) = J.toTokens := by
    have hlexes := lexes_write h layout hends
    rw [List.append_nil] at hlexes
    exact hlexes.tokens_eq
  have hread := atValue_toTokens J [] []
  rw [List.append_nil] at hread
  rw [Document.ofText, String.toList_ofList, htokens, hread]
  rfl

end Json

/-- the text of a value that is not too deep is well-formed and holds that value -/
theorem Json.ofText?_write {J : Json} (hexact : J.isExact = true)
    (hfault : (Json.Doc.ofJson J).fault? 0 = none) (layout : Json.Layout) :
    Json.ofText? (String.ofList (J.write layout)) = some J := by
  rw [Json.ofText?, Json.Document.ofText_write hexact, hfault]
  exact Json.Doc.json?_ofJson J

end FilterSql
