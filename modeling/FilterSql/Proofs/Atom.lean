import FilterSql.Proofs.Spelling

/-!
# Tests as tokens

If its names are plain, the clause of a constraint spells the tokens of its test
(`Constraint.spells`), and from these tokens the test is read back, whatever follows
(`Atom.read?_tokens`).
-/

namespace FilterSql

/-! ## the tokens of a test -/

def Column.tokens (c : Column) : List Token :=
  match c.collection with
  | some collection => [.name collection, .dot, .name c.field]
  | none => [.name c.field]

def Column.expressionTokens (c : Column) (fold : Bool) : List Token :=
  if fold then .keyword .lower :: .open :: (c.tokens ++ [.close]) else c.tokens

def Operand.tokens (o : Operand) : List Token :=
  if o.folded then [.keyword .lower, .open, .value o.value, .close] else [.value o.value]

def Test.tokens : Test → List Token
  | .isNull negated =>
    if negated then [.keyword .is, .keyword .not, .keyword .null] else [.keyword .is, .keyword .null]
  | .compare c o => .comparison c :: o.tokens
  | .like o => .keyword .like :: o.tokens
  | .member negated os =>
    (if negated then [.keyword .not, .keyword .member] else [.keyword .member]) ++
      .open :: (Token.join .comma (os.map Operand.tokens) ++ [.close])
  | .between lo hi => .keyword .between :: (lo.tokens ++ .keyword .and :: hi.tokens)

def Atom.tokens : Atom → List Token
  | .never => [.name "1", .comparison .eq, .name "0"]
  | .test column fold what => column.expressionTokens fold ++ what.tokens

/-! ## plain names -/

/-- name characters only, and no keyword -/
structure IsPlain (s : String) : Prop where
  ne : s ≠ ""
  all : s.toList.all isNameChar
  ofWord? : Keyword.ofWord? s.toList = none

instance (s : String) : Decidable (IsPlain s) :=
  decidable_of_iff (s ≠ "" ∧ s.toList.all isNameChar ∧ Keyword.ofWord? s.toList = none)
    ⟨fun ⟨hne, hall, hword⟩ => ⟨hne, hall, hword⟩, fun h => ⟨h.ne, h.all, h.ofWord?⟩⟩

theorem IsPlain.isNameChar {s : String} (hs : IsPlain s) : ∀ c ∈ s.toList, isNameChar c :=
  List.all_eq_true.mp hs.all

structure Column.Plain (c : Column) : Prop where
  field : IsPlain c.field
  collection : ∀ s ∈ c.collection, IsPlain s

instance (c : Column) : Decidable c.Plain :=
  decidable_of_iff (IsPlain c.field ∧ ∀ s ∈ c.collection, IsPlain s)
    ⟨fun ⟨hfield, hcollection⟩ => ⟨hfield, hcollection⟩, fun h => ⟨h.field, h.collection⟩⟩

def Constraint.collection? : Constraint → Option String
  | .field f => f.collection
  | _ => none

/-- all names of a filter are plain -/
def Filter.Plain (f : Filter) : Prop :=
  ∀ x ∈ Filter.fields f, Column.Plain ⟨x.1, x.2.collection?⟩

instance (f : Filter) : Decidable f.Plain :=
  inferInstanceAs (Decidable (∀ x ∈ Filter.fields f, Column.Plain ⟨x.1, x.2.collection?⟩))

section
variable {params : List Param} {next : Nat} {rest : List Char} {ts : List Token}

theorem scan_name {s : String} (hs : IsPlain s) (hrest : Stops rest)
    (h : scan params next rest = some ts) :
    scan params next (s.toList ++ rest) = some (.name s :: ts) := by
  have hne : s.toList ≠ [] := fun hnil => hs.ne (String.toList_inj.mp hnil)
  have hword : Token.ofWord s.toList = .name s := by
    rw [Token.ofWord, hs.ofWord?, String.ofList_toList]
  rw [scan_word hne hs.isNameChar hrest h, hword]

theorem scan_column {c : Column} (hc : c.Plain) (hrest : Stops rest)
    (h : scan params next rest = some ts) :
    scan params next (c.text.toList ++ rest) = some (c.tokens ++ ts) := by
  obtain ⟨field, collection⟩ := c
  have hfield := scan_name hc.field hrest h
  cases collection with
  | none => exact hfield
  | some s =>
    have hdot : scan params next ('.' :: (field.toList ++ rest)) =
        some (.dot :: .name field :: ts) := by
      show (scan params next (field.toList ++ rest)).map _ = _
      rw [hfield]
      rfl
    have hall := scan_name (hc.collection s rfl) (stops_cons (by decide)) hdot
    show scan params next ((s ++ "." ++ field).toList ++ rest) = _
    rw [String.toList_append, String.toList_append, List.append_assoc, List.append_assoc]
    exact hall

end

theorem Column.Plain.bare {c : Column} (hc : c.Plain) : Bare c.text.toList :=
  c.bare_text (bare_of_isNameChar hc.field.isNameChar) fun s hs =>
    bare_of_isNameChar (hc.collection s hs).isNameChar

section
variable {params : List Param} {next : Nat} {rest : List Char} {ts : List Token}

theorem scan_expression {c : Column} (hc : c.Plain) (fold : Bool) (hrest : Stops rest)
    (h : scan params next rest = some ts) :
    scan params next ((c.expression fold).toList ++ rest) = some (c.expressionTokens fold ++ ts) := by
  cases fold with
  | false => exact scan_column hc hrest h
  | true =>
    have hclose : scan params next (')' :: rest) = some (.close :: ts) := by
      show (scan params next rest).map _ = _
      rw [h]
      rfl
    have hcolumn := scan_column hc (stops_cons (by decide)) hclose
    have hlower := readsAs_lower params next _ _ hcolumn
    have htext : (c.expression true).toList ++ rest =
        "LOWER(".toList ++ (c.text.toList ++ ')' :: rest) := by
      show (lower c.text).toList ++ rest = _
      rw [lower_of_bare hc.bare, String.toList_append, String.toList_append, List.append_assoc,
        List.append_assoc]
      rfl
    rw [htext, hlower, Column.expressionTokens, if_pos rfl]
    simp only [List.cons_append, List.nil_append, List.append_assoc]

end

/-! ## openings -/

theorem readsAs_opening {c : Column} (hc : c.Plain) (fold : Bool) {keyword : String}
    {ts : List Token} (hkeyword : ReadsAs (" " ++ keyword ++ " ") ts) :
    ReadsAs (Clause.opening c fold keyword) (c.expressionTokens fold ++ ts) := by
  intro params next rest us h
  have hbehind := hkeyword params next rest us h
  have hstops : Stops ((" " ++ keyword ++ " ").toList ++ rest) := by
    rw [String.toList_append, String.toList_append]
    exact stops_cons (by decide)
  have hall := scan_expression hc fold hstops hbehind
  have htext : Clause.opening c fold keyword = c.expression fold ++ (" " ++ keyword ++ " ") := by
    simp only [Clause.opening, String.append_assoc]
  rw [htext, String.toList_append, List.append_assoc, List.append_assoc]
  exact hall

theorem readsAs_comparison (op : Comparison) :
    ReadsAs (" " ++ op.keyword ++ " ") [.comparison op] := by
  refine readsAs_of_map fun params next rest => ?_
  rw [String.toList_append, String.toList_append]
  cases op <;> rfl

theorem readsAs_like : ReadsAs (" " ++ "LIKE" ++ " ") [.keyword .like] := by
  refine readsAs_of_map fun params next rest => ?_
  rw [String.toList_append, String.toList_append]
  rfl

theorem readsAs_between : ReadsAs (" " ++ "BETWEEN" ++ " ") [.keyword .between] := by
  refine readsAs_of_map fun params next rest => ?_
  rw [String.toList_append, String.toList_append]
  rfl

theorem readsAs_member (negated : Bool) :
    ReadsAs (" " ++ (if negated then "NOT IN" else "IN") ++ " ")
      (if negated then [.keyword .not, .keyword .member] else [.keyword .member]) := by
  cases negated with
  | false =>
    refine readsAs_of_map fun params next rest => ?_
    rw [String.toList_append, String.toList_append]
    rfl
  | true =>
    refine readsAs_of_map_map fun params next rest => ?_
    rw [String.toList_append, String.toList_append]
    rfl

/-! ## clauses -/

theorem spells_never : Spells [.text "1 = 0"] Atom.never.tokens := by
  intro style params next rest us _ hrest h
  have hzero := scan_word (List.cons_ne_nil '0' []) (List.all_eq_true.mp rfl) hrest h
  have htext : (Fragment.textFrom style next [.text "1 = 0"]).toList = ['1', ' ', '=', ' ', '0'] := by
    rw [Fragment.textFrom, Fragment.textFrom, String.append_empty]
    rfl
  rw [htext]
  show ((scan params next (['0'] ++ rest)).map _).map _ = _
  exact congrArg (fun x => (Option.map _ x).map _) hzero

theorem spells_column {c : Column} (hc : c.Plain) {s : String} {ts : List Token}
    (hs : ∀ params next rest us, Stops rest → scan params next rest = some us →
      scan params next (' ' :: (s.toList ++ rest)) = some (ts ++ us)) :
    Spells [.text (c.text ++ (" " ++ s))] (c.tokens ++ ts) := by
  intro style params next rest us _ hrest h
  have hall := scan_column hc (stops_cons (by decide)) (hs params next rest us hrest h)
  have htext : (Fragment.textFrom style next [.text (c.text ++ (" " ++ s))]).toList ++ rest =
      c.text.toList ++ ' ' :: (s.toList ++ rest) := by
    rw [Fragment.textFrom, Fragment.textFrom, String.append_empty, String.toList_append,
      String.toList_append, List.append_assoc]
    rfl
  rw [htext, List.append_assoc]
  exact hall

theorem spells_isNull {c : Column} (hc : c.Plain) (negated : Bool) :
    Spells [.text (c.text ++ if negated then " IS NOT NULL" else " IS NULL")]
      (Atom.test c false (.isNull negated)).tokens := by
  cases negated with
  | false =>
    refine spells_column (s := "IS NULL") hc ?_
    intro params next rest us hrest h
    have hnull := scan_word (List.cons_ne_nil 'N' ['U', 'L', 'L']) (List.all_eq_true.mp rfl) hrest h
    show (scan params next (['N', 'U', 'L', 'L'] ++ rest)).map _ = _
    rw [hnull]
    rfl
  | true =>
    refine spells_column (s := "IS NOT NULL") hc ?_
    intro params next rest us hrest h
    have hnull := scan_word (List.cons_ne_nil 'N' ['U', 'L', 'L']) (List.all_eq_true.mp rfl) hrest h
    show ((scan params next (['N', 'U', 'L', 'L'] ++ rest)).map _).map _ = _
    rw [hnull]
    rfl

theorem spells_operand (column : Column) (fold : Bool) (value : Value) :
    Spells (Clause.operand column fold value) (Operand.of fold value).tokens := by
  unfold Clause.operand Operand.of Operand.tokens
  cases fold && value.isTextual with
  | false => exact spells_hole column.field value
  | true =>
    have hclose := (spells_hole column.field value).append_text separator_close spells_nil
    exact hclose.text_cons readsAs_lower

/-- an operand that is no string is not folded, whatever the clause does -/
theorem Operand.of_congr {fold fold' : Bool} {value : Value}
    (h : value.isTextual = true → fold = fold') : Operand.of fold value = Operand.of fold' value := by
  unfold Operand.of
  cases htextual : value.isTextual with
  | false => rw [Bool.and_false, Bool.and_false]
  | true => rw [h htextual]

theorem spells_member {c : Column} (hc : c.Plain) (fold negated : Bool) (values : List Value) :
    Option.Rel (fun F (a : Atom) => Spells F a.tokens)
      (Clause.array c values negated fold).fragment? (Atom.member? c fold negated values) := by
  cases values with
  | nil =>
    cases negated with
    | false => exact .some spells_never
    | true => exact .none
  | cons value values =>
    have hoperands : List.Forall₂ Spells
        ((value :: values).map (Clause.operand c (fold && (value :: values).any Value.isTextual)))
        (((value :: values).map (Operand.of fold)).map Operand.tokens) := by
      rw [List.map_map]
      refine List.forall₂_map_left_iff.mpr (List.forall₂_map_right_iff.mpr ?_)
      refine List.forall₂_same.mpr fun v hv => ?_
      have hfold : Operand.of fold v =
          Operand.of (fold && (value :: values).any Value.isTextual) v := by
        refine Operand.of_congr fun htextual => ?_
        rw [List.any_eq_true.mpr ⟨v, hv, htextual⟩, Bool.and_true]
      rw [Function.comp_apply, hfold]
      exact spells_operand c _ v
    have hlist := (Spells.join separator_comma hoperands).bracket
    have hall := hlist.text_cons <|
      readsAs_opening hc (fold && (value :: values).any Value.isTextual) (readsAs_member negated)
    refine .some ?_
    rw [List.append_assoc] at hall
    exact hall

theorem spells_compare {c : Column} (hc : c.Plain) (op : Comparison) (fold : Bool) (value : Value) :
    Spells (.text (Clause.opening c (fold && value.isTextual) op.keyword) ::
        Clause.operand c (fold && value.isTextual) value)
      (Atom.test c (fold && value.isTextual) (.compare op (.of fold value))).tokens := by
  have hfold : Operand.of fold value = Operand.of (fold && value.isTextual) value :=
    Operand.of_congr fun htextual => by rw [htextual, Bool.and_true]
  have hall := (spells_operand c (fold && value.isTextual) value).text_cons
    (readsAs_opening hc (fold && value.isTextual) (readsAs_comparison op))
  rw [← hfold, List.append_assoc] at hall
  exact hall

theorem spells_like {c : Column} (hc : c.Plain) (folded : Bool) (s : String) :
    Spells (.text (Clause.opening c folded "LIKE") :: Clause.operand c folded (.string s))
      (Atom.test c folded (.like ⟨.string s, folded⟩)).tokens := by
  have hfold : Operand.of folded (.string s) = ⟨.string s, folded⟩ := by
    unfold Operand.of
    rw [Value.isTextual, Bool.and_true]
  have hall := (spells_operand c folded (.string s)).text_cons
    (readsAs_opening hc folded readsAs_like)
  rw [hfold, List.append_assoc] at hall
  exact hall

theorem spells_between {c : Column} (hc : c.Plain) (fold : Bool) (lo hi : Value) :
    Option.Rel (fun F (a : Atom) => Spells F a.tokens) (Clause.range c lo hi fold).fragment?
      (Operator.atom? c fold (.between lo hi)) := by
  have hlo : Operand.of fold lo = Operand.of (fold && (lo.isTextual || hi.isTextual)) lo :=
    Operand.of_congr fun h => by rw [h, Bool.true_or, Bool.and_true]
  have hhi : Operand.of fold hi = Operand.of (fold && (lo.isTextual || hi.isTextual)) hi :=
    Operand.of_congr fun h => by rw [h, Bool.or_true, Bool.and_true]
  have hoperands := (spells_operand c (fold && (lo.isTextual || hi.isTextual)) lo).append_text
    separator_and (spells_operand c (fold && (lo.isTextual || hi.isTextual)) hi)
  have hall := hoperands.text_cons
    (readsAs_opening hc (fold && (lo.isTextual || hi.isTextual)) readsAs_between)
  rw [← hlo, ← hhi, List.append_assoc] at hall
  exact .some hall

/-- a comparison is a test for null, in the clause and in the meaning alike, or none in both -/
theorem Operator.compare_shape (c : Column) (fold : Bool) (op : Comparison) (value : Value) :
    (∃ negated, Clause.ofOperator c fold (.compare op value) = .null c negated ∧
      atom? c fold (.compare op value) = some (.test c false (.isNull negated))) ∨
    Clause.ofOperator c fold (.compare op value) = .comparison c op value fold ∧
      atom? c fold (.compare op value) =
        some (.test c (fold && value.isTextual) (.compare op (.of fold value))) := by
  by_cases hnull : value = .null
  · subst hnull
    cases op with
    | eq => exact Or.inl ⟨false, rfl, rfl⟩
    | neq => exact Or.inl ⟨true, rfl, rfl⟩
    | _ => exact Or.inr ⟨rfl, rfl⟩
  · refine Or.inr ⟨Clause.ofOperator_compare hnull c fold op, ?_⟩
    cases op <;> cases value <;> first | rfl | exact absurd rfl hnull

theorem Operator.spells {c : Column} (hc : c.Plain) (fold : Bool) (op : Operator) :
    Option.Rel (fun F (a : Atom) => Spells F a.tokens) (Clause.ofOperator c fold op).fragment?
      (op.atom? c fold) := by
  cases op with
  | compare op value =>
    rcases compare_shape c fold op value with ⟨negated, hclause, hatom⟩ | ⟨hclause, hatom⟩
    · rw [hclause, hatom]
      exact .some (spells_isNull hc negated)
    · rw [hclause, hatom]
      exact .some (spells_compare hc op fold value)
  | member negated values => exact spells_member hc fold negated values
  | between lo hi => exact spells_between hc fold lo hi
  | pattern position value =>
    simp only [Clause.ofOperator, Clause.fragment?, Operator.atom?]
    cases value.text? with
    | none => exact .none
    | some s => exact .some (spells_like hc _ _)

/-- a clause on plain names spells the test of its constraint -/
theorem Constraint.spells {name : String} {c : Constraint} (hc : Column.Plain ⟨name, c.collection?⟩) :
    Option.Rel (fun F (a : Atom) => Spells F a.tokens) (c.fragment? name) (c.atom? name) := by
  cases c with
  | scalar value =>
    cases value <;> first | exact .some (spells_isNull hc false) |
      exact .some (spells_compare hc .eq false _)
  | list values => exact spells_member hc false false values
  | field f =>
    obtain ⟨operator, fold, collection⟩ := f
    cases operator with
    | none => exact .none
    | some op => exact op.spells hc fold

/-! ## reading tests back -/

theorem Column.read?_tokens (c : Column) (fold : Bool) {rest : List Token}
    (hrest : ∀ ts, rest ≠ .dot :: ts) :
    Column.read? (c.expressionTokens fold ++ rest) = some (c, fold, rest) := by
  obtain ⟨field, collection⟩ := c
  cases collection with
  | some s => cases fold <;> rfl
  | none =>
    cases fold with
    | true => rfl
    | false =>
      cases rest with
      | nil => rfl
      | cons t rest => cases t <;> first | rfl | exact absurd rfl (hrest rest)

theorem Operand.read?_tokens (o : Operand) (rest : List Token) :
    Operand.read? (o.tokens ++ rest) = some (o, rest) := by
  obtain ⟨value, folded⟩ := o
  cases folded <;> rfl

theorem Operand.readList?_tokens {os : List Operand} (hne : os ≠ []) (rest : List Token) :
    Operand.readList? (Token.join .comma (os.map Operand.tokens) ++ .close :: rest) =
      some (os, rest) := by
  induction os with
  | nil => exact absurd rfl hne
  | cons o os ih =>
    obtain ⟨value, folded⟩ := o
    cases os with
    | nil => cases folded <;> rfl
    | cons p os =>
      have hbehind := ih (List.cons_ne_nil p os)
      cases folded <;>
      · show (Operand.readList? (Token.join .comma ((p :: os).map Operand.tokens) ++ _)).map _ = _
        rw [hbehind]
        rfl

/-- a list of operands has at least one -/
def Test.Proper : Test → Prop
  | .member _ os => os ≠ []
  | _ => True

def Atom.Proper : Atom → Prop
  | .never => True
  | .test _ _ what => what.Proper

theorem Test.read?_tokens {what : Test} (h : what.Proper) (rest : List Token) :
    Test.read? (what.tokens ++ rest) = some (what, rest) := by
  cases what with
  | isNull negated => cases negated <;> rfl
  | compare op o =>
    show (Operand.read? (o.tokens ++ rest)).map _ = _
    rw [o.read?_tokens]
    rfl
  | like o =>
    show (Operand.read? (o.tokens ++ rest)).map _ = _
    rw [o.read?_tokens]
    rfl
  | member negated os =>
    have hlist := Operand.readList?_tokens h rest
    have hassoc : Token.join .comma (os.map Operand.tokens) ++ [.close] ++ rest =
        Token.join .comma (os.map Operand.tokens) ++ .close :: rest := List.append_assoc ..
    cases negated <;>
    · show (Operand.readList?
        (Token.join .comma (os.map Operand.tokens) ++ [.close] ++ rest)).map _ = _
      rw [hassoc, hlist]
      rfl
  | between lo hi =>
    have hassoc : (lo.tokens ++ .keyword .and :: hi.tokens) ++ rest =
        lo.tokens ++ (.keyword .and :: (hi.tokens ++ rest)) := List.append_assoc ..
    show Test.read? (.keyword .between :: ((lo.tokens ++ .keyword .and :: hi.tokens) ++ rest)) = _
    rw [hassoc, Test.read?, lo.read?_tokens]
    show (Operand.read? (hi.tokens ++ rest)).map _ = _
    rw [hi.read?_tokens]
    rfl

theorem Atom.read?_tokens {a : Atom} (h : a.Proper) (rest : List Token) :
    Atom.read? (a.tokens ++ rest) = some (a, rest) := by
  cases a with
  | never => rfl
  | test c fold what =>
    have hdot : ∀ ts, what.tokens ++ rest ≠ .dot :: ts := by
      cases what with
      | isNull negated => cases negated <;> exact fun ts heq => by cases heq
      | member negated os => cases negated <;> exact fun ts heq => by cases heq
      | _ => exact fun ts heq => by cases heq
    have hnever : ∀ s ts, what.tokens ++ rest ≠ .comparison .eq :: .name s :: ts := by
      cases what with
      | isNull negated => cases negated <;> exact fun s ts heq => by cases heq
      | member negated os => cases negated <;> exact fun s ts heq => by cases heq
      | compare op o =>
        obtain ⟨value, folded⟩ := o
        cases folded <;> exact fun s ts heq => by cases heq
      | _ => exact fun s ts heq => by cases heq
    have hwhat := Test.read?_tokens h rest
    show Atom.read? (c.expressionTokens fold ++ what.tokens ++ rest) = _
    rw [List.append_assoc, Atom.read?, c.read?_tokens fold hdot]
    split
    · rename_i heq
      cases heq
    · rename_i heq
      simp only [Option.some.injEq, Prod.mk.injEq] at heq
      exact absurd heq.2.2 (hnever _ _)
    · rename_i heq
      simp only [Option.some.injEq, Prod.mk.injEq] at heq
      obtain ⟨rfl, rfl, rfl⟩ := heq
      rw [hwhat]
      rfl

end FilterSql
