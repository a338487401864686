import FilterSql.Proofs.Parameter

/-!
# Case folding

Whether an operator folds case decides nothing but where `LOWER(...)` stands.  `Operator.clause?` is the
clause of an operator around any expression for its column and any texts for the places of its operands.
Without folding these are the column and the placeholders; with it the column goes through `lower` if one
operand is a string, and the placeholders of the strings are wrapped, no others
(`Constraint.run_bind_caseInsensitive`).
-/

namespace FilterSql

/-! ## the clause of an operator -/

namespace Operator

/-- the operator constrains nothing: it excludes no values, or has no text to look for -/
def isSilent : Operator → Bool
  | .member true [] => true
  | .pattern _ value => value.text?.isNone
  | _ => false

/-- the places of the operands behind the keyword of an operator -/
def listed (places : List String) : Operator → String
  | .member _ _ => "(" ++ ", ".intercalate places ++ ")"
  | .between _ _ => " AND ".intercalate places
  | _ => "".intercalate places

/-- an operator between the expression of a column and the places of its operands -/
def written (expression : String) (places : List String) : Operator → String
  | .compare .eq .null => expression ++ " IS NULL"
  | .compare .neq .null => expression ++ " IS NOT NULL"
  | .member _ [] => "1 = 0"
  | op => expression ++ " " ++ op.keyword ++ " " ++ op.listed places

def clause? (expression : String) (places : List String) (op : Operator) : Option String :=
  if op.isSilent then none else some (op.written expression places)

theorem clause?_of_not_silent {expression : String} {places : List String} (op : Operator)
    (h : op.isSilent = false) : op.clause? expression places = some (op.written expression places) := by
  rw [clause?, h]
  rfl

theorem clause?_compare {value : Value} (h : value ≠ .null) (expression : String)
    (places : List String) (c : Comparison) : (Operator.compare c value).clause? expression places =
      some (expression ++ " " ++ c.keyword ++ " " ++ "".intercalate places) := by
  cases c <;> cases value <;> first | rfl | exact absurd rfl h

theorem bound_compare {value : Value} (h : value ≠ .null) (c : Comparison) :
    (Operator.compare c value).bound = [value] := by
  cases c <;> cases value <;> first | rfl | exact absurd rfl h

end Operator

def Param.places (style : BindStyle) (next : Nat) : List Param → List String
  | [] => []
  | p :: params => style.placeholder next p.name :: Param.places style (next + 1) params

theorem Param.length_places (style : BindStyle) (next : Nat) (params : List Param) :
    (Param.places style next params).length = params.length := by
  induction params generalizing next with
  | nil => rfl
  | cons p params ih => rw [Param.places, List.length_cons, ih, List.length_cons]

namespace Operator

/-- the parameters that an operator on a field binds, the first one numbered `next` -/
def params (next : Nat) (field : String) (op : Operator) : List Param :=
  Param.number next (op.bound.map (field, ·))

/-- the placeholders that an operator on a field is written with, if nothing is folded -/
def places (style : BindStyle) (next : Nat) (field : String) (op : Operator) : List String :=
  Param.places style next (op.params next field)

theorem length_places (style : BindStyle) (next : Nat) (field : String) (op : Operator) :
    (op.places style next field).length = op.bound.length := by
  rw [places, Param.length_places, params, Param.length_number, List.length_map]

/-- every operand has its place, or none has as there is nothing to compare or to look for -/
theorem places_operands (style : BindStyle) (next : Nat) (field : String) (op : Operator) :
    (op.places style next field).length = op.operands.length ∨
      op.places style next field = [] ∧ op.operands.any Value.isTextual = false := by
  rw [length_places, ← List.length_eq_zero_iff, length_places, List.length_eq_zero_iff]
  cases op with
  | compare c value =>
    by_cases hnull : value = .null
    · subst hnull
      cases c with
      | eq | neq => exact .inr ⟨rfl, rfl⟩
      | lt | lte | gt | gte => exact .inl rfl
    · rw [bound_compare hnull]
      exact .inl rfl
  | member negated values => exact .inl rfl
  | between lo hi => exact .inl rfl
  | pattern position value =>
    cases value <;> first | exact .inl rfl | exact .inr ⟨rfl, rfl⟩

end Operator

/-- the place of an operand, wrapped if it is a string that is to be folded -/
def foldPlace (fold : Bool) (operand : Value) (place : String) : String :=
  if fold && operand.isTextual then "LOWER(" ++ place ++ ")" else place

def Operator.clauseOn? (style : BindStyle) (next : Nat) (column : Column) (fold : Bool)
    (op : Operator) : Option String :=
  op.clause? (column.expression (fold && op.operands.any Value.isTextual))
    (List.zipWith (foldPlace fold) op.operands (op.places style next column.field))

/-! ## the text of a clause -/

section
variable (style : BindStyle) (next : Nat) (column : Column) (fold : Bool)

theorem Clause.textFrom_operand (value : Value) :
    Fragment.textFrom style next (operand column fold value) =
      foldPlace fold value (style.placeholder next (paramName next column.field)) := by
  unfold operand foldPlace
  split
  · simp [Fragment.textFrom, String.append_assoc]
  · simp [Fragment.textFrom]

theorem Clause.textsFrom_operands (values : List Value) :
    Fragment.textsFrom style next (values.map (operand column fold)) =
      List.zipWith (foldPlace fold) values
        (Param.places style next (Param.number next (values.map (column.field, ·)))) := by
  induction values generalizing next with
  | nil => rfl
  | cons value values ih =>
    simp only [List.map_cons, Fragment.textsFrom, textFrom_operand, bindings_operand,
      List.length_singleton, ih]
    rfl

/-- among some operands a string is folded if the others are -/
theorem Clause.operand_of_mem {value : Value} {values : List Value} (h : value ∈ values) :
    operand column (fold && values.any Value.isTextual) value = operand column fold value := by
  cases htextual : value.isTextual with
  | false => simp [operand, htextual]
  | true =>
    have hany : values.any Value.isTextual = true := List.any_eq_true.mpr ⟨value, h, htextual⟩
    rw [hany, Bool.and_true]

theorem Clause.text_null (negated : Bool) :
    (null column negated).fragment?.map (Fragment.textFrom style next) =
      some (column.expression (fold && [Value.null].any Value.isTextual) ++
        if negated then " IS NOT NULL" else " IS NULL") := by
  have hany : (fold && [Value.null].any Value.isTextual) = false := Bool.and_false fold
  simp only [fragment?, hany, Option.map_some, Fragment.textFrom, String.append_empty,
    Column.expression, Bool.false_eq_true, if_false]

theorem Clause.text_comparison (op : Comparison) (value : Value) :
    (comparison column op value fold).fragment?.map (Fragment.textFrom style next) =
      some (column.expression (fold && [value].any Value.isTextual) ++ " " ++ op.keyword ++ " " ++
        foldPlace fold value (style.placeholder next (paramName next column.field))) := by
  have hany : value.isTextual = [value].any Value.isTextual := by simp
  have hvalue := operand_of_mem column fold (List.mem_singleton_self value)
  simp only [fragment?, hany, hvalue, Option.map_some, Fragment.textFrom, textFrom_operand, opening]

theorem Clause.text_array (values : List Value) (negated : Bool) :
    (array column values negated fold).fragment?.map (Fragment.textFrom style next) =
      (Operator.member negated values).clauseOn? style next column fold := by
  cases values with
  | nil => cases negated <;> rfl
  | cons value values =>
    have hfold : (value :: values).map (operand column (fold && (value :: values).any
        Value.isTextual)) = (value :: values).map (operand column fold) :=
      List.map_congr_left fun _ hmem => operand_of_mem column fold hmem
    have hclause (expression : String) (places : List String) :
        (Operator.member negated (value :: values)).clause? expression places =
          some (expression ++ " " ++ (if negated then "NOT IN" else "IN") ++ " " ++
            ("(" ++ ", ".intercalate places ++ ")")) := by
      cases negated <;> rfl
    rw [Operator.clauseOn?, hclause]
    simp only [fragment?, hfold, Option.map_some, Fragment.textFrom, Fragment.textFrom_bracket,
      Fragment.textFrom_join, textsFrom_operands, opening]
    rfl

theorem Clause.text_range (lo hi : Value) :
    (range column lo hi fold).fragment?.map (Fragment.textFrom style next) =
      (Operator.between lo hi).clauseOn? style next column fold := by
  have hany : (lo.isTextual || hi.isTextual) = [lo, hi].any Value.isTextual := by simp
  have hlo := operand_of_mem column fold (show lo ∈ [lo, hi] by simp)
  have hhi := operand_of_mem column fold (show hi ∈ [lo, hi] by simp)
  simp only [fragment?, hany, hlo, hhi, Option.map_some, List.cons_append, Fragment.textFrom,
    Fragment.textFrom_append, textFrom_operand, bindings_operand, List.length_singleton, opening]
  rw [Operator.clauseOn?, Operator.clause?_of_not_silent (Operator.between lo hi) rfl]
  simp only [Operator.written, Operator.listed, Operator.keyword, Operator.operands, Operator.places,
    Operator.params, Operator.bound, Param.places, Param.number, List.map_cons, List.map_nil,
    List.zipWith_cons_cons, List.zipWith_nil_left, String.intercalate_cons_cons,
    String.intercalate_singleton, String.append_assoc]

theorem Clause.text_pattern (position : Position) (value : Value) :
    (pattern column position value fold).fragment?.map (Fragment.textFrom style next) =
      (Operator.pattern position value).clauseOn? style next column fold := by
  have hany : value.isTextual = [value].any Value.isTextual := by simp
  cases htext : value.text? with
  | none => simp [fragment?, Operator.clauseOn?, Operator.clause?, Operator.isSilent, htext]
  | some text =>
    -- the text that is bound is a string in any case, so it is folded if the operand was one
    have hplace : foldPlace (fold && [value].any Value.isTextual) (.string (position.around text)) =
        foldPlace fold value := by
      simp [funext_iff, foldPlace, Value.isTextual]
    have hsilent : (Operator.pattern position value).isSilent = false := by
      simp [Operator.isSilent, htext]
    rw [Operator.clauseOn?, Operator.clause?_of_not_silent _ hsilent]
    simp only [fragment?, htext, Option.map_some, Fragment.textFrom, textFrom_operand, hplace, opening,
      hany, Operator.operands, Operator.places, Operator.params, Operator.bound, Option.toList_some,
      List.map_cons, List.map_nil, Param.number, Param.places, List.zipWith_cons_cons,
      List.zipWith_nil_left]
    rfl

/-- what an operator is written as: whether it folds only shows in the column and the places -/
theorem Clause.text_ofOperator (op : Operator) :
    (ofOperator column fold op).fragment?.map (Fragment.textFrom style next) =
      op.clauseOn? style next column fold := by
  cases op with
  | compare c value =>
    by_cases hnull : value = .null
    · subst hnull
      cases c with
      | eq => exact text_null style next column fold false
      | neq => exact text_null style next column fold true
      | lt | lte | gt | gte => exact text_comparison style next column fold _ .null
    · rw [ofOperator_compare hnull, text_comparison, Operator.clauseOn?,
        Operator.clause?_compare hnull, Operator.places, Operator.params, Operator.bound_compare hnull]
      rfl
  | member negated values => exact text_array style next column fold values negated
  | between lo hi => exact text_range style next column fold lo hi
  | pattern position value => exact text_pattern style next column fold position value

end

/-! ## folding against not folding -/

/-- the places stay as they are if nothing is folded, or nothing that is a string -/
theorem zipWith_foldPlace_of_not_textual {fold : Bool} {operands : List Value} {places : List String}
    (htextual : (fold && operands.any Value.isTextual) = false)
    (hle : places.length ≤ operands.length) :
    List.zipWith (foldPlace fold) operands places = places := by
  induction operands generalizing places with
  | nil => rw [List.zipWith_nil_left, List.eq_nil_of_length_eq_zero (Nat.le_zero.mp hle)]
  | cons operand operands ih =>
    rw [List.any_cons, Bool.and_or_distrib_left, Bool.or_eq_false_iff] at htextual
    cases places with
    | nil => rfl
    | cons place places =>
      rw [List.zipWith_cons_cons, ih htextual.2 (Nat.le_of_succ_le_succ hle), foldPlace, htextual.1]
      rfl

/-- what a constraint with an operator writes and binds -/
theorem Constraint.run_bind_operator (style : BindStyle) (name : String) (collection : Option String)
    (fold : Bool) (op : Operator) (bound : List Param) :
    ((Constraint.field ⟨some op, fold, collection⟩).bind style name).run bound =
      .ok (op.clauseOn? style (bound.length + 1) ⟨name, collection⟩ fold,
        bound ++ op.params (bound.length + 1) name) := by
  have htext := Clause.text_ofOperator style (bound.length + 1) ⟨name, collection⟩ fold op
  rw [Constraint.run_bind, Constraint.bindings_fragment?]
  show Except.ok (((Clause.ofOperator ⟨name, collection⟩ fold op).fragment?).map _, _) = _
  rw [htext]
  rfl

/-- without a string among the operands the column and the places are as they are without folding -/
theorem Constraint.run_bind_of_not_textual (style : BindStyle) (name : String)
    (collection : Option String) (fold : Bool) (op : Operator) (bound : List Param)
    (htextual : (fold && op.operands.any Value.isTextual) = false) :
    ((Constraint.field ⟨some op, fold, collection⟩).bind style name).run bound =
      .ok (op.clause? (Column.text ⟨name, collection⟩) (op.places style (bound.length + 1) name),
        bound ++ op.params (bound.length + 1) name) := by
  have hle : (op.places style (bound.length + 1) name).length ≤ op.operands.length := by
    rcases op.places_operands style (bound.length + 1) name with hlen | ⟨hnil, -⟩
    · exact Nat.le_of_eq hlen
    · rw [hnil]
      exact Nat.zero_le _
  rw [run_bind_operator, Operator.clauseOn?, htextual,
    zipWith_foldPlace_of_not_textual htextual hle]
  rfl

/-- **Case folding touches nothing but the column and the strings.**  Folded or not, a field has the same
clause around its column and its places, or none, and binds the same parameters.  Folded, the column goes
through `lower` if some operand is a string, and the place of each operand that is one is wrapped; every
operand has its place, unless there is no place and no string. -/
theorem Constraint.run_bind_caseInsensitive (style : BindStyle) (name : String)
    (collection : Option String) (op : Operator) (bound : List Param) :
    ((Constraint.field ⟨some op, false, collection⟩).bind style name).run bound =
        .ok (op.clause? (Column.text ⟨name, collection⟩) (op.places style (bound.length + 1) name),
          bound ++ op.params (bound.length + 1) name) ∧
      ((Constraint.field ⟨some op, true, collection⟩).bind style name).run bound =
        .ok (op.clause? (Column.expression ⟨name, collection⟩ (op.operands.any Value.isTextual))
            (List.zipWith (foldPlace true) op.operands (op.places style (bound.length + 1) name)),
          bound ++ op.params (bound.length + 1) name) ∧
      ((op.places style (bound.length + 1) name).length = op.operands.length ∨
        op.places style (bound.length + 1) name = [] ∧ op.operands.any Value.isTextual = false) ∧
      (op.operands.any Value.isTextual = false →
        ((Constraint.field ⟨some op, true, collection⟩).bind style name).run bound =
          ((Constraint.field ⟨some op, false, collection⟩).bind style name).run bound) := by
  have hoff := run_bind_of_not_textual style name collection false op bound rfl
  have hon := run_bind_operator style name collection true op bound
  rw [Operator.clauseOn?, Bool.true_and] at hon
  refine ⟨hoff, hon, op.places_operands style _ name, fun htextual => ?_⟩
  rw [hoff]
  exact run_bind_of_not_textual style name collection true op bound htextual

/-- a list with one string in it is folded at the column and at that string; a number alone is not -/
theorem Constraint.run_bind_caseInsensitive_mixed :
    ((Constraint.field ⟨some (.member true [.int 4, .string "Ann"]), true, some "t"⟩).bind .colon
        "n").run [] =
      .ok (some "LOWER(t.n) NOT IN (:_1_n, LOWER(:_2_n))",
        [⟨"_1_n", .int 4⟩, ⟨"_2_n", .string "Ann"⟩]) ∧
    ((Constraint.field ⟨some (.pattern .endsWith (.int 42)), true, none⟩).bind .dollar "n").run [] =
      ((Constraint.field ⟨some (.pattern .endsWith (.int 42)), false, none⟩).bind .dollar "n").run
        [] := by
  have hmixed := run_bind_caseInsensitive .colon "n" (some "t")
    (.member true [.int 4, .string "Ann"]) []
  have hnumber := run_bind_caseInsensitive .dollar "n" none (.pattern .endsWith (.int 42)) []
  have hclause : (Operator.member true [.int 4, .string "Ann"]).clause? "LOWER(t.n)"
      [":_1_n", "LOWER(:_2_n)"] = some "LOWER(t.n) NOT IN (:_1_n, LOWER(:_2_n))" := by decide
  constructor
  · rw [hmixed.2.1, ← hclause]
    rfl
  · exact hnumber.2.2.2 rfl

end FilterSql
