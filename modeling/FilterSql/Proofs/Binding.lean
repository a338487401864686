import FilterSql.Proofs.Bracket
import FilterSql.Proofs.Tree

/-!
# Binding while walking

The compiler binds values as it meets them and writes their placeholders at once.  Here its walk is
compared with the fragments, whose holes are numbered only when the whole text is known: a step that
starts with some parameters bound writes the fragment numbered from there and binds what its holes
bind (`Clause.run_bind`, `Filter.run_bindClauses`).  So nothing is bound that is not written, and
`Filter.compile_eq` gives the text and the parameters of a compiled filter.
-/

namespace FilterSql

/-- the parameters after more values are bound -/
def boundAfter (bound : List Param) (bs : List (String × Value)) : List Param :=
  bound ++ Param.number (bound.length + 1) bs

@[simp] theorem boundAfter_nil (bound : List Param) : boundAfter bound [] = bound :=
  List.append_nil bound

theorem length_boundAfter (bound : List Param) (bs : List (String × Value)) :
    (boundAfter bound bs).length = bound.length + bs.length := by
  rw [boundAfter, List.length_append, Param.length_number]

theorem boundAfter_boundAfter (bound : List Param) (bs cs : List (String × Value)) :
    boundAfter (boundAfter bound bs) cs = boundAfter bound (bs ++ cs) := by
  have hnext : (boundAfter bound bs).length + 1 = bound.length + 1 + bs.length := by
    rw [length_boundAfter]
    omega
  rw [boundAfter, hnext]
  simp only [boundAfter, Param.number_append, List.append_assoc]

theorem Except.ok_bind {ε α β : Type} (a : α) (f : α → Except ε β) :
    (Except.ok a >>= f) = f a := rfl

section
variable (style : BindStyle)

/-! ## operands -/

theorem run_bindValue (field : String) (value : Value) (bound : List Param) :
    (bindValue style field value).run bound =
      .ok (Fragment.textFrom style (bound.length + 1) [.hole field value],
        boundAfter bound [(field, value)]) := by
  simp only [Fragment.textFrom, String.append_empty]
  rfl

/-- a placeholder is never inside `LOWER(...)` yet -/
theorem lower_placeholder (n : Nat) (name : String) :
    lower (style.placeholder n name) = "LOWER(" ++ style.placeholder n name ++ ")" := by
  have hhead : isLowered (style.placeholder n name).toList = false := by
    rw [style.toList_placeholder]
    cases style <;> rfl
  rw [lower, hhead]
  rfl

theorem run_bindOperand (column : Column) (fold : Bool) (value : Value) (bound : List Param) :
    (bindOperand style column fold value).run bound =
      .ok (Fragment.textFrom style (bound.length + 1) (Clause.operand column fold value),
        boundAfter bound (Clause.operand column fold value).bindings) := by
  unfold bindOperand Clause.operand
  rw [StateT.run_bind, run_bindValue, Except.ok_bind]
  cases fold && value.isTextual with
  | false => rfl
  | true =>
    simp only [Fragment.textFrom, String.append_empty, if_true, lower_placeholder]
    rfl

theorem run_bindOperands (column : Column) (fold : Bool) (values : List Value)
    (bound : List Param) : (values.mapM (bindOperand style column fold)).run bound =
      .ok (Fragment.textsFrom style (bound.length + 1) (values.map (Clause.operand column fold)),
        boundAfter bound ((values.map (Clause.operand column fold)).flatMap Fragment.bindings)) := by
  induction values generalizing bound with
  | nil => simp [Fragment.textsFrom]; rfl
  | cons value values ih =>
    rw [List.mapM_cons, StateT.run_bind, run_bindOperand, Except.ok_bind, StateT.run_bind, ih,
      Except.ok_bind, length_boundAfter, boundAfter_boundAfter, List.map_cons, List.flatMap_cons,
      Fragment.textsFrom, Nat.add_right_comm]
    rfl

/-! ## clauses -/

/-- a clause writes its fragment, numbered from the parameters bound so far, and binds its holes -/
theorem Clause.run_bind (c : Clause) (bound : List Param) : (c.bind style).run bound =
    .ok (c.fragment?.map (Fragment.textFrom style (bound.length + 1)),
      boundAfter bound (c.fragment?.getD []).bindings) := by
  cases c with
  | null column negated =>
    simp [Clause.bind, fragment?, Fragment.textFrom]
    rfl
  | array column values negated caseInsensitive =>
    cases values with
    | nil =>
      cases negated <;> simp [Clause.bind, fragment?, Fragment.textFrom] <;> rfl
    | cons value values =>
      simp only [Clause.bind, fragment?]
      rw [StateT.run_bind, run_bindOperands, Except.ok_bind]
      simp only [Option.map_some, Option.getD_some, Fragment.textFrom, Fragment.bindings_text,
        Fragment.textFrom_bracket, Fragment.textFrom_join, Fragment.bindings_bracket,
        Fragment.bindings_join, String.append_assoc]
      rfl
  | primitive column value =>
    simp only [Clause.bind, fragment?]
    rw [StateT.run_bind, run_bindValue, Except.ok_bind]
    simp only [Option.map_some, Option.getD_some, Fragment.textFrom, Fragment.bindings_text, operand,
      Bool.false_and]
    rfl
  | comparison column op value caseInsensitive =>
    simp only [Clause.bind, fragment?]
    rw [StateT.run_bind, run_bindOperand, Except.ok_bind]
    rfl
  | pattern column position value caseInsensitive =>
    simp only [Clause.bind, fragment?]
    cases value.text? with
    | none => simp; rfl
    | some text =>
      simp only [Option.map_some, Option.getD_some]
      rw [StateT.run_bind, run_bindOperand, Except.ok_bind]
      rfl
  | range column lo hi caseInsensitive =>
    simp only [Clause.bind, fragment?]
    rw [StateT.run_bind, run_bindOperand, Except.ok_bind, StateT.run_bind, run_bindOperand,
      Except.ok_bind, length_boundAfter, boundAfter_boundAfter]
    simp only [Option.map_some, Option.getD_some, List.cons_append, Fragment.textFrom,
      Fragment.bindings_text, Fragment.textFrom_append, Fragment.bindings_append,
      String.append_assoc, Nat.add_right_comm]
    rfl

/-! ## groups -/

theorem Fragment.textFrom_joinBracketed (separator : String) (next : Nat) (fs : List Fragment) :
    textFrom style next (joinBracketed separator fs) =
      FilterSql.joinBracketed separator (textsFrom style next fs) := by
  simp only [joinBracketed, FilterSql.joinBracketed, length_textsFrom]
  split
  · rw [textFrom_bracket, textFrom_join]
  · rw [textFrom_join]

/-- the texts of the clauses of several filters, whose holes are numbered one after the other -/
def Fragment.childTextsFrom (next : Nat) : List (List Fragment) → List (List String)
  | [] => []
  | fs :: children =>
    textsFrom style next fs :: childTextsFrom (next + (fs.flatMap bindings).length) children

theorem Fragment.flatten_childTextsFrom (next : Nat) (children : List (List Fragment)) :
    (childTextsFrom style next children).flatten = textsFrom style next children.flatten := by
  induction children generalizing next with
  | nil => rfl
  | cons fs children ih =>
    rw [childTextsFrom, List.flatten_cons, ih, List.flatten_cons, textsFrom_append]

theorem Fragment.map_childTextsFrom (separator : String) (next : Nat)
    (children : List (List Fragment)) :
    (childTextsFrom style next children).map (FilterSql.joinBracketed separator) =
      textsFrom style next (children.map (joinBracketed separator)) := by
  induction children generalizing next with
  | nil => rfl
  | cons fs children ih =>
    rw [childTextsFrom, List.map_cons, ih, List.map_cons, textsFrom, bindings_joinBracketed,
      textFrom_joinBracketed]

/-- a group is written around the texts of its clauses -/
theorem Fragment.textFrom_ofGroup (next : Nat) (op : Connective) (children : List (List Fragment)) :
    textFrom style next (ofGroup op children) = op.write (childTextsFrom style next children) := by
  cases op with
  | and =>
    simp only [ofGroup, Connective.write]
    rw [textFrom_joinBracketed, flatten_childTextsFrom]
  | or =>
    simp only [ofGroup, Connective.write]
    rw [textFrom_joinBracketed, map_childTextsFrom]
  | not =>
    simp only [ofGroup, Connective.write, textFrom]
    rw [textFrom_bracket, textFrom_join, flatten_childTextsFrom]
    simp only [← String.append_assoc]
    rfl

/-- a filter is wrapped alike in all styles, as no placeholder has a bracket in it -/
theorem Fragment.textFrom_ofClauses (next : Nat) (fs : List Fragment) :
    textFrom style next (ofClauses fs) = wrapClauses (textsFrom style next fs) := by
  have hempty : (textsFrom style next fs).isEmpty = fs.isEmpty := by cases fs <;> rfl
  simp only [ofClauses, wrapClauses, hempty, length_textsFrom]
  cases fs.isEmpty with
  | true => rfl
  | false =>
    simp only [Bool.false_eq_true, if_false]
    rw [← textFrom_join, isSingleGroup_textFrom]
    split
    · rfl
    · rw [textFrom_bracket]

/-! ## the walk -/

theorem Constraint.run_bind (name : String) (c : Constraint) (bound : List Param) :
    (c.bind style name).run bound =
      .ok ((c.fragment? name).map (Fragment.textFrom style (bound.length + 1)),
        boundAfter bound ((c.fragment? name).getD []).bindings) := by
  unfold Constraint.bind Constraint.fragment?
  cases Clause.ofConstraint? name c with
  | none => simp; rfl
  | some clause => exact clause.run_bind style bound

-- The recursion is on the filter, for any parameters bound before it: siblings bind one after the other,
-- and `boundAfter_boundAfter` adds up what they bind.
mutual

theorem Entry.run_bind (max depth : Nat) : ∀ (e : Entry) (bound : List Param),
    (e.bind style max depth).run bound = (e.guard max depth).map fun _ =>
      (e.fragment?.map (Fragment.textFrom style (bound.length + 1)),
        boundAfter bound (e.fragment?.getD []).bindings)
  | .field _ none, bound => by
    show Except.ok (none, bound) = .ok (none, boundAfter bound [])
    rw [boundAfter_nil]
  | .field name (some c), bound => c.run_bind style name bound
  | .group _ [], bound => by
    show Except.ok (none, bound) = .ok (none, boundAfter bound [])
    rw [boundAfter_nil]
  | .group op (f :: fs), bound => by
    rw [Entry.bind, Entry.guard, Entry.fragment?_group]
    split
    · rfl
    · rw [StateT.run_bind, Filter.run_bindChildren]
      cases Filter.childGuard max (depth + 1) (f :: fs) with
      | error e => rfl
      | ok _ =>
        cases Filter.childFragments (f :: fs) with
        | nil =>
          show Except.ok (none, boundAfter bound []) = .ok (none, boundAfter bound [])
          rfl
        | cons first children =>
          rw [Except.map, Except.ok_bind]
          simp only [Fragment.childTextsFrom, List.isEmpty_cons, Bool.false_eq_true, if_false,
            Option.map_some, Option.getD_some, Fragment.textFrom_ofGroup,
            Fragment.bindings_ofGroup]
          rfl

/-- the walk writes the fragments of a filter, numbered from the parameters bound so far, and binds
their holes; it fails where the guard does -/
theorem Filter.run_bindClauses (max depth : Nat) : ∀ (f : List Entry) (bound : List Param),
    (Filter.bindClauses style max depth f).run bound = (Filter.guard max depth f).map fun _ =>
      (Fragment.textsFrom style (bound.length + 1) (Filter.fragments f),
        boundAfter bound ((Filter.fragments f).flatMap Fragment.bindings))
  | [], bound => by
    show Except.ok ([], bound) = .ok ([], boundAfter bound [])
    rw [boundAfter_nil]
  | entry :: entries, bound => by
    rw [Filter.bindClauses, Filter.guard, StateT.run_bind, Entry.run_bind]
    cases entry.guard max depth with
    | error e => rfl
    | ok _ =>
      rw [Except.map, Except.ok_bind, Except.ok_bind, StateT.run_bind, Filter.run_bindClauses]
      cases Filter.guard max depth entries with
      | error e => rfl
      | ok _ =>
        rw [Except.map, Except.ok_bind, length_boundAfter, boundAfter_boundAfter,
          Filter.fragments_cons, List.flatMap_append, Fragment.textsFrom_append]
        cases entry.fragment? <;>
          simp [Fragment.textsFrom, Nat.add_right_comm, Except.map] <;> rfl

theorem Filter.run_bindChildren (max depth : Nat) : ∀ (fs : List (List Entry))
    (bound : List Param), (Filter.bindChildren style max depth fs).run bound =
      (Filter.childGuard max depth fs).map fun _ =>
        (Fragment.childTextsFrom style (bound.length + 1) (Filter.childFragments fs),
          boundAfter bound
            ((Filter.childFragments fs).flatMap fun cs => cs.flatMap Fragment.bindings))
  | [], bound => by
    show Except.ok ([], bound) = .ok ([], boundAfter bound [])
    rw [boundAfter_nil]
  | f :: fs, bound => by
    rw [Filter.bindChildren, Filter.childGuard, StateT.run_bind, Filter.run_bindClauses]
    cases Filter.guard max depth f with
    | error e => rfl
    | ok _ =>
      rw [Except.map, Except.ok_bind, Except.ok_bind, StateT.run_bind, Filter.run_bindChildren]
      cases Filter.childGuard max depth fs with
      | error e => rfl
      | ok _ =>
        rw [Except.map, Except.ok_bind, length_boundAfter, boundAfter_boundAfter,
          Filter.childFragments_cons, Nat.add_right_comm]
        cases Filter.fragments f <;> rfl

end

/-- **The compiler writes the fragment of a filter and binds its holes in order**, if the guard lets
the filter through. -/
theorem Filter.compile_eq (max : Nat) (f : Filter) : f.compile style max =
    (Filter.guard max 1 f).map fun _ =>
      ⟨f.fragment.textFrom style 1, Param.number 1 f.fragment.bindings⟩ := by
  rw [Filter.compile, Filter.run_bindClauses]
  cases Filter.guard max 1 f with
  | error e => rfl
  | ok _ =>
    rw [Filter.fragment, Fragment.textFrom_ofClauses, Fragment.bindings_ofClauses]
    rfl

end

theorem Filter.eq_of_compile {style : BindStyle} {max : Nat} {f : Filter} {p : Predicate}
    (h : f.compile style max = .ok p) :
    p = ⟨f.fragment.textFrom style 1, Param.number 1 f.fragment.bindings⟩ := by
  rw [Filter.compile_eq] at h
  cases hguard : Filter.guard max 1 f with
  | error e => rw [hguard] at h; cases h
  | ok _ => rw [hguard] at h; cases h; rfl

end FilterSql
