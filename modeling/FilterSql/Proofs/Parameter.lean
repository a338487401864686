import FilterSql.Proofs.Binding
import Mathlib.Data.List.Nodup

/-!
# The binding table

`Filter.bound` is the list of all operands of a filter in document order.  The parameters of a
compiled filter are exactly these, numbered from one (`Filter.params_compile`); their names are
distinct although fields may be repeated or sanitized to the same text, so looking up a name finds
the value that was bound under it.
-/

namespace FilterSql

/-! ## the operands of a filter -/

/-- what an operator binds: its operands in order, but nothing to compare with null for equality, and
for a pattern the text with its wildcards -/
def Operator.bound : Operator → List Value
  | .compare .eq .null => []
  | .compare .neq .null => []
  | .compare _ value => [value]
  | .member _ values => values
  | .between lo hi => [lo, hi]
  | .pattern position value => (value.text?.map fun s => .string (position.around s)).toList

def Constraint.bound : Constraint → List Value
  | .scalar .null => []
  | .scalar value => [value]
  | .list values => values
  | .field f => (f.operator.map Operator.bound).getD []

/-- what a filter binds, in document order, each value with the field that it constrains -/
def Filter.bound (f : Filter) : List (String × Value) :=
  (Filter.fields f).flatMap fun (name, c) => c.bound.map (name, ·)

/-! ## the holes of a fragment are the operands -/

@[simp] theorem Clause.bindings_operand (column : Column) (fold : Bool) (value : Value) :
    (operand column fold value).bindings = [(column.field, value)] := by
  unfold operand
  split <;> rfl

theorem Clause.bindings_operands (column : Column) (fold : Bool) (values : List Value) :
    (values.map (operand column fold)).flatMap Fragment.bindings =
      values.map (column.field, ·) := by
  induction values with
  | nil => rfl
  | cons value values ih => rw [List.map_cons, List.flatMap_cons, bindings_operand, ih]; rfl

theorem Clause.bindings_array (column : Column) (values : List Value) (negated fold : Bool) :
    ((array column values negated fold).fragment?.getD []).bindings =
      values.map (column.field, ·) := by
  cases values with
  | nil => cases negated <;> rfl
  | cons value values =>
    simp only [fragment?, Option.getD_some, Fragment.bindings_text, Fragment.bindings_bracket,
      Fragment.bindings_join]
    exact bindings_operands column _ (value :: values)

theorem Clause.bindings_comparison (column : Column) (op : Comparison) (value : Value)
    (fold : Bool) : ((comparison column op value fold).fragment?.getD []).bindings =
      [(column.field, value)] := by
  simp [fragment?]

theorem Clause.bindings_ofOperator (column : Column) (fold : Bool) (op : Operator) :
    ((ofOperator column fold op).fragment?.getD []).bindings = op.bound.map (column.field, ·) := by
  cases op with
  | compare c value =>
    cases c <;> cases value <;> first | rfl | exact bindings_comparison ..
  | member negated values => exact bindings_array column values negated fold
  | between lo hi => simp [ofOperator, fragment?, Operator.bound]
  | pattern position value =>
    simp only [ofOperator, fragment?, Operator.bound]
    cases value.text? <;> simp

theorem Constraint.bindings_fragment? (name : String) (c : Constraint) :
    ((c.fragment? name).getD []).bindings = c.bound.map (name, ·) := by
  cases c with
  | scalar value => cases value <;> rfl
  | list values => exact Clause.bindings_array ⟨name, none⟩ values false false
  | field f =>
    obtain ⟨operator, fold, collection⟩ := f
    cases operator with
    | none => rfl
    | some op => exact Clause.bindings_ofOperator ⟨name, collection⟩ fold op

mutual

theorem Entry.bindings_fragment? : ∀ e : Entry, (e.fragment?.getD []).bindings =
    e.fields.flatMap fun (name, c) => c.bound.map (name, ·)
  | .field _ none => rfl
  | .field name (some c) => by
    show ((c.fragment? name).getD []).bindings = [(name, c)].flatMap _
    rw [c.bindings_fragment?, List.flatMap_singleton]
  | .group op fs => by
    show _ = (Filter.childFields fs).flatMap _
    rw [← Filter.bindings_childFragments, Entry.fragment?_group]
    cases Filter.childFragments fs with
    | nil => rfl
    | cons first children => exact Fragment.bindings_ofGroup op (first :: children)

/-- the clauses of a filter bind its operands, in document order -/
theorem Filter.bindings_fragments : ∀ f : List Entry,
    (Filter.fragments f).flatMap Fragment.bindings = Filter.bound f
  | [] => rfl
  | e :: f => by
    have hfirst := Entry.bindings_fragment? e
    rw [Filter.fragments_cons, List.flatMap_append, Filter.bindings_fragments]
    unfold Filter.bound
    rw [Filter.fields, List.flatMap_append, ← hfirst]
    cases e.fragment? <;> simp

theorem Filter.bindings_childFragments : ∀ fs : List (List Entry),
    ((Filter.childFragments fs).flatMap fun cs => cs.flatMap Fragment.bindings) =
      (Filter.childFields fs).flatMap fun (name, c) => c.bound.map (name, ·)
  | [] => rfl
  | f :: fs => by
    have hfirst : _ = (Filter.fields f).flatMap _ := Filter.bindings_fragments f
    rw [Filter.childFragments_cons, Filter.childFields, List.flatMap_append, ← hfirst,
      ← Filter.bindings_childFragments]
    cases Filter.fragments f <;> rfl

end

/-! ## names are distinct -/

theorem Param.exists_number_of_mem {next : Nat} {bs : List (String × Value)} {p : Param}
    (h : p ∈ Param.number next bs) : ∃ n field, next ≤ n ∧ p.name = paramName n field := by
  induction bs generalizing next with
  | nil => cases h
  | cons b bs ih =>
    rcases List.mem_cons.mp h with rfl | h
    · exact ⟨next, b.1, Nat.le_refl next, rfl⟩
    · obtain ⟨n, field, hn, hname⟩ := ih h
      exact ⟨n, field, by omega, hname⟩

theorem Param.nodup_number (next : Nat) (bs : List (String × Value)) :
    ((Param.number next bs).map Param.name).Nodup := by
  induction bs generalizing next with
  | nil => exact List.nodup_nil
  | cons b bs ih =>
    refine List.nodup_cons.mpr ⟨fun hmem => ?_, ih (next + 1)⟩
    obtain ⟨p, hp, hsame⟩ := List.mem_map.mp hmem
    obtain ⟨n, field, hn, hname⟩ := exists_number_of_mem hp
    have heq : n = next := paramName_inj (hname.symm.trans hsame)
    omega

theorem Param.find?_of_mem {params : List Param} (hnodup : (params.map Param.name).Nodup)
    {p : Param} (hp : p ∈ params) : Param.find? params p.name = some p.value := by
  have hmem : ∃ q ∈ params, decide (q.name = p.name) = true := ⟨p, hp, by simp⟩
  obtain ⟨q, hq⟩ := Option.isSome_iff_exists.mp (List.find?_isSome.mpr hmem)
  have hname : q.name = p.name := by simpa using List.find?_some hq
  have hsame : q = p := List.inj_on_of_nodup_map hnodup (List.mem_of_find?_eq_some hq) hp hname
  rw [Param.find?, hq, hsame, Option.map_some]

end FilterSql
