import FilterSql.Proofs.Binding

/-!
# Values do not reach the text

Two filters are `Filter.Alike` if they differ in their scalars only, and there by values of one
`Value.Kind`.  They compile to one text (`Filter.compile_alike`): the content of a string, say,
cannot change a character of the statement.

The text of a fragment is that of its `skeleton`, which has no values left in its holes; joining,
bracketing and grouping commute with `skeleton`, so it is enough to compare the clauses of single
constraints.
-/

namespace FilterSql

/-! ## kinds of values -/

/-- what the text of a statement may depend on in a value -/
inductive Value.Kind where
  | null
  | bytes
  | string
  /-- numbers, booleans, identifiers and times: they have a text but are no strings -/
  | other
  deriving DecidableEq

def Value.kind : Value → Value.Kind
  | .null => .null
  | .bytes _ => .bytes
  | .string _ => .string
  | _ => .other

theorem Value.isTextual_eq (v : Value) : v.isTextual = decide (v.kind = .string) := by
  cases v <;> rfl

theorem Value.isSome_text? (v : Value) :
    v.text?.isSome = decide (v.kind = .string ∨ v.kind = .other) := by
  cases v <;> rfl

theorem Value.kind_eq_null {v : Value} : v.kind = .null ↔ v = .null := by
  cases v <;> simp [kind]

/-- an operand and another of its kind are textual or not together -/
theorem Value.isTextual_congr {v w : Value} (h : v.kind = w.kind) : v.isTextual = w.isTextual := by
  rw [isTextual_eq, isTextual_eq, h]

theorem Value.any_isTextual_congr {vs ws : List Value} (h : vs.map kind = ws.map kind) :
    vs.any isTextual = ws.any isTextual := by
  have hany : ∀ us : List Value, us.any isTextual = (us.map kind).any (decide <| · = .string) := by
    intro us
    rw [List.any_map]
    exact congrArg us.any (funext Value.isTextual_eq)
  rw [hany, hany, h]

/-! ## filters that differ in values -/

/-- the same operator, with operands of the same kinds -/
inductive Operator.Alike : Operator → Operator → Prop
  | compare (c : Comparison) {v w : Value} :
    v.kind = w.kind → Operator.Alike (.compare c v) (.compare c w)
  | member (negated : Bool) {vs ws : List Value} :
    vs.map Value.kind = ws.map Value.kind → Operator.Alike (.member negated vs) (.member negated ws)
  | between {lo hi lo' hi' : Value} :
    lo.kind = lo'.kind → hi.kind = hi'.kind → Operator.Alike (.between lo hi) (.between lo' hi')
  | pattern (p : Position) {v w : Value} :
    v.kind = w.kind → Operator.Alike (.pattern p v) (.pattern p w)

inductive Constraint.Alike : Constraint → Constraint → Prop
  | scalar {v w : Value} : v.kind = w.kind → Constraint.Alike (.scalar v) (.scalar w)
  | list {vs ws : List Value} :
    vs.map Value.kind = ws.map Value.kind → Constraint.Alike (.list vs) (.list ws)
  | bare (fold : Bool) (collection : Option String) :
    Constraint.Alike (.field ⟨none, fold, collection⟩) (.field ⟨none, fold, collection⟩)
  | field (fold : Bool) (collection : Option String) {op op' : Operator} : op.Alike op' →
    Constraint.Alike (.field ⟨some op, fold, collection⟩) (.field ⟨some op', fold, collection⟩)

/-- the same filter but for its values, which are of the same kinds -/
def Filter.Alike (f g : Filter) : Prop := Filter.Rel (fun _ c c' => c.Alike c') f g

/-! ## skeletons -/

def Piece.blank : Piece → Piece
  | .text s => .text s
  | .hole field _ => .hole field .null

namespace Fragment

def skeleton (f : Fragment) : Fragment := f.map Piece.blank

@[simp] theorem skeleton_nil : skeleton [] = [] := rfl

@[simp] theorem skeleton_text (s : String) (f : Fragment) :
    skeleton (.text s :: f) = .text s :: skeleton f := rfl

@[simp] theorem skeleton_hole (field : String) (value : Value) (f : Fragment) :
    skeleton (.hole field value :: f) = .hole field .null :: skeleton f := rfl

@[simp] theorem skeleton_append (f g : Fragment) : skeleton (f ++ g) = skeleton f ++ skeleton g :=
  List.map_append

theorem skeleton_bracket (f : Fragment) : skeleton f.bracket = (skeleton f).bracket := by
  simp [bracket]

theorem skeleton_join (separator : String) (fs : List Fragment) :
    skeleton (join separator fs) = join separator (fs.map skeleton) := by
  fun_induction join separator fs with
  | case1 => rfl
  | case2 f => rfl
  | case3 f g fs ih =>
    rw [skeleton_append, skeleton_text, ih]
    rfl

theorem skeleton_joinBracketed (separator : String) (fs : List Fragment) :
    skeleton (joinBracketed separator fs) = joinBracketed separator (fs.map skeleton) := by
  unfold joinBracketed
  rw [List.length_map, ← skeleton_join]
  split
  · rw [skeleton_bracket]
  · rfl

theorem skeleton_ofGroup (op : Connective) (children : List (List Fragment)) :
    skeleton (ofGroup op children) = ofGroup op (children.map (List.map skeleton)) := by
  cases op with
  | and => rw [ofGroup, skeleton_joinBracketed, List.map_flatten]; rfl
  | or =>
    have hchild : skeleton ∘ joinBracketed " AND " = joinBracketed " AND " ∘ List.map skeleton :=
      funext (skeleton_joinBracketed " AND ")
    rw [ofGroup, skeleton_joinBracketed, List.map_map, hchild, ← List.map_map]
    rfl
  | not =>
    rw [ofGroup, skeleton_text, skeleton_bracket, skeleton_join, List.map_flatten]
    rfl

theorem textFrom_skeleton (style : BindStyle) (next : Nat) (f : Fragment) :
    textFrom style next f.skeleton = textFrom style next f := by
  induction f generalizing next with
  | nil => rfl
  | cons piece f ih =>
    cases piece with
    | text s => rw [skeleton_text, textFrom, ih, textFrom]
    | hole field value => rw [skeleton_hole, textFrom, ih, textFrom]

theorem fields_skeleton (f : Fragment) :
    f.skeleton.bindings.map Prod.fst = f.bindings.map Prod.fst := by
  induction f with
  | nil => rfl
  | cons piece f ih => cases piece <;> simp [ih]

theorem skeleton_ofClauses (fs : List Fragment) :
    skeleton (ofClauses fs) = ofClauses (fs.map skeleton) := by
  have hgroup : (join " AND " fs).skeleton.isSingleGroup = (join " AND " fs).isSingleGroup := by
    rw [isSingleGroup, textFrom_skeleton]
    rfl
  simp only [ofClauses, List.isEmpty_map, List.length_map, hgroup, ← skeleton_join]
  split
  · rfl
  · split
    · rfl
    · rw [skeleton_bracket]

end Fragment

theorem Param.names_number (next : Nat) (bs cs : List (String × Value))
    (h : bs.map Prod.fst = cs.map Prod.fst) :
    (Param.number next bs).map Param.name = (Param.number next cs).map Param.name := by
  induction bs generalizing next cs with
  | nil =>
    cases cs with
    | nil => rfl
    | cons c cs => cases h
  | cons b bs ih =>
    cases cs with
    | nil => cases h
    | cons c cs =>
      obtain ⟨hfirst, hrest⟩ := List.cons_eq_cons.mp h
      show paramName next b.1 :: _ = paramName next c.1 :: _
      rw [hfirst, ih (next + 1) cs hrest]

/-! ## clauses -/

namespace Clause

theorem skeleton_operand (column : Column) (fold : Bool) {v w : Value} (h : v.kind = w.kind) :
    (operand column fold v).skeleton = (operand column fold w).skeleton := by
  unfold operand
  rw [Value.isTextual_congr h]
  split <;> rfl

theorem skeleton_operands (column : Column) (fold : Bool) {vs ws : List Value}
    (h : vs.map Value.kind = ws.map Value.kind) :
    (vs.map (operand column fold)).map Fragment.skeleton =
      (ws.map (operand column fold)).map Fragment.skeleton := by
  induction vs generalizing ws with
  | nil =>
    rw [List.map_eq_nil_iff.mp h.symm]
  | cons v vs ih =>
    cases ws with
    | nil => cases h
    | cons w ws =>
      obtain ⟨hfirst, hrest⟩ := List.cons_eq_cons.mp h
      simp only [List.map_cons] at ih ⊢
      rw [skeleton_operand column fold hfirst, ih hrest]

theorem skeleton_array (column : Column) (negated fold : Bool) {vs ws : List Value}
    (h : vs.map Value.kind = ws.map Value.kind) :
    (array column vs negated fold).fragment?.map Fragment.skeleton =
      (array column ws negated fold).fragment?.map Fragment.skeleton := by
  cases vs with
  | nil => rw [List.map_eq_nil_iff.mp h.symm]
  | cons v vs =>
    cases ws with
    | nil => cases h
    | cons w ws =>
      simp only [fragment?, Option.map_some, Fragment.skeleton_text, Fragment.skeleton_bracket,
        Fragment.skeleton_join, Value.any_isTextual_congr h, skeleton_operands column _ h]

theorem skeleton_comparison (column : Column) (op : Comparison) (fold : Bool) {v w : Value}
    (h : v.kind = w.kind) : (comparison column op v fold).fragment?.map Fragment.skeleton =
      (comparison column op w fold).fragment?.map Fragment.skeleton := by
  simp only [fragment?, Option.map_some, Fragment.skeleton_text, Value.isTextual_congr h,
    skeleton_operand column _ h]

/-- a pattern is bound as a string, whatever it is made from -/
theorem skeleton_pattern (column : Column) (p : Position) (fold : Bool) {v w : Value}
    (h : v.kind = w.kind) : (pattern column p v fold).fragment?.map Fragment.skeleton =
      (pattern column p w fold).fragment?.map Fragment.skeleton := by
  have hsome : v.text?.isSome = w.text?.isSome := by
    rw [Value.isSome_text?, Value.isSome_text?, h]
  simp only [fragment?, Value.isTextual_congr h]
  cases hv : v.text? with
  | none =>
    have hw : w.text? = none := by simpa [hv] using hsome.symm
    rw [hw]
  | some s =>
    obtain ⟨t, hw⟩ : ∃ t, w.text? = some t := Option.isSome_iff_exists.mp (by rw [← hsome, hv]; rfl)
    have hpattern : (Value.string (p.around s)).kind = (Value.string (p.around t)).kind := rfl
    rw [hw]
    simp only [Option.map_some, Fragment.skeleton_text, skeleton_operand column _ hpattern]

theorem skeleton_range (column : Column) (fold : Bool) {lo hi lo' hi' : Value}
    (hlo : lo.kind = lo'.kind) (hhi : hi.kind = hi'.kind) :
    (range column lo hi fold).fragment?.map Fragment.skeleton =
      (range column lo' hi' fold).fragment?.map Fragment.skeleton := by
  simp only [fragment?, Option.map_some, List.cons_append, Fragment.skeleton_text,
    Fragment.skeleton_append, Value.isTextual_congr hlo, Value.isTextual_congr hhi,
    skeleton_operand column _ hlo, skeleton_operand column _ hhi]

/-- operators alike have clauses with one skeleton: which shape an operator takes depends on the
kinds of its operands only -/
theorem skeleton_ofOperator (column : Column) (fold : Bool) {op op' : Operator} (h : op.Alike op') :
    (ofOperator column fold op).fragment?.map Fragment.skeleton =
      (ofOperator column fold op').fragment?.map Fragment.skeleton := by
  cases h with
  | @compare c v w h =>
    by_cases hnull : v = .null
    · have hw : w = .null := Value.kind_eq_null.mp (h.symm.trans (Value.kind_eq_null.mpr hnull))
      rw [hnull, hw]
    · have hw : w ≠ .null := fun hw => hnull <| Value.kind_eq_null.mp <|
        h.trans (Value.kind_eq_null.mpr hw)
      rw [ofOperator_compare hnull, ofOperator_compare hw]
      exact skeleton_comparison column c fold h
  | member negated h => exact skeleton_array column negated fold h
  | between hlo hhi => exact skeleton_range column fold hlo hhi
  | pattern p h => exact skeleton_pattern column p fold h

end Clause

theorem Constraint.skeleton_fragment? (name : String) {c c' : Constraint} (h : c.Alike c') :
    (c.fragment? name).map Fragment.skeleton = (c'.fragment? name).map Fragment.skeleton := by
  cases h with
  | @scalar v w h => cases v <;> cases w <;> first | rfl | cases h
  | list h => exact Clause.skeleton_array ⟨name, none⟩ false false h
  | bare fold collection => rfl
  | field fold collection h => exact Clause.skeleton_ofOperator ⟨name, collection⟩ fold h

/-! ## filters -/

theorem Fragment.map_skeleton_congr {fs gs : List Fragment}
    (h : List.Forall₂ (fun F G => F.skeleton = G.skeleton) fs gs) :
    fs.map skeleton = gs.map skeleton := by
  induction h with
  | nil => rfl
  | cons hfirst _ ih => rw [List.map_cons, List.map_cons, hfirst, ih]

theorem Filter.skeleton_fragments {f g : Filter} (h : Filter.Alike f g) :
    (Filter.fragments f).map Fragment.skeleton = (Filter.fragments g).map Fragment.skeleton := by
  refine Fragment.map_skeleton_congr (Filter.fold_rel ?_ ?_ h)
  · intro name c c' hc
    have hskeleton := Constraint.skeleton_fragment? name hc
    cases hF : c.fragment? name <;> cases hG : c'.fragment? name <;> rw [hF, hG] at hskeleton
    · exact .none
    · cases hskeleton
    · cases hskeleton
    · exact .some (Option.some.inj hskeleton)
  · intro op children children' hne hchildren
    have hsame : children.map (List.map Fragment.skeleton) =
        children'.map (List.map Fragment.skeleton) := by
      clear hne
      induction hchildren with
      | nil => rfl
      | cons hfirst _ ih =>
        rw [List.map_cons, List.map_cons, Fragment.map_skeleton_congr hfirst.2, ih]
    rw [Fragment.skeleton_ofGroup, Fragment.skeleton_ofGroup, hsame]

/-- **Values never influence the text beyond their kind.**  Filters that differ in values of the same
kinds are refused with the same error, or compile to the same text with the same parameter names. -/
theorem Filter.compile_alike {f g : Filter} (h : f.Alike g) (style : BindStyle) (max : Nat) :
    (f.compile style max).map (fun p => (p.sql, p.params.map Param.name)) =
      (g.compile style max).map fun p => (p.sql, p.params.map Param.name) := by
  have hskeleton : f.fragment.skeleton = g.fragment.skeleton := by
    rw [fragment, fragment, Fragment.skeleton_ofClauses, Fragment.skeleton_ofClauses,
      Filter.skeleton_fragments h]
  have htext : f.fragment.textFrom style 1 = g.fragment.textFrom style 1 := by
    rw [← Fragment.textFrom_skeleton, hskeleton, Fragment.textFrom_skeleton]
  have hfields : f.fragment.bindings.map Prod.fst = g.fragment.bindings.map Prod.fst := by
    rw [← Fragment.fields_skeleton, hskeleton, Fragment.fields_skeleton]
  rw [compile_eq, compile_eq, Filter.guard_rel max 1 h]
  cases Filter.guard max 1 g with
  | error e => rfl
  | ok _ =>
    simp only [Except.map, htext]
    rw [Param.names_number 1 _ _ hfields]

/-- a condition on a name and an age -/
def Filter.named (name : String) (age : Value) : Filter :=
  [.field "name" (some (.field ⟨some (.pattern .contains (.string name)), true, none⟩)),
    .group .not [[.field "age" (some (.list [age, .null]))]]]

theorem Filter.compile_alike_named :
    Filter.Alike (named "ann" (.int 7)) (named "') OR 1 = 1 --" (.boolean true)) ∧
      ((named "') OR 1 = 1 --" (.boolean true)).compile .dollar 2).map
        (fun p => (p.sql, p.params.map Param.name)) =
      .ok ("(LOWER(name) LIKE LOWER($1) AND NOT (age IN ($2, $3)))",
        ["_1_name", "_2_age", "_3_age"]) := by
  have halike : Filter.Alike (named "ann" (.int 7)) (named "') OR 1 = 1 --" (.boolean true)) :=
    .cons (.field (.field true none (.pattern .contains rfl))) <|
      .cons (.group .not (.cons (.cons (.field (.list rfl)) .nil) .nil)) .nil
  refine ⟨halike, ?_⟩
  rw [← compile_alike halike]
  rfl

end FilterSql
