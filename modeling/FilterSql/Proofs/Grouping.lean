import FilterSql.Proofs.Balance
import FilterSql.Proofs.Depth

/-!
# Groups that change nothing

An `AND` group says what the entries of its filters say, and a group of one filter under `AND` or `OR`
says what that filter says.  The text is the same as well (`Filter.compile_regrouped`): a group of
several clauses brings its own pair of brackets, the whole predicate needs one, and the bracket scan
finds that the pair is there already.  For this the clauses have to be balanced, so names must not have
brackets.  A group costs one level of depth.
-/

namespace FilterSql

/-- no name of a field or of a collection in the filter has a bracket -/
def Filter.Unbracketed (f : Filter) : Prop :=
  ∀ x ∈ Filter.fields f, Bare x.1.toList ∧ ∀ s ∈ x.2.collection?, Bare s.toList

instance (f : Filter) : Decidable f.Unbracketed :=
  inferInstanceAs
    (Decidable (∀ x ∈ Filter.fields f, Bare x.1.toList ∧ ∀ s ∈ x.2.collection?, Bare s.toList))

/-- the filter inside of groups of one filter each, the outermost one first -/
def Filter.wrapped (f : Filter) : List Connective → Filter
  | [] => f
  | op :: ops => [.group op [Filter.wrapped f ops]]

/-! ## clauses in a group -/

/-- a clause that is one group needs no brackets of its own -/
theorem Fragment.ofClauses_singleton {F : Fragment} (h : F.isSingleGroup = true) :
    ofClauses [F] = F := by
  show (if (true && F.isSingleGroup) = true then F else F.bracket) = F
  rw [h]
  rfl

/-- balanced clauses that are put into a group first make the same predicate -/
theorem Fragment.ofClauses_joinBracketed {fs : List Fragment} (hne : fs ≠ [])
    (h : ∀ F ∈ fs, F.IsBalanced) : ofClauses [joinBracketed " AND " fs] = ofClauses fs := by
  have hsingle : (join " AND " fs).bracket.isSingleGroup = true :=
    (IsBalanced.join bare_and h).isSingleGroup_bracket .question 1
  match fs, hne with
  | [F], _ => rfl
  | F :: G :: fs, _ =>
    -- the pair of the group is recognized on the left, and added on the right
    have hleft : joinBracketed " AND " (F :: G :: fs) = (join " AND " (F :: G :: fs)).bracket := by
      unfold joinBracketed
      exact if_pos (Nat.succ_lt_succ (Nat.succ_pos _))
    have hright : ofClauses (F :: G :: fs) = (join " AND " (F :: G :: fs)).bracket := by
      simp [ofClauses]
    rw [hleft, hright, Fragment.ofClauses_singleton hsingle]

theorem Filter.flatten_childFragments (fs : List Filter) :
    (Filter.childFragments fs).flatten = Filter.fragments fs.flatten := by
  induction fs with
  | nil => rfl
  | cons f fs ih =>
    rw [List.flatten_cons, Filter.fragments_append, ← ih, Filter.childFragments_cons]
    cases hf : Filter.fragments f with
    | nil => rfl
    | cons F Fs => rfl

theorem Filter.flatten_childFragments_eq_nil {fs : List Filter} :
    (Filter.childFragments fs).flatten = [] ↔ Filter.childFragments fs = [] := by
  induction fs with
  | nil => exact iff_of_true rfl rfl
  | cons f fs ih =>
    rw [Filter.childFragments_cons]
    cases hf : Filter.fragments f with
    | nil => exact ih
    | cons F Fs => exact iff_of_false (List.cons_ne_nil _ _) (List.cons_ne_nil _ _)

theorem Filter.unbracketed_flatten {fs : List Filter} (h : ∀ f ∈ fs, Filter.Unbracketed f) :
    Filter.Unbracketed fs.flatten := by
  induction fs with
  | nil =>
    intro x hx
    cases hx
  | cons f fs ih =>
    obtain ⟨hf, hfs⟩ := List.forall_mem_cons.mp h
    intro x hx
    rw [List.flatten_cons, Filter.fields_append] at hx
    rcases List.mem_append.mp hx with hx | hx
    · exact hf x hx
    · exact ih hfs x hx

theorem Filter.Unbracketed.balanced {f : Filter} (hf : f.Unbracketed) :
    ∀ F ∈ Filter.fragments f, F.IsBalanced :=
  Filter.balanced_fragments_of_bare fun x hx => Column.bare_text (hf x hx).1 (hf x hx).2

/-- an `AND` group has the predicate of all entries of its filters -/
theorem Filter.fragment_and {fs : List Filter} (h : Filter.Unbracketed fs.flatten) :
    Filter.fragment [.group .and fs] = Filter.fragment fs.flatten := by
  have hflat := Filter.flatten_childFragments fs
  have hclauses : Filter.fragments [.group .and fs] =
      (if (Filter.childFragments fs).isEmpty then none
        else some (Fragment.ofGroup .and (Filter.childFragments fs))).toList ++ [] := rfl
  unfold Filter.fragment
  rw [hclauses, List.append_nil]
  by_cases hnil : Filter.childFragments fs = []
  · rw [← hflat, hnil]
    rfl
  · have hne : Filter.fragments fs.flatten ≠ [] := by
      rw [← hflat]
      exact mt Filter.flatten_childFragments_eq_nil.mp hnil
    rw [if_neg (by simpa using hnil), Fragment.ofGroup, hflat]
    exact Fragment.ofClauses_joinBracketed hne h.balanced

/-- a group of one filter is the same under `AND` and under `OR` -/
theorem Filter.fragment_or (f : Filter) :
    Filter.fragment [.group .or [f]] = Filter.fragment [.group .and [f]] := by
  have hchild : Filter.childFragments [f] =
      if (Filter.fragments f).isEmpty then [] else [Filter.fragments f] := rfl
  have hgroup : (Entry.group .or [f]).fragment? = (Entry.group .and [f]).fragment? := by
    rw [Entry.fragment?_group, Entry.fragment?_group, hchild]
    split
    · rfl
    · simp [Fragment.ofGroup, Fragment.joinBracketed, Fragment.join]
  unfold Filter.fragment
  rw [Filter.fragments_cons, hgroup, ← Filter.fragments_cons]

/-! ## levels -/

theorem Filter.depth_flatten (fs : List Filter) :
    Filter.depth fs.flatten = max 1 (Filter.childDepth fs) := by
  induction fs with
  | nil => rfl
  | cons f fs ih =>
    rw [List.flatten_cons, Filter.depth_append, ih, Filter.childDepth]
    have hf := Filter.one_le_depth f
    omega

/-- a group is one level deeper than its filters, so it needs one level more -/
theorem Filter.depth_group_le {op : Connective} {fs : List Filter} {limit : Nat} (h : 1 ≤ limit) :
    Filter.depth [.group op fs] ≤ max 1 (limit + 1) ↔ Filter.depth fs.flatten ≤ max 1 limit := by
  have hgroup : Filter.depth [.group op fs] = max (Filter.childDepth fs + 1) 1 := rfl
  rw [hgroup, Filter.depth_flatten]
  omega

/-! ## compiling -/

section
variable {style : BindStyle} {limit : Nat} {p : Predicate}

theorem Filter.compile_and {fs : List Filter} (h : ∀ f ∈ fs, Filter.Unbracketed f)
    (hlimit : 1 ≤ limit) : Filter.compile style (limit + 1) [.group .and fs] = .ok p ↔
      Filter.compile style limit fs.flatten = .ok p := by
  rw [Filter.compile_eq_ok, Filter.compile_eq_ok, Filter.depth_group_le hlimit,
    Filter.fragment_and (Filter.unbracketed_flatten h)]

theorem Filter.compile_single {f : Filter} (h : f.Unbracketed) (hlimit : 1 ≤ limit)
    {op : Connective} (hop : op ≠ .not) :
    Filter.compile style (limit + 1) [.group op [f]] = .ok p ↔ f.compile style limit = .ok p := by
  have hand : Filter.compile style (limit + 1) [.group .and [f]] = .ok p ↔
      f.compile style limit = .ok p := by
    have hflat : [f].flatten = f := List.flatten_singleton
    rw [Filter.compile_and (List.forall_mem_singleton.mpr h) hlimit, hflat]
  cases op with
  | and => exact hand
  | or =>
    rw [← hand, Filter.compile_eq_ok, Filter.compile_eq_ok, Filter.fragment_or]
    rfl
  | not => exact absurd rfl hop

theorem Filter.fields_wrapped (f : Filter) (ops : List Connective) :
    Filter.fields (f.wrapped ops) = Filter.fields f := by
  induction ops with
  | nil => rfl
  | cons op ops ih =>
    show (Filter.fields (f.wrapped ops) ++ []) ++ [] = _
    rw [List.append_nil, List.append_nil, ih]

/-- any number of groups of one filter each costs as many levels, and nothing else -/
theorem Filter.compile_wrapped {f : Filter} (h : f.Unbracketed) (hlimit : 1 ≤ limit)
    {ops : List Connective} (hops : .not ∉ ops) :
    (f.wrapped ops).compile style (limit + ops.length) = .ok p ↔
      f.compile style limit = .ok p := by
  induction ops with
  | nil => exact Iff.rfl
  | cons op ops ih =>
    obtain ⟨hop, hrest⟩ := List.ne_and_not_mem_of_not_mem_cons hops
    have hinner : (f.wrapped ops).Unbracketed := by
      unfold Filter.Unbracketed
      rw [Filter.fields_wrapped]
      exact h
    have hlevels : 1 ≤ limit + ops.length := by omega
    rw [← ih hrest]
    exact Filter.compile_single hinner hlevels hop.symm

end

/-- **Grouping by `AND` is flattening, and groups of one filter are transparent.**  If no name has a
bracket, an `AND` group compiles with one level more exactly if the entries of its filters compile
together, and to the same text and parameters; so does a single filter inside an `OR` group, and inside of
any number of `AND` and `OR` groups with a level more for each. -/
theorem Filter.compile_regrouped (style : BindStyle) {limit : Nat} (hlimit : 1 ≤ limit) :
    (∀ fs : List Filter, (∀ f ∈ fs, Filter.Unbracketed f) → ∀ p,
      Filter.compile style (limit + 1) [.group .and fs] = .ok p ↔
        Filter.compile style limit fs.flatten = .ok p) ∧
    (∀ f : Filter, f.Unbracketed → ∀ p,
      Filter.compile style (limit + 1) [.group .or [f]] = .ok p ↔ f.compile style limit = .ok p) ∧
    (∀ f : Filter, f.Unbracketed → ∀ ops : List Connective, .not ∉ ops → ∀ p,
      (f.wrapped ops).compile style (limit + ops.length) = .ok p ↔ f.compile style limit = .ok p) := by
  refine ⟨fun fs h p => ?_, fun f h p => ?_, fun f h ops hops p => ?_⟩
  · exact Filter.compile_and h hlimit
  · exact Filter.compile_single h hlimit nofun
  · exact Filter.compile_wrapped h hlimit hops

/-- two filters whose clauses have brackets of their own -/
def Filter.folders : List Filter :=
  [[.field "a b" (some (.list [.int 1, .int 2]))],
    [.field "c" (some (.field ⟨some (.pattern .contains (.string "x")), true, some "t"⟩)),
      .group .or [[.field "a b" (some (.scalar .null))], [.field "d" (some (.list []))]]]]

theorem Filter.compile_regrouped_folders : 1 ≤ 2 ∧ (∀ f ∈ folders, Filter.Unbracketed f) ∧
    ∃ p, Filter.compile .colon 3 [.group .and folders] = .ok p ∧
      Filter.compile .colon 2 folders.flatten = .ok p ∧
      (Filter.wrapped folders.flatten [.or, .and, .or]).compile .colon 5 = .ok p ∧
      p.sql = "(a b IN (:_1_a_b, :_2_a_b) AND LOWER(t.c) LIKE LOWER(:_3_c) AND " ++
        "(a b IS NULL OR 1 = 0))" := by
  have hbare : ∀ f ∈ folders, Filter.Unbracketed f := by decide
  have hok : ∃ p, Filter.compile .colon 2 folders.flatten = .ok p ∧
      p.sql = "(a b IN (:_1_a_b, :_2_a_b) AND LOWER(t.c) LIKE LOWER(:_3_c) AND " ++
        "(a b IS NULL OR 1 = 0))" := ⟨_, rfl, by decide⟩
  obtain ⟨p, hp, hsql⟩ := hok
  obtain ⟨hand, -, hwrapped⟩ := Filter.compile_regrouped .colon (show 1 ≤ 2 by decide)
  refine ⟨by decide, hbare, p, (hand folders hbare p).mpr hp, hp, ?_, hsql⟩
  exact (hwrapped folders.flatten (by decide) [.or, .and, .or] (by decide) p).mpr hp

end FilterSql
