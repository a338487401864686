import Mathlib.Logic.Relation
import FilterSql.Proofs.Depth

/-!
# Entries that say nothing

Some entries leave no clause: fields without a constraint or an operator, constraints that exclude no
values, patterns of values without a text, and groups of nothing else.  `Entry.isIdle` tells them by
their form, and they are all that there are (`Entry.isIdle_iff`).  A `Filter.Insertion` puts one such
entry, or one filter of such entries, anywhere into a filter.  It may make the filter deeper, but keeps
its clauses; so a filter compiles as it did before any number of insertions
(`Filter.compile_insertions`).
-/

namespace FilterSql

/-! ## idle entries -/

/-- the constraint has no operator, excludes no values, or is a pattern of a value without a text -/
def Constraint.isIdle : Constraint → Bool
  | .field ⟨none, _, _⟩ => true
  | .field ⟨some (.member true []), _, _⟩ => true
  | .field ⟨some (.pattern _ .null), _, _⟩ => true
  | .field ⟨some (.pattern _ (.bytes _)), _, _⟩ => true
  | _ => false

mutual

def Entry.isIdle : Entry → Bool
  | .field _ none => true
  | .field _ (some c) => c.isIdle
  | .group _ filters => Filter.areIdle filters

def Filter.isIdle : List Entry → Bool
  | [] => true
  | entry :: entries => entry.isIdle && Filter.isIdle entries

def Filter.areIdle : List (List Entry) → Bool
  | [] => true
  | f :: fs => Filter.isIdle f && Filter.areIdle fs

end

theorem Constraint.isIdle_iff (name : String) (c : Constraint) :
    c.isIdle = true ↔ c.fragment? name = none := by
  cases c with
  | scalar value => cases value <;> simp [isIdle, fragment?, Clause.ofConstraint?, Clause.fragment?]
  | list values => cases values <;> simp [isIdle, fragment?, Clause.ofConstraint?, Clause.fragment?]
  | field f =>
    obtain ⟨operator, fold, collection⟩ := f
    cases operator with
    | none => exact iff_of_true rfl rfl
    | some op =>
      cases op with
      | compare c value =>
        refine iff_of_false Bool.false_ne_true fun h => ?_
        cases c <;> cases value <;> cases h
      | member negated values =>
        cases negated <;> cases values <;>
          simp [isIdle, fragment?, Clause.ofConstraint?, Clause.ofOperator, Clause.fragment?]
      | between lo hi => exact iff_of_false Bool.false_ne_true (fun h => by cases h)
      | pattern position value =>
        cases value <;>
          simp [isIdle, fragment?, Clause.ofConstraint?, Clause.ofOperator, Clause.fragment?,
            Value.text?]

mutual

/-- an entry is idle exactly if it leaves no clause -/
theorem Entry.isIdle_iff : ∀ e : Entry, e.isIdle = true ↔ e.fragment? = none
  | .field _ none => iff_of_true rfl rfl
  | .field name (some c) => c.isIdle_iff name
  | .group op fs => by
    rw [Entry.isIdle, Filter.areIdle_iff, Entry.fragment?_group]
    cases Filter.childFragments fs with
    | nil => exact iff_of_true rfl rfl
    | cons first children => exact iff_of_false (List.cons_ne_nil _ _) (fun h => by cases h)

theorem Filter.isIdle_iff : ∀ f : List Entry, Filter.isIdle f = true ↔ Filter.fragments f = []
  | [] => iff_of_true rfl rfl
  | e :: f => by
    rw [Filter.isIdle, Bool.and_eq_true_iff, Entry.isIdle_iff, Filter.isIdle_iff,
      Filter.fragments_cons, List.append_eq_nil_iff, Option.toList_eq_nil_iff]

theorem Filter.areIdle_iff : ∀ fs : List (List Entry),
    Filter.areIdle fs = true ↔ Filter.childFragments fs = []
  | [] => iff_of_true rfl rfl
  | f :: fs => by
    rw [Filter.areIdle, Bool.and_eq_true_iff, Filter.isIdle_iff, Filter.areIdle_iff,
      Filter.childFragments_cons]
    cases Filter.fragments f with
    | nil => exact and_iff_right rfl
    | cons first clauses =>
      exact iff_of_false (fun h => by cases h.1) (List.cons_ne_nil _ _)

end

/-! ## insertions -/

/-- one idle entry more, or in a group one filter of idle entries more, at any level -/
inductive Filter.Insertion : Filter → Filter → Prop
  | entry (f g : Filter) {e : Entry} : e.isIdle = true →
      Filter.Insertion (f ++ g) (f ++ e :: g)
  | filter (f g : Filter) (op : Connective) (fs gs : List Filter) {new : Filter} :
      Filter.isIdle new = true →
      Filter.Insertion (f ++ .group op (fs ++ gs) :: g) (f ++ .group op (fs ++ new :: gs) :: g)
  | inside (f g : Filter) (op : Connective) (fs gs : List Filter) {old new : Filter} :
      Filter.Insertion old new →
      Filter.Insertion (f ++ .group op (fs ++ old :: gs) :: g)
        (f ++ .group op (fs ++ new :: gs) :: g)

/-- filters in a group that have the same clauses may stand for one another -/
theorem Filter.fragments_group {op : Connective} {fs gs : List Filter}
    (h : Filter.childFragments fs = Filter.childFragments gs) (f g : Filter) :
    Filter.fragments (f ++ .group op fs :: g) = Filter.fragments (f ++ .group op gs :: g) := by
  rw [fragments_append, fragments_append, fragments_cons, fragments_cons, Entry.fragment?_group,
    Entry.fragment?_group, h]

theorem Filter.Insertion.fragments_eq {f g : Filter} (h : f.Insertion g) :
    Filter.fragments f = Filter.fragments g := by
  induction h with
  | entry f g he =>
    rw [fragments_append, fragments_append, fragments_cons, (Entry.isIdle_iff _).mp he]
    rfl
  | filter f g op fs gs hnew =>
    refine fragments_group ?_ f g
    rw [childFragments_append, childFragments_append, childFragments_cons,
      (Filter.isIdle_iff _).mp hnew]
    rfl
  | inside f g op fs gs _ ih =>
    refine fragments_group ?_ f g
    rw [childFragments_append, childFragments_append, childFragments_cons, childFragments_cons, ih]

theorem Filter.Insertion.depth_le {f g : Filter} (h : f.Insertion g) :
    Filter.depth f ≤ Filter.depth g := by
  induction h with
  | entry f g _ =>
    rw [depth_append, depth_append, depth]
    omega
  | filter f g op fs gs _ =>
    simp only [depth_append, depth, Entry.depth, childDepth_append, childDepth]
    omega
  | inside f g op fs gs _ ih =>
    simp only [depth_append, depth, Entry.depth, childDepth_append, childDepth]
    omega

/-- any number of insertions keep the clauses, and make nothing less deep -/
theorem Filter.fragments_eq_of_insertions {f g : Filter}
    (h : Relation.ReflTransGen Filter.Insertion f g) :
    Filter.fragments f = Filter.fragments g ∧ Filter.depth f ≤ Filter.depth g := by
  induction h with
  | refl => exact ⟨rfl, Nat.le_refl _⟩
  | tail _ step ih => exact ⟨ih.1.trans step.fragments_eq, Nat.le_trans ih.2 step.depth_le⟩

/-- **What says nothing leaves no trace.**  If idle entries, and filters of idle entries in groups, are
inserted anywhere into a filter, and the result is not too deep, then the filter compiles before and
after to one text with the same parameters. -/
theorem Filter.compile_insertions {f g : Filter} (h : Relation.ReflTransGen Filter.Insertion f g)
    {limit : Nat} (hdepth : Filter.depth g ≤ max 1 limit) (style : BindStyle) :
    ∃ p, f.compile style limit = .ok p ∧ g.compile style limit = .ok p := by
  obtain ⟨hfragments, hle⟩ := Filter.fragments_eq_of_insertions h
  have hsame : f.fragment = g.fragment := congrArg Fragment.ofClauses hfragments
  refine ⟨_, Filter.compile_eq_ok.mpr ⟨Nat.le_trans hle hdepth, rfl⟩, ?_⟩
  rw [hsame]
  exact Filter.compile_eq_ok.mpr ⟨hdepth, rfl⟩

/-- one of two constraints, and a third -/
def Filter.sparse : Filter :=
  [.group .or [[.field "a" (some (.scalar (.int 1)))], [.field "b" (some (.scalar .null))]],
    .field "c" (some (.list [.int 2]))]

/-- the same with an unset field in a branch, a branch more of no exclusion, and a deep group that
excludes nothing -/
def Filter.padded : Filter :=
  [.group .not [[.group .and [[], [.field "(" none]]]],
    .group .or [[.field "a" (some (.scalar (.int 1)))],
      [.field "d" (some (.field ⟨some (.member true []), true, some "t"⟩))],
      [.field "d" none, .field "b" (some (.scalar .null))]],
    .field "c" (some (.list [.int 2]))]

theorem Filter.compile_insertions_padded :
    Relation.ReflTransGen Filter.Insertion sparse padded ∧ Filter.depth padded ≤ max 1 3 ∧
      ∃ p, sparse.compile .dollar 3 = .ok p ∧ padded.compile .dollar 3 = .ok p ∧
        p.sql = "((a = $1 OR b IS NULL) AND c IN ($2))" := by
  have hunset : Filter.Insertion sparse _ :=
    .inside [] _ .or [_] [] (.entry [] _ (e := .field "d" none) rfl)
  have hbranch : Filter.Insertion _ padded.tail := .filter [] _ .or [_] [_] rfl
  have hdeep : Filter.Insertion padded.tail padded := .entry [] _ rfl
  have hsteps : Relation.ReflTransGen Filter.Insertion sparse padded :=
    .head hunset (.head hbranch (.single hdeep))
  have hdepth : Filter.depth padded ≤ max 1 3 := by decide
  obtain ⟨p, hp, hp'⟩ := compile_insertions hsteps hdepth .dollar
  have hsql : (sparse.compile .dollar 3).map Predicate.sql =
      .ok "((a = $1 OR b IS NULL) AND c IN ($2))" := rfl
  rw [hp] at hsql
  exact ⟨hsteps, hdepth, p, hp, hp', Except.ok.inj hsql⟩

end FilterSql
