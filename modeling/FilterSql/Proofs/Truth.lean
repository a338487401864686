import FilterSql.Proofs.Readback

/-!
# Truth

Whoever writes a filter reads it as a Boolean expression in which to be one of no values is false and to
be none of them is true (`Filter.truth`).  The compiler writes `1 = 0` for the first, but leaves the
second out.  A conjunct that is true can be left out; a branch of an `OR` and the inside of a `NOT`
cannot.  So a compiled filter has the truth value of its expression if no `OR` loses only some of its
branches and no `NOT` loses its inside (`Filter.truth?_compile`), and may have the other one if not
(`Filter.truth?_compile_lostBranch`).
-/

namespace FilterSql

/-! ## filters as Boolean expressions -/

/-- the truth of an atom if tests of columns have the truth values `v` -/
def Atom.truth (v : Atom → Bool) : Atom → Bool
  | .never => false
  | a => v a

def Connective.truth : Connective → List Bool → Bool
  | .and, bs => bs.all id
  | .or, bs => bs.any id
  | .not, bs => !bs.all id

section
variable (v : Atom → Bool)

/-- to be one of no values is false, and to be none of them is true; else the test decides, if there is
one -/
def Constraint.truth (name : String) : Constraint → Bool
  | .list [] => false
  | .field ⟨some (.member negated []), _, _⟩ => negated
  | c => (c.atom? name).all (Atom.truth v)

mutual

def Entry.truth : Entry → Bool
  | .field _ none => true
  | .field name (some c) => c.truth v name
  | .group op filters => op.truth (Filter.childTruths filters)

def Filter.truth : List Entry → Bool
  | [] => true
  | entry :: entries => entry.truth && Filter.truth entries

def Filter.childTruths : List (List Entry) → List Bool
  | [] => []
  | f :: fs => Filter.truth f :: Filter.childTruths fs

end

/-- the truth of a predicate, read as SQL with its parameters; no text excludes nothing -/
def Predicate.truth? (p : Predicate) : Option Bool :=
  if p.sql = "" then some true
  else (readFormula? p.params p.sql).map fun φ => φ.eval Logic.twoValued (Atom.truth v)

end

/-! ## filters in which everything is said -/

/-- the constraint has an operator, and is no pattern of a value without a text -/
def Constraint.isDefinite : Constraint → Bool
  | .field ⟨none, _, _⟩ => false
  | .field ⟨some (.pattern _ .null), _, _⟩ => false
  | .field ⟨some (.pattern _ (.bytes _)), _, _⟩ => false
  | _ => true

mutual

def Entry.isDefinite : Entry → Bool
  | .field _ none => false
  | .field _ (some c) => c.isDefinite
  | .group _ filters => !filters.isEmpty && Filter.areDefinite filters

/-- no field is unset, no constraint says nothing, and no group in it and no filter in a group is
empty -/
def Filter.isDefinite : List Entry → Bool
  | [] => true
  | entry :: entries => entry.isDefinite && Filter.isDefinite entries

def Filter.areDefinite : List (List Entry) → Bool
  | [] => true
  | f :: fs => !f.isEmpty && Filter.isDefinite f && Filter.areDefinite fs

end

/-! ## what may be left out -/

/-- given which filters of the group are left out: an `OR` loses none or all, and a `NOT` not all -/
def Connective.dropsSafely : Connective → List Bool → Bool
  | .and, _ => true
  | .or, lost => lost.all id || !lost.any id
  | .not, lost => !lost.all id

mutual

def Entry.dropsSafely : Entry → Bool
  | .field _ _ => true
  | .group op filters =>
    op.dropsSafely (filters.map fun f => (Filter.meaning? f).isNone) &&
      Filter.allDropSafely filters

/-- in no group at any depth a filter is left out where that matters -/
def Filter.dropsSafely : List Entry → Bool
  | [] => true
  | entry :: entries => entry.dropsSafely && Filter.dropsSafely entries

def Filter.allDropSafely : List (List Entry) → Bool
  | [] => true
  | f :: fs => Filter.dropsSafely f && Filter.allDropSafely fs

end

/-! ## meaning and truth -/

section
variable (v : Atom → Bool)

/-- the truth of a meaning; what is left out is taken as true -/
def Formula.holds (φ? : Option (Formula Atom)) : Bool :=
  φ?.all fun φ => φ.eval Logic.twoValued (Atom.truth v)

theorem Formula.eval_foldl_and (φs : List (Formula Atom)) (φ : Formula Atom) :
    (φs.foldl .and φ).eval Logic.twoValued (Atom.truth v) =
      (φ.eval Logic.twoValued (Atom.truth v) && φs.all (Formula.holds v ∘ some)) := by
  induction φs generalizing φ with
  | nil => simp
  | cons ψ φs ih =>
    rw [List.foldl_cons, ih, List.all_cons, ← Bool.and_assoc]
    rfl

theorem Formula.eval_foldl_or (φs : List (Formula Atom)) (φ : Formula Atom) :
    (φs.foldl .or φ).eval Logic.twoValued (Atom.truth v) =
      (φ.eval Logic.twoValued (Atom.truth v) || φs.any (Formula.holds v ∘ some)) := by
  induction φs generalizing φ with
  | nil => simp
  | cons ψ φs ih =>
    rw [List.foldl_cons, ih, List.any_cons, ← Bool.or_assoc]
    rfl

theorem Formula.holds_all? (φs : List (Formula Atom)) :
    Formula.holds v (Formula.all? φs) = φs.all (Formula.holds v ∘ some) := by
  cases φs with
  | nil => rfl
  | cons φ φs => exact Formula.eval_foldl_and v φs φ

theorem Formula.holds_any? (φ : Formula Atom) (φs : List (Formula Atom)) :
    Formula.holds v (Formula.any? (φ :: φs)) = (φ :: φs).any (Formula.holds v ∘ some) :=
  Formula.eval_foldl_or v φs φ

theorem Filter.childMeanings_eq (fs : List (List Entry)) :
    Filter.childMeanings fs = fs.filterMap Filter.meaning? := by
  induction fs with
  | nil => rfl
  | cons f fs ih =>
    rw [Filter.childMeanings, ih, List.filterMap_cons, Filter.meaning?]
    cases Formula.all? (Filter.meanings f) <;> rfl

theorem Formula.all_holds (fs : List Filter) :
    (fs.filterMap Filter.meaning?).all (Formula.holds v ∘ some) =
      (fs.map fun f => Formula.holds v f.meaning?).all id := by
  induction fs with
  | nil => rfl
  | cons f fs ih =>
    rw [List.filterMap_cons, List.map_cons, List.all_cons, ← ih]
    cases Filter.meaning? f <;> rfl

theorem Formula.any_holds {fs : List Filter} (h : ∀ f ∈ fs, (Filter.meaning? f).isSome = true) :
    (fs.filterMap Filter.meaning?).any (Formula.holds v ∘ some) =
      (fs.map fun f => Formula.holds v f.meaning?).any id := by
  induction fs with
  | nil => rfl
  | cons f fs ih =>
    obtain ⟨hf, hfs⟩ := List.forall_mem_cons.mp h
    obtain ⟨φ, hφ⟩ := Option.isSome_iff_exists.mp hf
    rw [List.filterMap_cons, List.map_cons, List.any_cons, ← ih hfs, hφ]
    rfl

/-- a group that loses nothing that matters keeps its truth value -/
theorem Connective.truth_eq (op : Connective) {fs : List Filter} (hne : fs ≠ [])
    (hsafe : op.dropsSafely (fs.map fun f => (Filter.meaning? f).isNone) = true) :
    op.truth (fs.map fun f => Formula.holds v f.meaning?) =
      Formula.holds v (op.combine? (fs.filterMap Filter.meaning?)) := by
  obtain ⟨f, fs, rfl⟩ := List.exists_cons_of_ne_nil hne
  cases op with
  | and =>
    rw [combine?, Formula.holds_all?, Formula.all_holds]
    rfl
  | or =>
    rcases Bool.or_eq_true_iff.mp hsafe with hall | hnone
    · -- nothing is left of the group, and each of its filters is true
      have hlost : ∀ g ∈ f :: fs, Filter.meaning? g = none := by simpa using hall
      rw [List.filterMap_eq_nil_iff.mpr hlost, List.map_cons, hlost f List.mem_cons_self]
      rfl
    · have hkept : ∀ g ∈ f :: fs, (Filter.meaning? g).isSome = true := by
        simpa [Option.isSome_iff_ne_none] using hnone
      obtain ⟨φ, hφ⟩ := Option.isSome_iff_exists.mp (hkept f List.mem_cons_self)
      have hany := Formula.any_holds v hkept
      rw [List.filterMap_cons, hφ] at hany ⊢
      rw [combine?, Formula.holds_any?, hany]
      rfl
  | not =>
    -- something is left, so the `NOT` has a clause
    obtain ⟨φ, hφ⟩ : ∃ φ, Formula.all? ((f :: fs).filterMap Filter.meaning?) = some φ := by
      refine Option.ne_none_iff_exists'.mp fun hnil => ?_
      rw [Formula.all?, Formula.chain?_eq_none, List.filterMap_eq_nil_iff] at hnil
      have hlost : ((f :: fs).map fun g => (Filter.meaning? g).isNone).all id = true := by
        simpa using hnil
      rw [dropsSafely, hlost] at hsafe
      cases hsafe
    have hall := Formula.holds_all? v ((f :: fs).filterMap Filter.meaning?)
    rw [Formula.all_holds, hφ] at hall
    rw [combine?, hφ, truth, ← hall]
    rfl

/-! ## the truth of what is left -/

theorem Constraint.truth_eq (name : String) (c : Constraint) :
    c.truth v name = Formula.holds v ((c.atom? name).map .atom) := by
  have hatom : Formula.holds v ((c.atom? name).map .atom) = (c.atom? name).all (Atom.truth v) := by
    cases c.atom? name <;> rfl
  rw [hatom]
  fun_cases Constraint.truth v name c with
  | case1 => rfl
  | case2 negated => cases negated <;> rfl
  | case3 => rfl

mutual

theorem Entry.truth_eq : ∀ {e : Entry}, e.isDefinite = true → e.dropsSafely = true →
    e.truth v = Formula.holds v e.meaning?
  | .field _ none, _, _ => rfl
  | .field name (some c), _, _ => c.truth_eq v name
  | .group op fs, hdef, hsafe => by
    rw [Entry.isDefinite, Bool.and_eq_true_iff, Bool.not_eq_true', List.isEmpty_eq_false_iff] at hdef
    rw [Entry.dropsSafely, Bool.and_eq_true_iff] at hsafe
    rw [Entry.truth, Entry.meaning?, Filter.childMeanings_eq, Filter.childTruths_eq hdef.2 hsafe.2]
    exact op.truth_eq v hdef.1 hsafe.1

/-- the truth of a filter is that of what is left of it -/
theorem Filter.truth_eq : ∀ {f : List Entry}, Filter.isDefinite f = true →
    Filter.dropsSafely f = true → Filter.truth v f = Formula.holds v (Filter.meaning? f)
  | [], _, _ => rfl
  | e :: f, hdef, hsafe => by
    rw [Filter.isDefinite, Bool.and_eq_true_iff] at hdef
    rw [Filter.dropsSafely, Bool.and_eq_true_iff] at hsafe
    have hrest := Filter.truth_eq hdef.2 hsafe.2
    rw [Filter.meaning?, Formula.holds_all?] at hrest ⊢
    rw [Filter.truth, hrest, Entry.truth_eq hdef.1 hsafe.1, Filter.meanings]
    -- an entry without a meaning counts as true on both sides
    cases e.meaning? <;> rfl

theorem Filter.childTruths_eq : ∀ {fs : List (List Entry)}, Filter.areDefinite fs = true →
    Filter.allDropSafely fs = true →
      Filter.childTruths v fs = fs.map fun f => Formula.holds v (Filter.meaning? f)
  | [], _, _ => rfl
  | f :: fs, hdef, hsafe => by
    rw [Filter.areDefinite, Bool.and_eq_true_iff, Bool.and_eq_true_iff] at hdef
    rw [Filter.allDropSafely, Bool.and_eq_true_iff] at hsafe
    rw [Filter.childTruths, List.map_cons, Filter.truth_eq hdef.1.2 hsafe.1,
      Filter.childTruths_eq hdef.2 hsafe.2]

end

/-! ## compiled filters -/

/-- the predicate of a filter has the truth of what is left of the filter -/
theorem Filter.truth?_compile_eq_holds {style : BindStyle} {limit : Nat} {f : Filter} {p : Predicate}
    (hplain : f.Plain) (h : f.compile style limit = .ok p) :
    p.truth? v = some (Formula.holds v f.meaning?) := by
  have hreads := Filter.reads_fragments hplain
  rw [Filter.eq_of_compile h]
  cases hφ : f.meaning? with
  | none =>
    rw [Filter.meaning?, Formula.all?, Formula.chain?_eq_none] at hφ
    rw [hφ] at hreads
    rw [fragment, List.forall₂_nil_right_iff.mp hreads]
    rfl
  | some φ =>
    have hread : ∃ ψ, FilterSql.readFormula? (Param.number 1 f.fragment.bindings)
        (f.fragment.textFrom style 1) = some ψ ∧ ψ.Equiv φ :=
      (readsAll_of_forall₂ hreads hφ).ofClauses.readFormula? style
    obtain ⟨ψ, hψ, hequiv⟩ := hread
    have hne : f.fragment.textFrom style 1 ≠ "" := by
      intro hempty
      rw [hempty] at hψ
      cases hψ
    rw [Predicate.truth?, if_neg hne, hψ, Option.map_some, hequiv]
    rfl

/-- **A compiled filter says what the filter says, if nothing is lost that matters.**  Under every
assignment of truth values to the tests, the predicate has the value of the filter as a Boolean
expression, provided that no `OR` in it loses only some of its branches to constraints without a clause,
and no `NOT` its inside. -/
theorem Filter.truth?_compile {style : BindStyle} {limit : Nat} {f : Filter} {p : Predicate}
    (hplain : f.Plain) (hdef : Filter.isDefinite f = true) (hsafe : Filter.dropsSafely f = true)
    (h : f.compile style limit = .ok p) : p.truth? v = some (Filter.truth v f) := by
  rw [Filter.truth?_compile_eq_holds v hplain h, Filter.truth_eq v hdef hsafe]

end

/-- none of no values beside another constraint, under `NOT` and in a branch of an `OR` -/
def Filter.exclusions : Filter :=
  let none := Constraint.field ⟨some (.member true []), false, Option.none⟩
  let one := Constraint.scalar (.int 1)
  [.field "a" (some none),
    .group .not [[.field "b" (some none), .field "c" (some one)]],
    .group .or [[.field "d" (some none), .field "e" (some (.list []))], [.field "f" (some one)]]]

theorem Filter.truth?_compile_exclusions : Filter.dropsSafely exclusions = true ∧
    ∃ p, exclusions.compile .question 2 = .ok p ∧
      p.sql = "(NOT (c = ?) AND (1 = 0 OR f = ?))" ∧
        ∀ v, p.truth? v = some (Filter.truth v exclusions) := by
  have hok : ∃ p, exclusions.compile .question 2 = .ok p ∧
      p.sql = "(NOT (c = ?) AND (1 = 0 OR f = ?))" := ⟨_, rfl, by decide⟩
  obtain ⟨p, hp, hsql⟩ := hok
  exact ⟨by decide, p, hp, hsql, fun v => truth?_compile v (by decide) (by decide) (by decide) hp⟩

/-- any of: none of no values, which is true, and one of no values -/
def Filter.lostBranch : Filter :=
  [.group .or [[.field "a" (some (.field ⟨some (.member true []), false, none⟩))],
    [.field "a" (some (.field ⟨some (.member false []), false, none⟩))]]]

/-- the branch that is true is left out, and what remains never holds -/
theorem Filter.truth?_compile_lostBranch : lostBranch.Plain ∧ Filter.isDefinite lostBranch = true ∧
    ∃ p, lostBranch.compile .question 2 = .ok p ∧ p.sql = "(1 = 0)" ∧
      ∀ v, Filter.truth v lostBranch = true ∧ p.truth? v = some false := by
  have hok : ∃ p, lostBranch.compile .question 2 = .ok p ∧ p.sql = "(1 = 0)" :=
    ⟨_, rfl, by decide⟩
  obtain ⟨p, hp, hsql⟩ := hok
  refine ⟨by decide, by decide, p, hp, hsql, fun v => ⟨rfl, ?_⟩⟩
  rw [truth?_compile_eq_holds v (by decide) hp]
  rfl

end FilterSql
