import Mathlib.Data.List.Forall2
import FilterSql.Proofs.Fragment

/-!
# Folding a filter

Compiling a filter does two things that do not depend on each other: `Filter.guard` looks for a group
that nests too deep, and `Filter.fold` puts the clauses together, from the leaves up.  What filters of
one shape fold to is related as soon as it is so at the leaves and each group keeps it
(`Filter.fold_rel`).  A property of fragments that groups keep (`Fragment.Stable`) holds of a whole
filter if it holds of the clauses of its constraints.
-/

set_option linter.unusedSectionVars false

namespace FilterSql

/-! ## constraints in document order -/

mutual

/-- the constraints inside an entry, each with its field -/
def Entry.fields : Entry → List (String × Constraint)
  | .field _ none => []
  | .field name (some c) => [(name, c)]
  | .group _ filters => Filter.childFields filters

def Filter.fields : List Entry → List (String × Constraint)
  | [] => []
  | entry :: entries => entry.fields ++ Filter.fields entries

def Filter.childFields : List (List Entry) → List (String × Constraint)
  | [] => []
  | f :: fs => Filter.fields f ++ Filter.childFields fs

end

theorem Filter.fields_append (f g : List Entry) :
    Filter.fields (f ++ g) = Filter.fields f ++ Filter.fields g := by
  induction f with
  | nil => rfl
  | cons e f ih => rw [List.cons_append, Filter.fields, ih, Filter.fields, List.append_assoc]

/-! ## the depth guard -/

mutual

/-- refuses an entry at `depth` that has a group with filters below the depth `max` -/
def Entry.guard (max depth : Nat) : Entry → Except DepthError Unit
  | .field _ _ => .ok ()
  | .group _ [] => .ok ()
  | .group op (f :: fs) =>
    if max < depth + 1 then .error ⟨max, op⟩ else Filter.childGuard max (depth + 1) (f :: fs)

/-- refuses a filter at `depth` with the first of its groups that nests too deep -/
def Filter.guard (max depth : Nat) : List Entry → Except DepthError Unit
  | [] => .ok ()
  | entry :: entries => do
    entry.guard max depth
    Filter.guard max depth entries

def Filter.childGuard (max depth : Nat) : List (List Entry) → Except DepthError Unit
  | [] => .ok ()
  | f :: fs => do
    Filter.guard max depth f
    Filter.childGuard max depth fs

end

/-! ## folding -/

section
variable {α : Type} (leaf : String → Constraint → Option α) (node : Connective → List (List α) → α)

mutual

/-- what becomes of an entry, from its leaves and nodes; nothing if no leaf in it gives anything -/
def Entry.fold : Entry → Option α
  | .field _ none => none
  | .field name (some c) => leaf name c
  | .group op filters =>
    let children := Filter.childFold filters
    if children.isEmpty then none else some (node op children)

def Filter.fold : List Entry → List α
  | [] => []
  | entry :: entries => entry.fold.toList ++ Filter.fold entries

/-- what becomes of some filters, without those that give nothing -/
def Filter.childFold : List (List Entry) → List (List α)
  | [] => []
  | f :: fs =>
    let first := Filter.fold f
    if first.isEmpty then Filter.childFold fs else first :: Filter.childFold fs

end

end

/-! ## the clauses of a filter -/

/-- the clause of an entry, whatever its depth -/
def Entry.fragment? (e : Entry) : Option Fragment :=
  e.fold (fun name c => c.fragment? name) Fragment.ofGroup

def Filter.fragments (f : Filter) : List Fragment :=
  Filter.fold (fun name c => c.fragment? name) Fragment.ofGroup f

def Filter.fragment (f : Filter) : Fragment := Fragment.ofClauses (Filter.fragments f)

def Filter.childFragments (fs : List (List Entry)) : List (List Fragment) :=
  Filter.childFold (fun name c => c.fragment? name) Fragment.ofGroup fs

theorem Entry.fragment?_group (op : Connective) (fs : List (List Entry)) :
    (Entry.group op fs).fragment? =
      if (Filter.childFragments fs).isEmpty then none
      else some (Fragment.ofGroup op (Filter.childFragments fs)) := rfl

theorem Filter.fragments_cons (e : Entry) (f : List Entry) :
    Filter.fragments (e :: f) = e.fragment?.toList ++ Filter.fragments f := rfl

theorem Filter.childFragments_cons (f : List Entry) (fs : List (List Entry)) :
    Filter.childFragments (f :: fs) =
      if (Filter.fragments f).isEmpty then Filter.childFragments fs
      else Filter.fragments f :: Filter.childFragments fs := rfl

theorem Filter.fragments_append (f g : List Entry) :
    Filter.fragments (f ++ g) = Filter.fragments f ++ Filter.fragments g := by
  induction f with
  | nil => rfl
  | cons e f ih =>
    rw [List.cons_append, Filter.fragments_cons, ih, Filter.fragments_cons, List.append_assoc]

theorem Filter.childFragments_append (fs gs : List (List Entry)) :
    Filter.childFragments (fs ++ gs) = Filter.childFragments fs ++ Filter.childFragments gs := by
  induction fs with
  | nil => rfl
  | cons f fs ih =>
    rw [List.cons_append, Filter.childFragments_cons, ih, Filter.childFragments_cons]
    split <;> rfl

/-! ## filters of one shape -/

section
variable (S : String → Constraint → Constraint → Prop)

mutual

/-- entries of one shape, with related constraints on the same fields -/
inductive Entry.Rel : Entry → Entry → Prop
  | unset (name : String) : Entry.Rel (.field name none) (.field name none)
  | field {name : String} {c c' : Constraint} :
    S name c c' → Entry.Rel (.field name (some c)) (.field name (some c'))
  | group (op : Connective) {fs gs : List (List Entry)} :
    Filter.ChildRel fs gs → Entry.Rel (.group op fs) (.group op gs)

inductive Filter.Rel : List Entry → List Entry → Prop
  | nil : Filter.Rel [] []
  | cons {d e : Entry} {f g : List Entry} :
    Entry.Rel d e → Filter.Rel f g → Filter.Rel (d :: f) (e :: g)

inductive Filter.ChildRel : List (List Entry) → List (List Entry) → Prop
  | nil : Filter.ChildRel [] []
  | cons {f g : List Entry} {fs gs : List (List Entry)} :
    Filter.Rel f g → Filter.ChildRel fs gs → Filter.ChildRel (f :: fs) (g :: gs)

end

end

section
variable {S : String → Constraint → Constraint → Prop}

mutual

theorem Entry.rel_self : ∀ {e : Entry}, (∀ x ∈ e.fields, S x.1 x.2 x.2) → e.Rel S e
  | .field name none, _ => .unset name
  | .field name (some c), h => .field (h (name, c) (List.mem_singleton.mpr rfl))
  | .group op _, h => .group op (Filter.childRel_self h)

theorem Filter.rel_self : ∀ {f : List Entry}, (∀ x ∈ Filter.fields f, S x.1 x.2 x.2) →
    Filter.Rel S f f
  | [], _ => .nil
  | _ :: _, h => .cons (Entry.rel_self fun x hx => h x (List.mem_append_left _ hx))
      (Filter.rel_self fun x hx => h x (List.mem_append_right _ hx))

theorem Filter.childRel_self : ∀ {fs : List (List Entry)},
    (∀ x ∈ Filter.childFields fs, S x.1 x.2 x.2) → Filter.ChildRel S fs fs
  | [], _ => .nil
  | _ :: _, h => .cons (Filter.rel_self fun x hx => h x (List.mem_append_left _ hx))
      (Filter.childRel_self fun x hx => h x (List.mem_append_right _ hx))

end

/-! ## the guard sees the shape only -/

mutual

theorem Entry.guard_rel (max depth : Nat) {d e : Entry} :
    d.Rel S e → d.guard max depth = e.guard max depth
  | .unset _ => rfl
  | .field _ => rfl
  | .group _ .nil => rfl
  | .group op (.cons h hs) => by
    simp only [Entry.guard]
    rw [Filter.childGuard_rel max (depth + 1) (.cons h hs)]

theorem Filter.guard_rel (max depth : Nat) {f g : List Entry} :
    Filter.Rel S f g → Filter.guard max depth f = Filter.guard max depth g
  | .nil => rfl
  | .cons h hs => by
    simp only [Filter.guard]
    rw [Entry.guard_rel max depth h, Filter.guard_rel max depth hs]

theorem Filter.childGuard_rel (max depth : Nat) {fs gs : List (List Entry)} :
    Filter.ChildRel S fs gs → Filter.childGuard max depth fs = Filter.childGuard max depth gs
  | .nil => rfl
  | .cons h hs => by
    simp only [Filter.childGuard]
    rw [Filter.guard_rel max depth h, Filter.childGuard_rel max depth hs]

end

/-! ## what folds of one shape have in common -/

variable {α β : Type} {leaf : String → Constraint → Option α} {node : Connective → List (List α) → α}
  {leaf' : String → Constraint → Option β} {node' : Connective → List (List β) → β}
  {R : α → β → Prop}
  (hleaf : ∀ name c c', S name c c' → Option.Rel R (leaf name c) (leaf' name c'))
  (hnode : ∀ op children children', children ≠ [] →
    List.Forall₂ (fun x y => x ≠ [] ∧ List.Forall₂ R x y) children children' →
      R (node op children) (node' op children'))
include hleaf hnode

-- An entry is left out in both runs or in neither, so in the mixed cases there is nothing to relate.
mutual

theorem Entry.fold_rel {d e : Entry} :
    d.Rel S e → Option.Rel R (d.fold leaf node) (e.fold leaf' node')
  | .unset _ => .none
  | .field h => hleaf _ _ _ h
  | .group op h => by
    have hchildren := Filter.childFold_rel h
    simp only [Entry.fold]
    revert hchildren
    cases Filter.childFold leaf node _ <;> cases Filter.childFold leaf' node' _ <;>
      intro hchildren
    · exact .none
    · cases hchildren
    · cases hchildren
    · exact .some (hnode op _ _ (List.cons_ne_nil _ _) hchildren)

/-- filters of one shape fold to related lists if their leaves are related and the nodes keep it -/
theorem Filter.fold_rel {f g : List Entry} :
    Filter.Rel S f g → List.Forall₂ R (Filter.fold leaf node f) (Filter.fold leaf' node' g)
  | .nil => .nil
  | .cons (d := d) (e := e) h hs => by
    have hrest := Filter.fold_rel hs
    have hfirst := Entry.fold_rel h
    simp only [Filter.fold]
    revert hfirst
    cases d.fold leaf node <;> cases e.fold leaf' node' <;> intro hfirst <;> cases hfirst
    · exact hrest
    · rename_i hR
      exact .cons hR hrest

theorem Filter.childFold_rel {fs gs : List (List Entry)} :
    Filter.ChildRel S fs gs → List.Forall₂ (fun x y => x ≠ [] ∧ List.Forall₂ R x y)
      (Filter.childFold leaf node fs) (Filter.childFold leaf' node' gs)
  | .nil => .nil
  | .cons (f := f) (g := g) h hs => by
    have hrest := Filter.childFold_rel hs
    have hfirst := Filter.fold_rel h
    simp only [Filter.childFold]
    revert hfirst
    cases Filter.fold leaf node f <;> cases Filter.fold leaf' node' g <;> intro hfirst
    · exact hrest
    · cases hfirst
    · cases hfirst
    · exact .cons ⟨List.cons_ne_nil _ _, hfirst⟩ hrest

end

end

/-- what holds at the leaves of a filter and is kept by the nodes holds of all that it folds to -/
theorem Filter.fold_forall {α : Type} {leaf : String → Constraint → Option α}
    {node : Connective → List (List α) → α} {P : α → Prop} {f : Filter}
    (hleaf : ∀ name c, (name, c) ∈ Filter.fields f → ∀ a, leaf name c = some a → P a)
    (hnode : ∀ op children, children ≠ [] → (∀ child ∈ children, child ≠ [] ∧ ∀ a ∈ child, P a) →
      P (node op children)) : ∀ a ∈ Filter.fold leaf node f, P a := by
  have hself : Filter.Rel (fun name c c' => c = c' ∧ ∀ a, leaf name c = some a → P a) f f :=
    Filter.rel_self fun x hx => ⟨rfl, hleaf x.1 x.2 hx⟩
  have hall : List.Forall₂ (fun a b => P a ∧ a = b) (Filter.fold leaf node f)
      (Filter.fold leaf node f) := by
    refine Filter.fold_rel ?_ ?_ hself
    · rintro name c _ ⟨rfl, hP⟩
      cases hc : leaf name c with
      | none => exact .none
      | some a => exact .some ⟨hP a hc, rfl⟩
    · intro op children children' hne hchildren
      simp only [List.forall₂_and_left, List.forall₂_eq_eq_eq, ← and_assoc] at hchildren
      obtain ⟨hP, rfl⟩ := hchildren
      exact ⟨hnode op children hne hP, rfl⟩
  exact ((List.forall₂_and_left _ _).mp hall).1

/-! ## what groups keep -/

/-- a property of fragments that joining, brackets and negation keep -/
structure Fragment.Stable (P : Fragment → Prop) : Prop where
  nil : P []
  joinAnd : ∀ {fs : List Fragment}, (∀ F ∈ fs, P F) → P (join " AND " fs)
  joinOr : ∀ {fs : List Fragment}, (∀ F ∈ fs, P F) → P (join " OR " fs)
  bracket : ∀ {F : Fragment}, P F → P F.bracket
  not : ∀ {F : Fragment}, P F → P (.text "NOT " :: F)

section
variable {P : Fragment → Prop} (hP : Fragment.Stable P)
include hP

theorem Fragment.Stable.joinBracketed {separator : String} {fs : List Fragment}
    (h : P (join separator fs)) : P (joinBracketed separator fs) := by
  unfold Fragment.joinBracketed
  split
  · exact hP.bracket h
  · exact h

theorem Fragment.Stable.ofGroup (op : Connective) {children : List (List Fragment)}
    (h : ∀ child ∈ children, ∀ F ∈ child, P F) : P (ofGroup op children) := by
  have hflat : ∀ F ∈ children.flatten, P F := by
    intro F hF
    obtain ⟨child, hchild, hF⟩ := List.mem_flatten.mp hF
    exact h child hchild F hF
  cases op with
  | and => exact hP.joinBracketed (hP.joinAnd hflat)
  | or =>
    refine hP.joinBracketed (hP.joinOr fun F hF => ?_)
    obtain ⟨child, hchild, rfl⟩ := List.mem_map.mp hF
    exact hP.joinBracketed (hP.joinAnd (h child hchild))
  | not => exact hP.not (hP.bracket (hP.joinAnd hflat))

theorem Fragment.Stable.ofClauses {fs : List Fragment} (h : ∀ F ∈ fs, P F) : P (ofClauses fs) := by
  simp only [Fragment.ofClauses]
  split
  · exact hP.nil
  · split
    · exact hP.joinAnd h
    · exact hP.bracket (hP.joinAnd h)

/-- a property that groups keep holds of all clauses of a filter if it does of those of constraints -/
theorem Fragment.Stable.fragments {f : Filter}
    (h : ∀ name c, (name, c) ∈ Filter.fields f → ∀ F, c.fragment? name = some F → P F) :
    ∀ F ∈ Filter.fragments f, P F :=
  Filter.fold_forall h fun op _ _ hchildren =>
    hP.ofGroup op fun child hchild => (hchildren child hchild).2

end

end FilterSql
