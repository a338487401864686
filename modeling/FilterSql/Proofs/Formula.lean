import Mathlib.Data.List.Forall2

/-!
# Boolean formulas

A `Formula` puts atoms together by `and`, `or` and `not`.  Two formulas are `Formula.Equiv` if they
have the same value in every `Logic`.  All that a logic has to satisfy is that `and` and `or` are
associative, so equivalent formulas have the same atoms in the same order, and agree both for two
truth values and for the three of SQL (`Logic.twoValued`, `Logic.threeValued`).

`Formula.chain?` joins a list of formulas by one connective, from the left.  It respects equivalence
(`Formula.exists_chain?_equiv`), and chains can be put together (`Formula.chain?_append_equiv`).
-/

namespace FilterSql

inductive Formula (α : Type) where
  | atom (a : α)
  | and (φ ψ : Formula α)
  | or (φ ψ : Formula α)
  | not (φ : Formula α)

/-- truth values with their connectives -/
structure Logic (β : Type) where
  and : β → β → β
  or : β → β → β
  not : β → β
  and_assoc : ∀ a b c, and (and a b) c = and a (and b c)
  or_assoc : ∀ a b c, or (or a b) c = or a (or b c)

def Logic.twoValued : Logic Bool := ⟨(· && ·), (· || ·), (!·), by decide, by decide⟩

/-- true, false and unknown, as in SQL -/
def Logic.threeValued : Logic (Option Bool) where
  and
    | some false, _ => some false
    | _, some false => some false
    | some true, some true => some true
    | _, _ => none
  or
    | some true, _ => some true
    | _, some true => some true
    | some false, some false => some false
    | _, _ => none
  not a := a.map (!·)
  and_assoc := by rintro (_ | _ | _) (_ | _ | _) (_ | _ | _) <;> rfl
  or_assoc := by rintro (_ | _ | _) (_ | _ | _) (_ | _ | _) <;> rfl

namespace Formula

section
variable {α : Type}

def eval {β : Type} (L : Logic β) (v : α → β) : Formula α → β
  | atom a => v a
  | and φ ψ => L.and (φ.eval L v) (ψ.eval L v)
  | or φ ψ => L.or (φ.eval L v) (ψ.eval L v)
  | not φ => L.not (φ.eval L v)

/-- the same value in every logic -/
def Equiv (φ ψ : Formula α) : Prop :=
  ∀ (β : Type) (L : Logic β) (v : α → β), φ.eval L v = ψ.eval L v

namespace Equiv

theorem refl (φ : Formula α) : Equiv φ φ := fun _ _ _ => rfl

theorem trans {φ ψ χ : Formula α} (h : Equiv φ ψ) (h' : Equiv ψ χ) : Equiv φ χ := fun β L v =>
  (h β L v).trans (h' β L v)

theorem and {φ φ' ψ ψ' : Formula α} (h : Equiv φ φ') (h' : Equiv ψ ψ') :
    Equiv (φ.and ψ) (φ'.and ψ') := by
  intro β L v
  rw [eval, eval, h β L v, h' β L v]

theorem or {φ φ' ψ ψ' : Formula α} (h : Equiv φ φ') (h' : Equiv ψ ψ') :
    Equiv (φ.or ψ) (φ'.or ψ') := by
  intro β L v
  rw [eval, eval, h β L v, h' β L v]

theorem not {φ φ' : Formula α} (h : Equiv φ φ') : Equiv φ.not φ'.not := by
  intro β L v
  rw [eval, eval, h β L v]

end Equiv

/-! ## chains -/

/-- formulas joined by a connective from the left; none of no formulas -/
def chain? (op : Formula α → Formula α → Formula α) : List (Formula α) → Option (Formula α)
  | [] => none
  | φ :: φs => some (φs.foldl op φ)

def all? : List (Formula α) → Option (Formula α) := chain? .and

def any? : List (Formula α) → Option (Formula α) := chain? .or

theorem chain?_eq_none {op : Formula α → Formula α → Formula α} {φs : List (Formula α)} :
    chain? op φs = none ↔ φs = [] := by
  cases φs with
  | nil => exact ⟨fun _ => rfl, fun _ => rfl⟩
  | cons φ φs => simp [chain?]

section
variable {op : Formula α → Formula α → Formula α}
  (hcongr : ∀ {φ φ' ψ ψ' : Formula α}, Equiv φ φ' → Equiv ψ ψ' → Equiv (op φ ψ) (op φ' ψ'))
include hcongr

theorem foldl_equiv {φs ψs : List (Formula α)} (h : List.Forall₂ Equiv φs ψs) {φ ψ : Formula α}
    (hfirst : Equiv φ ψ) : Equiv (φs.foldl op φ) (ψs.foldl op ψ) := by
  induction h generalizing φ ψ with
  | nil => exact hfirst
  | cons h _ ih => exact ih (hcongr hfirst h)

/-- chains of equivalent formulas are equivalent -/
theorem exists_chain?_equiv {φs ψs : List (Formula α)} (h : List.Forall₂ Equiv φs ψs)
    {ψ : Formula α} (hψ : chain? op ψs = some ψ) : ∃ φ, chain? op φs = some φ ∧ Equiv φ ψ := by
  cases h with
  | nil => cases hψ
  | cons hfirst hrest =>
    obtain rfl := Option.some.inj hψ
    exact ⟨_, rfl, foldl_equiv hcongr hrest hfirst⟩

variable (hassoc : ∀ φ ψ χ : Formula α, Equiv (op (op φ ψ) χ) (op φ (op ψ χ)))
include hassoc

theorem foldl_append_equiv (φ ψ : Formula α) (ψs : List (Formula α)) :
    Equiv (ψs.foldl op (op φ ψ)) (op φ (ψs.foldl op ψ)) := by
  induction ψs generalizing ψ with
  | nil => exact .refl _
  | cons χ ψs ih =>
    have hfirst : Equiv ((χ :: ψs).foldl op (op φ ψ)) (ψs.foldl op (op φ (op ψ χ))) :=
      foldl_equiv hcongr (List.forall₂_same.mpr fun _ _ => .refl _) (hassoc φ ψ χ)
    exact hfirst.trans (ih (op ψ χ))

theorem chain?_append_equiv {φs ψs : List (Formula α)} {φ ψ : Formula α} (hφ : chain? op φs = some φ)
    (hψ : chain? op ψs = some ψ) : ∃ χ, chain? op (φs ++ ψs) = some χ ∧ Equiv χ (op φ ψ) := by
  cases φs with
  | nil => cases hφ
  | cons φ₁ φs =>
    cases ψs with
    | nil => cases hψ
    | cons ψ₁ ψs =>
      obtain rfl : φs.foldl op φ₁ = φ := Option.some.inj hφ
      obtain rfl : ψs.foldl op ψ₁ = ψ := Option.some.inj hψ
      refine ⟨(φs ++ ψ₁ :: ψs).foldl op φ₁, rfl, ?_⟩
      rw [List.foldl_append, List.foldl_cons]
      exact foldl_append_equiv hcongr hassoc _ ψ₁ ψs

end

theorem and_assoc_equiv (φ ψ χ : Formula α) : Equiv ((φ.and ψ).and χ) (φ.and (ψ.and χ)) :=
  fun _ L _ => L.and_assoc ..

end

end Formula

end FilterSql
