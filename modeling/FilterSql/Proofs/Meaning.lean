import FilterSql.Proofs.Formula
import FilterSql.Sql.Clause

/-!
# What a filter means

`Filter.meaning?` reads a filter as a formula, without any text.  Its atoms are the tests of single
fields: a `Test` on a column, with operands that are folded to lower case or not.  Entries, filters
and groups that test nothing are left out, and a filter has no meaning if nothing is left.
-/

namespace FilterSql

/-! ## atoms -/

/-- a value to compare with, in lower case if it is folded -/
structure Operand where
  value : Value
  folded : Bool

inductive Test where
  | isNull (negated : Bool)
  | compare (op : Comparison) (operand : Operand)
  | like (pattern : Operand)
  | member (negated : Bool) (operands : List Operand)
  | between (lo hi : Operand)

/-- a test of a column, in lower case if it is folded, or a test that never holds -/
inductive Atom where
  | never
  | test (column : Column) (folded : Bool) (test : Test)

/-- only strings are folded -/
def Operand.of (fold : Bool) (value : Value) : Operand := ⟨value, fold && value.isTextual⟩

/-- to be one of no values never holds, and to be none of them is no test -/
def Atom.member? (column : Column) (fold negated : Bool) : List Value → Option Atom
  | [] => if negated then none else some .never
  | values => some <| .test column (fold && values.any Value.isTextual) <|
      .member negated (values.map (.of fold))

/-- the test of an operator; a pattern of a value without a text is none -/
def Operator.atom? (column : Column) (fold : Bool) : Operator → Option Atom
  | .compare .eq .null => some (.test column false (.isNull false))
  | .compare .neq .null => some (.test column false (.isNull true))
  | .compare op value =>
    some (.test column (fold && value.isTextual) (.compare op (.of fold value)))
  | .member negated values => Atom.member? column fold negated values
  | .between lo hi => some <| .test column (fold && (lo.isTextual || hi.isTextual)) <|
      .between (.of fold lo) (.of fold hi)
  | .pattern position value => value.text?.map fun s =>
      let folded := fold && value.isTextual
      .test column folded (.like ⟨.string (position.around s), folded⟩)

def Constraint.atom? (name : String) : Constraint → Option Atom
  | .scalar .null => some (.test ⟨name, none⟩ false (.isNull false))
  | .scalar value => some (.test ⟨name, none⟩ false (.compare .eq ⟨value, false⟩))
  | .list values => Atom.member? ⟨name, none⟩ false false values
  | .field f => f.operator.bind (Operator.atom? ⟨name, f.collection⟩ f.caseInsensitive)

/-! ## filters -/

/-- the meaning of a group, from its filters that have one -/
def Connective.combine? (op : Connective) (children : List (Formula Atom)) :
    Option (Formula Atom) :=
  match op with
  | .and => Formula.all? children
  | .or => Formula.any? children
  | .not => (Formula.all? children).map .not

mutual

def Entry.meaning? : Entry → Option (Formula Atom)
  | .field _ none => none
  | .field name (some c) => (c.atom? name).map .atom
  | .group op filters => op.combine? (Filter.childMeanings filters)

def Filter.meanings : List Entry → List (Formula Atom)
  | [] => []
  | entry :: entries => entry.meaning?.toList ++ Filter.meanings entries

/-- the meanings of the filters that have one: all their entries -/
def Filter.childMeanings : List (List Entry) → List (Formula Atom)
  | [] => []
  | f :: fs => (Formula.all? (Filter.meanings f)).toList ++ Filter.childMeanings fs

end

def Filter.meaning? (f : Filter) : Option (Formula Atom) := Formula.all? (Filter.meanings f)

end FilterSql
