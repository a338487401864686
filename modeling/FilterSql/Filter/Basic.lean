import FilterSql.Value.Basic

/-!
# Filters

A filter is a list of entries that all have to hold.  An entry constrains a field, or groups whole
filters under a connective.  `Filter.depth` counts how far groups nest.
-/

namespace FilterSql

/-! ## constraints -/

inductive Comparison where
  | eq
  | neq
  | lt
  | lte
  | gt
  | gte
  deriving DecidableEq

inductive Position where
  | contains
  | startsWith
  | endsWith
  deriving DecidableEq

inductive Operator where
  | compare (c : Comparison) (v : Value)
  /-- one of the values, or none of them -/
  | member (negated : Bool) (vs : List Value)
  | between (lo hi : Value)
  | pattern (p : Position) (v : Value)

structure FieldFilter where
  operator : Option Operator
  caseInsensitive : Bool := false
  collection : Option String := none

inductive Constraint where
  /-- equality with a scalar -/
  | scalar (v : Value)
  /-- one of these scalars -/
  | list (vs : List Value)
  | field (f : FieldFilter)

def Comparison.name : Comparison → String
  | .eq => "eq"
  | .neq => "neq"
  | .lt => "lt"
  | .lte => "lte"
  | .gt => "gt"
  | .gte => "gte"

def Position.name : Position → String
  | .contains => "contains"
  | .startsWith => "startsWith"
  | .endsWith => "endsWith"

/-- the key of an operator in a filter document -/
def Operator.name : Operator → String
  | .compare c _ => c.name
  | .member false _ => "in"
  | .member true _ => "nin"
  | .between _ _ => "between"
  | .pattern p _ => p.name

def Operator.operands : Operator → List Value
  | .compare _ v => [v]
  | .member _ vs => vs
  | .between lo hi => [lo, hi]
  | .pattern _ v => [v]

/-! ## the tree -/

inductive Connective where
  | and
  | or
  | not
  deriving DecidableEq

def Connective.text : Connective → String
  | .and => "AND"
  | .or => "OR"
  | .not => "NOT"

def Connective.ofKey? (key : String) : Option Connective :=
  if key = "AND" then some .and
  else if key = "OR" then some .or
  else if key = "NOT" then some .not
  else none

inductive Entry where
  | group (op : Connective) (filters : List (List Entry))
  /-- a constraint on a field, or none at all -/
  | field (name : String) (constraint : Option Constraint)

/-- entries that all have to hold -/
abbrev Filter := List Entry

namespace Filter

/-- a constraint on a field, at the end -/
def field (f : Filter) (name : String) (c : Constraint) : Filter :=
  f ++ [.field name (some c)]

/-- a field without a constraint, at the end -/
def unset (f : Filter) (name : String) : Filter :=
  f ++ [.field name none]

/-- a group, at the end -/
def group (f : Filter) (op : Connective) (filters : List Filter) : Filter :=
  f ++ [.group op filters]

end Filter

/-! ## depth -/

mutual

/-- the depth of the deepest filter inside an entry; zero if there is none -/
def Entry.depth : Entry → Nat
  | .group _ filters => Filter.childDepth filters
  | .field _ _ => 0

/-- the nesting of a filter; one without groups has depth one -/
def Filter.depth : List Entry → Nat
  | [] => 1
  | entry :: entries => max (entry.depth + 1) (Filter.depth entries)

/-- the greatest depth of some filters; zero if there are none -/
def Filter.childDepth : List (List Entry) → Nat
  | [] => 0
  | f :: fs => max (Filter.depth f) (Filter.childDepth fs)

end

/-! ## equality -/

def Operator.beq : Operator → Operator → Bool
  | .compare c v, .compare d w => c = d && v == w
  | .member m vs, .member n ws => m = n && vs == ws
  | .between lo hi, .between lo' hi' => lo == lo' && hi == hi'
  | .pattern p v, .pattern q w => p = q && v == w
  | _, _ => false

instance : BEq Operator := ⟨Operator.beq⟩

instance : BEq FieldFilter where
  beq f g :=
    f.operator == g.operator && f.caseInsensitive = g.caseInsensitive && f.collection = g.collection

instance : BEq Constraint where
  beq
    | .scalar v, .scalar w => v == w
    | .list vs, .list ws => vs == ws
    | .field f, .field g => f == g
    | _, _ => false

mutual

def Entry.beq : Entry → Entry → Bool
  | .group op fs, .group op' gs => op = op' && Filter.allBeq fs gs
  | .field name c, .field name' c' => name = name' && c == c'
  | _, _ => false

def Filter.beq : List Entry → List Entry → Bool
  | [], [] => true
  | e :: es, e' :: es' => e.beq e' && Filter.beq es es'
  | _, _ => false

def Filter.allBeq : List (List Entry) → List (List Entry) → Bool
  | [], [] => true
  | f :: fs, g :: gs => Filter.beq f g && Filter.allBeq fs gs
  | _, _ => false

end

instance : BEq Entry := ⟨Entry.beq⟩

end FilterSql
