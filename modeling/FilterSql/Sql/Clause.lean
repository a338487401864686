import FilterSql.Filter.Basic
import FilterSql.Sql.Column

/-!
# Clauses

`Clause.ofConstraint?` sorts a constraint on a field into one of six shapes.
-/

namespace FilterSql

inductive Clause where
  | null (column : Column) (negated : Bool)
  | array (column : Column) (values : List Value) (negated caseInsensitive : Bool)
  | primitive (column : Column) (value : Value)
  | comparison (column : Column) (op : Comparison) (value : Value) (caseInsensitive : Bool)
  | pattern (column : Column) (position : Position) (value : Value) (caseInsensitive : Bool)
  | range (column : Column) (lo hi : Value) (caseInsensitive : Bool)

/-! ## keywords -/

def Comparison.keyword : Comparison → String
  | .eq => "="
  | .neq => "<>"
  | .lt => "<"
  | .lte => "<="
  | .gt => ">"
  | .gte => ">="

def Operator.keyword : Operator → String
  | .compare c _ => c.keyword
  | .member false _ => "IN"
  | .member true _ => "NOT IN"
  | .between _ _ => "BETWEEN"
  | .pattern _ _ => "LIKE"

def Position.around (p : Position) (text : String) : String :=
  match p with
  | .contains => "%" ++ text ++ "%"
  | .startsWith => text ++ "%"
  | .endsWith => "%" ++ text

namespace Clause

/-! ## shapes -/

def ofOperator (column : Column) (caseInsensitive : Bool) : Operator → Clause
  | .member negated values => .array column values negated caseInsensitive
  | .compare .eq .null => .null column false
  | .compare .neq .null => .null column true
  | .compare op value => .comparison column op value caseInsensitive
  | .pattern position value => .pattern column position value caseInsensitive
  | .between lo hi => .range column lo hi caseInsensitive

/-- the shape of a constraint on a field; none without an operator -/
def ofConstraint? (field : String) : Constraint → Option Clause
  | .scalar .null => some (.null ⟨field, none⟩ false)
  | .scalar value => some (.primitive ⟨field, none⟩ value)
  | .list values => some (.array ⟨field, none⟩ values false false)
  | .field f => f.operator.map (ofOperator ⟨field, f.collection⟩ f.caseInsensitive)

def name : Clause → String
  | .null .. => "null"
  | .array .. => "array"
  | .primitive .. => "primitive"
  | .comparison .. => "comparison"
  | .pattern .. => "pattern"
  | .range .. => "range"

end Clause

end FilterSql
