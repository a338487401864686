import FilterSql.Sql.BindStyle
import FilterSql.Sql.Clause

/-!
# Parameters and binding

A `Param` is a bound value under its name.  Parameters stand in binding order: positional drivers
read the values in this order, others look them up by name.

Clauses are written and their values bound in one go.  A value gets the next number of all parameters
bound so far, its name is made from the number and the field, and its placeholder goes into the text
at once (`bindValue`).  A clause that folds case puts its column and the placeholders of its strings
into `LOWER(...)`; it does so only if one of its operands is a string.
-/

namespace FilterSql

structure Param where
  name : String
  value : Value

/-- the value under a name; of several the first -/
def Param.find? (params : List Param) (name : String) : Option Value :=
  (params.find? (·.name = name)).map (·.value)

/-- the parameters as one JSON object -/
def Param.json (params : List Param) : Json :=
  .object (params.map fun p => (p.name, p.value.json))

/-! ## binding -/

/-- a group nests deeper than is allowed -/
structure DepthError where
  max : Nat
  op : Connective
  deriving DecidableEq

def DepthError.message (e : DepthError) : String :=
  "Filter nesting exceeds the maximum depth of " ++ toString e.max ++ " at " ++ e.op.text ++
    " group"

/-- a step that may bind parameters behind those bound so far, or refuse a group -/
abbrev Binding := StateT (List Param) (Except DepthError)

def bindValue (style : BindStyle) (field : String) (value : Value) : Binding String := do
  let bound ← get
  let sequence := bound.length + 1
  let name := paramName sequence field
  set (bound ++ [⟨name, value⟩])
  return style.placeholder sequence name

/-- binds an operand; the placeholder of a string that is to be folded is put into lower case -/
def bindOperand (style : BindStyle) (column : Column) (fold : Bool) (value : Value) :
    Binding String := do
  let place ← bindValue style column.field value
  return if fold && value.isTextual then lower place else place

namespace Clause

/-- the column and a keyword in front of its operands -/
def opening (column : Column) (fold : Bool) (keyword : String) : String :=
  column.expression fold ++ " " ++ keyword ++ " "

/-- writes a clause and binds its operands; no text if it constrains nothing -/
def bind (style : BindStyle) : Clause → Binding (Option String)
  | .null column negated =>
    return some (column.text ++ if negated then " IS NOT NULL" else " IS NULL")
  | .array _ [] negated _ => return if negated then none else some "1 = 0"
  | .array column values negated caseInsensitive => do
    let fold := caseInsensitive && values.any Value.isTextual
    let places ← values.mapM (bindOperand style column fold)
    return some (opening column fold (if negated then "NOT IN" else "IN") ++
      "(" ++ ", ".intercalate places ++ ")")
  | .primitive column value => do
    let place ← bindValue style column.field value
    return some (opening column false "=" ++ place)
  | .comparison column op value caseInsensitive => do
    let fold := caseInsensitive && value.isTextual
    let place ← bindOperand style column fold value
    return some (opening column fold op.keyword ++ place)
  | .pattern column position value caseInsensitive =>
    match value.text? with
    | none => return none
    | some text => do
      let fold := caseInsensitive && value.isTextual
      let place ← bindOperand style column fold (.string (position.around text))
      return some (opening column fold "LIKE" ++ place)
  | .range column lo hi caseInsensitive => do
    let fold := caseInsensitive && (lo.isTextual || hi.isTextual)
    let first ← bindOperand style column fold lo
    let last ← bindOperand style column fold hi
    return some (opening column fold "BETWEEN" ++ first ++ " AND " ++ last)

end Clause

def Constraint.bind (style : BindStyle) (field : String) (c : Constraint) :
    Binding (Option String) :=
  match Clause.ofConstraint? field c with
  | none => return none
  | some clause => clause.bind style

end FilterSql
