import FilterSql.Filter.Basic
import FilterSql.Value.Decode

/-!
# Decoding filters

A filter is a JSON object.  The reserved keys hold groups: nothing, one filter, or a list of
filters.  Every other key names a field and holds a scalar, a list of scalars or an operator object.
Entries keep the order of the document, repeated keys included.

The value of a group key is settled first; if it then is no group, for whatever reason inside it,
there is one answer only.  The same decoder serves the document and the inside of its groups.
-/

namespace FilterSql

open Json

/-! ## operator objects -/

/-- what has been read of an operator object: its usable operators by key, and its modifiers -/
structure OperatorObject where
  operators : List (String × Operator) := []
  caseInsensitive : Option Bool := none
  collection : Option String := none

def OperatorObject.add (o : OperatorObject) (op : Operator) : OperatorObject :=
  { o with operators := (op.name, op) :: o.operators }

/-- the list that an operand of `in`, `nin` or `between` is; anything else that is well-formed is
as good as absent -/
def listOperand (depth : Nat) (d : Doc) : Decoded (Option (List Value)) := do
  d.settle depth
  match d with
  | .array items close => return (Value.listOfItems close items).toOption
  | _ => return none

def scalarField (name : String) (operator : Value → Operator) : FieldDecoder OperatorObject where
  name := name
  read d o := do return o.add (operator (← Value.ofDoc d))

def listField (depth : Nat) (name : String) (operator? : List Value → Option Operator) :
    FieldDecoder OperatorObject where
  name := name
  read d o := do
    match (← listOperand depth d).bind operator? with
    | some op => return o.add op
    | none => return o

/-- a range, of exactly two values -/
def Operator.range? : List Value → Option Operator
  | [lo, hi] => some (.between lo hi)
  | _ => none

/-- an operator object whose operands stand inside `depth` open brackets -/
def OperatorObject.record (depth : Nat) : Record OperatorObject where
  name := "RawFieldFilter"
  start := {}
  required := false
  fields :=
    [scalarField "eq" (.compare .eq), scalarField "neq" (.compare .neq),
      scalarField "lt" (.compare .lt), scalarField "lte" (.compare .lte),
      scalarField "gt" (.compare .gt), scalarField "gte" (.compare .gte),
      listField depth "in" (some ∘ .member false), listField depth "nin" (some ∘ .member true),
      listField depth "between" Operator.range?,
      scalarField "contains" (.pattern .contains),
      scalarField "startsWith" (.pattern .startsWith),
      scalarField "endsWith" (.pattern .endsWith),
      ⟨"caseInsensitive", fun d o => do
        return { o with caseInsensitive := ← d.optional Doc.toBool }⟩,
      ⟨"collection", fun d o => do
        return { o with collection := ← d.optional Doc.toText }⟩]

/-- the keys of operators, the one that wins over all later ones first -/
def Operator.priority : List String :=
  ["in", "nin", "eq", "neq", "lt", "lte", "gt", "gte", "contains", "startsWith", "endsWith",
    "between"]

/-- the operator object with its one operator chosen -/
def OperatorObject.toFieldFilter (o : OperatorObject) : FieldFilter where
  operator := Operator.priority.findSome? fun key => o.operators.lookup key
  caseInsensitive := o.caseInsensitive.getD false
  collection := o.collection

/-- an operator object inside `depth` open brackets -/
def FieldFilter.ofDoc (depth : Nat) (d : Doc) : Decoded FieldFilter :=
  ((OperatorObject.record (depth + 1)).decode d).map OperatorObject.toFieldFilter

/-! ## constraints -/

def Constraint.ofDoc (depth : Nat) : Doc → Decoded Constraint
  | .array items close => (Value.listOfItems close items).map .list
  | .object members close => (FieldFilter.ofDoc depth (.object members close)).map .field
  | d => (Value.ofDoc d).map .scalar

/-! ## filters -/

/-- any mismatch inside a group is the one answer that no form fits -/
def asGroup {α : Type} : Decoded α → Decoded α
  | .ok a => .ok a
  | .error _ => mismatch (.noForm "GroupInput")

mutual

def Filter.ofDoc (depth : Nat) : Doc → Decoded Filter
  | .object members close => Filter.ofMembers (depth + 1) close members
  | d => d.refuse .filter

def Filter.ofMembers (depth : Nat) (close : Option Fault) : List (Key × Doc) → Decoded Filter
  | [] => (noFault close).map fun _ => []
  | (key, value) :: members => do
    let name ← key.read value
    match Connective.ofKey? name with
    | some op => do
      value.settle depth
      let filters ← asGroup (Filter.groupOfDoc depth value)
      return .group op filters :: (← Filter.ofMembers depth close members)
    | none => do
      let c ← Constraint.ofDoc depth value
      return .field name (some c) :: (← Filter.ofMembers depth close members)

def Filter.groupOfDoc (depth : Nat) : Doc → Decoded (List Filter)
  | .null => .ok []
  | .array items close => Filter.listOfItems (depth + 1) close items
  | .object members close => (Filter.ofMembers (depth + 1) close members).map fun f => [f]
  | d => d.refuse .filter

def Filter.listOfItems (depth : Nat) (close : Option Fault) : List Doc → Decoded (List Filter)
  | [] => (noFault close).map fun _ => []
  | item :: items => do
    let f ← Filter.ofDoc depth item
    return f :: (← Filter.listOfItems depth close items)

end

/-! ## other inputs -/

def Constraint.ofInput : Input → Decoded Constraint
  | .absent => .ok (.scalar .null)
  | input => input.decode .constraint (Constraint.ofDoc 0)

def Filter.ofInput (input : Input) : Decoded Filter :=
  input.decode .filter (Filter.ofDoc 0)

end FilterSql
