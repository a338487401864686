import FilterSql.Sql.Column
import FilterSql.Value.Decode

/-!
# Sorting

A `SortOrder` is a list of terms, each a column with a direction.  Its document is an object from
fields to directions; a term is a bare direction or an object with `order` and `collection`.
`SortOrder.orderBy` is the `ORDER BY` part of a query, in the order of the document.
-/

namespace FilterSql

open Json

inductive Direction where
  | ascending
  | descending
  deriving DecidableEq

def Direction.keyword : Direction → String
  | .ascending => "ASC"
  | .descending => "DESC"

/-- `asc` or `desc` in any case of the ASCII letters -/
def Direction.ofText? (s : String) : Option Direction :=
  let lowered := s.toList.map Char.toLower
  if lowered = "asc".toList then some .ascending
  else if lowered = "desc".toList then some .descending
  else none

structure SortTerm where
  field : String
  direction : Direction
  collection : Option String
  deriving DecidableEq

/-- terms in the order in which they count -/
abbrev SortOrder := List SortTerm

/-- one more term, without a collection -/
def SortOrder.thenBy (s : SortOrder) (direction : Direction) (field : String) : SortOrder :=
  s ++ [⟨field, direction, none⟩]

/-! ## the ORDER BY part -/

def SortTerm.text (t : SortTerm) : String :=
  (Column.mk t.field t.collection).text ++ " " ++ t.direction.keyword

/-- the `ORDER BY` part; empty if there is nothing to sort by -/
def SortOrder.orderBy (s : SortOrder) : String :=
  if s.isEmpty then "" else "ORDER BY " ++ ", ".intercalate (s.map SortTerm.text)

/-! ## decoding -/

def Direction.ofName (s : String) : Decoded Direction :=
  match Direction.ofText? s with
  | some d => .ok d
  | none => mismatch (.unknownDirection s)

def Direction.ofDoc (d : Doc) : Decoded Direction := do
  Direction.ofName (← d.toText)

/-- bytes are the text that they encode -/
def Direction.ofInput : Input → Decoded Direction
  | .bytes bs =>
    match String.fromUTF8? ⟨bs.toArray⟩ with
    | some s => Direction.ofName s
    | none => mismatch (.notText .string)
  | input => input.decode .string Direction.ofDoc

structure TermObject where
  order : Option Direction := none
  collection : Option String := none

def TermObject.record : Record TermObject where
  name := "SortSpec"
  start := {}
  required := false
  fields :=
    [⟨"order", fun d t => do return { t with order := some (← Direction.ofDoc d) }⟩,
      ⟨"collection", fun d t => do
        return { t with collection := ← d.optional Doc.toText }⟩]

/-- the direction and the collection of a settled term -/
def termOfDoc? : Doc → Option (Direction × Option String)
  | .string (some s) => (Direction.ofText? s).map fun d => (d, none)
  | .object members close =>
    match TermObject.record.decode (.object members close) with
    | .ok ⟨some order, collection⟩ => some (order, collection)
    | _ => none
  | _ => none

/-- the terms of an object whose members stand inside `depth` open brackets -/
def SortOrder.ofMembers (depth : Nat) (close : Option Fault) : List (Key × Doc) → Decoded SortOrder
  | [] => (noFault close).map fun _ => []
  | (key, value) :: members => do
    let field ← key.read value
    value.settle depth
    match termOfDoc? value with
    | none => mismatch (.noForm "SortSpec")
    | some (direction, collection) =>
      return ⟨field, direction, collection⟩ :: (← SortOrder.ofMembers depth close members)

def SortOrder.ofDoc (depth : Nat) : Doc → Decoded SortOrder
  | .object members close => SortOrder.ofMembers (depth + 1) close members
  | d => d.refuse .sort

def SortOrder.ofInput (input : Input) : Decoded SortOrder :=
  input.decode .sort (SortOrder.ofDoc 0)

end FilterSql
