import FilterSql.Request
import FilterSql.Sql.Predicate

/-!
# Compiled queries

`Request.compile` compiles the filter, the sort and the page of a request, in this order; the first
of them that breaks a limit is the error.  The parts of a `Query` that are not empty are joined by
single blanks.  A query is printed in two forms: `Query.report` is plain text, one parameter a line, and
`Query.pretty` is JSON.
-/

namespace FilterSql

inductive CompileError where
  | depth (e : DepthError)
  | page (e : PageError)
  deriving DecidableEq

def CompileError.message : CompileError → String
  | .depth e => e.message
  | .page e => "Invalid pagination: " ++ e.message

structure Query where
  predicate : String
  orderBy : String
  window : Window
  params : List Param

/-- the parts that are not empty, with single blanks between them -/
def joinParts (parts : List String) : String :=
  " ".intercalate (parts.filter (· ≠ ""))

def Query.sql (q : Query) : String :=
  joinParts [q.predicate, q.orderBy, q.window.clause]

/-- the predicate behind the word `WHERE`, if there is one -/
def Query.where? (q : Query) : Option String :=
  if q.predicate = "" then none else some ("WHERE " ++ q.predicate)

/-- the end of a statement, from `WHERE` on -/
def Query.tail (q : Query) : String :=
  joinParts [q.where?.getD "", q.orderBy, q.window.clause]

def Query.json (q : Query) : Json :=
  .object [("sql", .string q.sql), ("params", Param.json q.params)]

def Request.compile (limits : Limits) (r : Request) : Except CompileError Query := do
  let predicate ←
    ((r.filter.getD []).compile r.bindStyle limits.maxFilterDepth.toNat).mapError .depth
  let window ← (PageRequest.window limits r.page).mapError .page
  return {
    predicate := predicate.sql
    orderBy := (r.sort.getD []).orderBy
    window := window
    params := predicate.params }

/-! ## reports -/

def padRight (width : Nat) (s : String) : String :=
  s ++ String.ofList (List.replicate (width - s.length) ' ')

/-- the number of bytes of the longest name -/
def nameWidth (params : List Param) : Nat :=
  (params.map fun p => p.name.utf8ByteSize).foldl max 0

/-- the line of a parameter: its name, its value and its type -/
def Param.line (width : Nat) (p : Param) : String :=
  "  " ++ padRight width p.name ++ "  " ++ p.value.display ++ "  (" ++ p.value.typeName ++ ")\n"

def Query.report (q : Query) : String :=
  "SQL: " ++ q.sql ++ "\n" ++
    if q.params.isEmpty then "Params: (none)\n"
    else "Params:\n" ++ String.join (q.params.map (Param.line (nameWidth q.params)))

def Query.pretty (q : Query) : String := q.json.pretty

end FilterSql
