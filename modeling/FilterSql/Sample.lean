import FilterSql.Query
import FilterSql.Settings.Basic

/-!
# Samples

Filters of known shapes and a strict way to compile a request text, to try the compiler with.
-/

namespace FilterSql.Sample

open Json

/-! ## filters -/

/-- a filter around `inner`; the connective changes with the level -/
def wrap (inner : Filter) (level : Nat) : Filter :=
  if level % 3 = 0 then Filter.group [] .and [inner]
  else if level % 3 = 1 then
    Filter.group [] .or [inner, Filter.field [] "alt" (.scalar (.int (Int64.ofNat level)))]
  else Filter.group [] .not [inner]

def nested (groups : Nat) : Filter :=
  (List.range groups).foldl wrap (Filter.field [] "leaf" (.scalar (.int 1)))

/-- an operator without a collection -/
def operator (op : Operator) (caseInsensitive : Bool) : Constraint :=
  .field ⟨some op, caseInsensitive, none⟩

/-- one field under a constraint of each kind, at several depths -/
def repeated (name : String) : Filter :=
  [.field name (some (.scalar (.int 1))),
    .group .or
      [Filter.field [] name (operator (.between (.int 2) (.int 3)) false),
        Filter.group [] .not
          [Filter.field [] name (operator (.member false [.int 4, .int 5]) false)]],
    .field name (some (operator (.pattern .contains (.string "x")) true))]

/-- values that would change a statement if they got into its text -/
def hostileValues : List String :=
  ["'; DROP TABLE users; --",
    "1 OR 1=1",
    "Robert'); DELETE FROM students;--",
    "\" OR \"\" = \"",
    "%_\\"]

def hostile (value : String) : Filter :=
  [.field "name" (some (.scalar (.string value))),
    .field "bio" (some (operator (.pattern .contains (.string value)) true))]

/-! ## compiling -/

/-- compiles a filter in a style, under the standard limits but for the depth -/
def compile (style : BindStyle) (maxDepth : UInt64) (f : Filter) : Except CompileError Query :=
  Request.compile { Limits.standard with maxFilterDepth := maxDepth }
    { filter := some f, bindStyle := style }

inductive SampleError where
  | request (e : DecodeError)
  | compile (e : CompileError)
  | start (sql expected : String)

def SampleError.message : SampleError → String
  | .request e => "invalid request fixture: " ++ faultMessage e
  | .compile e => "compile failed: " ++ e.message
  | .start sql expected => "expected `" ++ sql ++ "` to start with `" ++ expected ++ "`"

def compileText (text : String) : Except SampleError Query := do
  let request ← (Request.ofText text).mapError .request
  (request.compile .standard).mapError .compile

/-- the query, if its SQL starts as expected -/
def expectStart (expected : Option String) (q : Query) : Except SampleError Query :=
  match expected with
  | none => .ok q
  | some s => if s.toList.isPrefixOf q.sql.toList then .ok q else .error (.start q.sql s)

def questionMarks (q : Query) : Nat := q.sql.toList.count '?'

end FilterSql.Sample
