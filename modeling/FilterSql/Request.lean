import FilterSql.Filter.Decode
import FilterSql.Page
import FilterSql.Sql.BindStyle
import FilterSql.SortOrder

/-!
# Requests

A `Request` holds all that one query is compiled from.  A part that is absent differs from one that
is there and empty.
-/

namespace FilterSql

open Json

structure Request where
  filter : Option Filter := none
  sort : Option SortOrder := none
  page : Option PageRequest := none
  bindStyle : BindStyle := .question

instance : BEq Request where
  beq r s :=
    (match r.filter, s.filter with
      | some f, some g => Filter.beq f g
      | none, none => true
      | _, _ => false) &&
    r.sort = s.sort && r.page = s.page && r.bindStyle = s.bindStyle

/-- a request as a record; all of its parts may be missing -/
def Request.record : Record Request where
  name := "CompileRequest"
  start := {}
  required := false
  fields :=
    [⟨"filter", fun d r => do return { r with filter := ← d.optional (Filter.ofDoc 1) }⟩,
      ⟨"sort", fun d r => do return { r with sort := ← d.optional (SortOrder.ofDoc 1) }⟩,
      ⟨"pagination", fun d r => do return { r with page := ← d.optional PageRequest.ofDoc }⟩,
      ⟨"bindStyle", fun d r => do return { r with bindStyle := ← BindStyle.ofDoc d }⟩]

def Request.ofDoc (d : Doc) : Decoded Request := Request.record.decode d

def Request.ofText (s : String) : Decoded Request := decodeText Request.ofDoc s

end FilterSql
