import FilterSql.Limits

/-!
# Pages

A `PageRequest` asks for one page of rows, counted from one.  `PageRequest.window` turns it into the
rows to skip and the rows to return, or says which bound it breaks first.  All arithmetic is on
signed words of 64 bits; the one product that may not fit is checked.
-/

namespace FilterSql

open Json

/-- a page and its size; what is missing has a default -/
structure PageRequest where
  page : Option Int64 := none
  perPage : Option Int64 := none
  deriving DecidableEq

/-- the rows to skip and the rows to return -/
structure Window where
  offset : UInt64
  limit : UInt64
  deriving DecidableEq

inductive PageError where
  | pageBelowMinimum (page : Int64)
  | perPageBelowMinimum (perPage : Int64)
  | perPageAboveMaximum (perPage : Int64) (max : UInt32)
  | offsetOverflow (page perPage : Int64)
  deriving DecidableEq

def PageError.message : PageError → String
  | .pageBelowMinimum page => "page must be at least 1, got " ++ toString page.toInt
  | .perPageBelowMinimum perPage => "perPage must be at least 1, got " ++ toString perPage.toInt
  | .perPageAboveMaximum perPage max =>
    "perPage must not exceed " ++ toString max.toNat ++ ", got " ++ toString perPage.toInt
  | .offsetOverflow page perPage =>
    "offset for page " ++ toString page.toInt ++ " with perPage " ++ toString perPage.toInt ++
      " is out of range"

/-- the product, if it fits into a signed word -/
def product? (a b : Int64) : Option Int64 :=
  let exact := a.toInt * b.toInt
  if Int64.minValue.toInt ≤ exact ∧ exact ≤ Int64.maxValue.toInt then some (a * b) else none

def windowOf (limits : Limits) (page perPage : Int64) : Except PageError Window :=
  if page < 1 then .error (.pageBelowMinimum page)
  else if perPage < 1 then .error (.perPageBelowMinimum perPage)
  else if limits.maxPageSize.toUInt64.toInt64 < perPage then
    .error (.perPageAboveMaximum perPage limits.maxPageSize)
  else match product? (page - 1) perPage with
    | some offset => .ok ⟨offset.toUInt64, perPage.toUInt64⟩
    | none => .error (.offsetOverflow page perPage)

/-- the window of a page request: by default the first page, of the default size -/
def PageRequest.window (limits : Limits) (request : Option PageRequest) :
    Except PageError Window :=
  windowOf limits ((request.bind (·.page)).getD 1)
    ((request.bind (·.perPage)).getD limits.defaultPageSize.toUInt64.toInt64)

/-- the `OFFSET` and `LIMIT` part of a query -/
def Window.clause (w : Window) : String :=
  "OFFSET " ++ toString w.offset.toNat ++ " LIMIT " ++ toString w.limit.toNat

/-! ## documents -/

def PageRequest.record : Record PageRequest where
  name := "Pagination"
  start := {}
  required := false
  fields :=
    [⟨"page", fun d r => do return { r with page := ← d.optional Doc.toInt64 }⟩,
      ⟨"perPage", fun d r => do return { r with perPage := ← d.optional Doc.toInt64 }⟩]

def PageRequest.ofDoc (d : Doc) : Decoded PageRequest := PageRequest.record.decode d

def optionalInt (n : Option Int64) : Json :=
  match n with
  | some n => .int n.toInt
  | none => .null

def PageRequest.json (r : PageRequest) : Json :=
  .object [("page", optionalInt r.page), ("perPage", optionalInt r.perPage)]

def Window.record : Record Window where
  name := "PageWindow"
  start := ⟨0, 0⟩
  required := true
  fields :=
    [⟨"offset", fun d w => do return { w with offset := ← d.toWord64 .word64 }⟩,
      ⟨"limit", fun d w => do return { w with limit := ← d.toWord64 .word64 }⟩]

def Window.ofDoc (d : Doc) : Decoded Window := Window.record.decode d

def Window.json (w : Window) : Json :=
  .object [("offset", .int w.offset.toNat), ("limit", .int w.limit.toNat)]

end FilterSql
