import FilterSql.Json.Decode

/-!
# Limits

`Limits` bound every compilation: the size of a page that names none, the greatest size of a page,
and how deep groups may nest.
-/

namespace FilterSql

open Json

structure Limits where
  defaultPageSize : UInt32
  maxPageSize : UInt32
  maxFilterDepth : UInt64
  deriving DecidableEq

def Limits.standard : Limits := ⟨20, 100, 10⟩

def Limits.json (l : Limits) : Json :=
  .object [("defaultPageSize", .int l.defaultPageSize.toNat),
    ("maxPageSize", .int l.maxPageSize.toNat),
    ("maxFilterDepth", .int l.maxFilterDepth.toNat)]

def Limits.fields : List (FieldDecoder Limits) :=
  [⟨"defaultPageSize", fun d l => do return { l with defaultPageSize := ← d.toWord32 }⟩,
    ⟨"maxPageSize", fun d l => do return { l with maxPageSize := ← d.toWord32 }⟩,
    ⟨"maxFilterDepth", fun d l => do return { l with maxFilterDepth := ← d.toWord64 .size }⟩]

/-- limits, all three of which have to be there -/
def Limits.record : Record Limits where
  name := "CompileLimits"
  start := .standard
  fields := Limits.fields
  required := true

def Limits.ofDoc (d : Doc) : Decoded Limits := Limits.record.decode d

end FilterSql
