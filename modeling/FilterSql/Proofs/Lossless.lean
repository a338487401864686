import FilterSql.Proofs.Document
import FilterSql.Proofs.Parameter
import FilterSql.Proofs.Printing
import FilterSql.Query

/-!
# Printed queries lose nothing

The JSON text of a compiled query that binds no float is read back as the query's text and its
parameters in binding order, each under a name of its own (`Request.ofText?_pretty`).  Whole numbers keep
all of their bits: no value of the query is wider than a JSON reader takes.
-/

namespace FilterSql

open Json

/-! ## values inside JSON -/

/-- what a value that is no float is inside JSON -/
inductive Value.Image : Value → Json → Prop
  | int (n : Int64) : Image (.int n) (.int n.toInt)
  | uint (n : UInt64) : Image (.uint n) (.int n.toNat)
  | string (s : String) : Image (.string s) (.string s)
  | boolean (b : Bool) : Image (.boolean b) (.bool b)
  | bytes (bs : List UInt8) : Image (.bytes bs) (.array (bs.map fun b => .int b.toNat))
  | uuid (u : Uuid) : Image (.uuid u) (.string u.text)
  | date (d : Date) : Image (.date d) (.string d.text)
  | timestamp (t : Timestamp) : Image (.timestamp t) (.string t.text)
  | null : Image .null .null

theorem Value.image_iff {v : Value} {J : Json} :
    Image v J ↔ (∀ x, v ≠ .float x) ∧ J = v.json := by
  constructor
  · intro h
    cases h <;> exact ⟨fun x hx => (by cases hx), rfl⟩
  · rintro ⟨h, rfl⟩
    cases v with
    | float x => exact absurd rfl (h x)
    | _ => constructor

theorem Value.isExact_json {v : Value} (h : ∀ x, v ≠ .float x) : v.json.isExact = true := by
  cases v with
  | float x => exact absurd rfl (h x)
  | int n =>
    have hsize : Int64.maxValue.toInt < UInt64.size := by decide
    exact isExact_int ⟨n.minValue_le_toInt, Int.lt_of_le_of_lt n.toInt_le hsize⟩
  | uint n => exact isExact_int (isWhole_natCast n.toNat_lt_size)
  | bytes bs =>
    have hsize : UInt8.size < UInt64.size := by decide
    refine itemsExact_eq_true.mpr fun item hitem => ?_
    obtain ⟨b, -, rfl⟩ := List.mem_map.mp hitem
    exact isExact_int (isWhole_natCast (Nat.lt_trans b.toNat_lt_size hsize))
  | _ => rfl

theorem Value.fault?_json (v : Value) {depth : Nat} (h : depth < 127) :
    (Doc.ofJson v.json).fault? depth = none := by
  cases v with
  | bytes bs =>
    refine fault?_array_eq_none.mpr ⟨h, itemsFault?_eq_none.mpr fun item hitem => ?_⟩
    obtain ⟨b, -, rfl⟩ := List.mem_map.mp hitem
    rfl
  | _ => rfl

/-! ## queries -/

section
variable {limits : Limits} {r : Request} {q : Query}

theorem Request.exists_predicate (h : r.compile limits = .ok q) : ∃ p,
    (r.filter.getD []).compile r.bindStyle limits.maxFilterDepth.toNat = .ok p ∧
      q.predicate = p.sql ∧ q.params = p.params := by
  unfold Request.compile at h
  cases hp : (r.filter.getD []).compile r.bindStyle limits.maxFilterDepth.toNat with
  | error e =>
    rw [hp] at h
    cases h
  | ok p =>
    rw [hp] at h
    cases hw : PageRequest.window limits r.page with
    | error e =>
      rw [hw] at h
      cases h
    | ok w =>
      rw [hw] at h
      cases h
      exact ⟨p, rfl, rfl, rfl⟩

theorem Request.nodup_params (h : r.compile limits = .ok q) : (q.params.map Param.name).Nodup := by
  obtain ⟨p, hp, -, hparams⟩ := exists_predicate h
  rw [hparams, Filter.eq_of_compile hp]
  exact Param.nodup_number 1 _

end

theorem Query.isExact_json {q : Query} (h : ∀ p ∈ q.params, ∀ x, p.value ≠ .float x) :
    q.json.isExact = true := by
  have hparams : (Param.json q.params).isExact = true := by
    refine membersExact_eq_true.mpr fun m hm => ?_
    obtain ⟨p, hp, rfl⟩ := List.mem_map.mp hm
    exact Value.isExact_json (h p hp)
  rw [Query.json, isExact, membersExact, membersExact, membersExact, hparams]
  rfl

theorem Query.fault?_json (q : Query) : (Doc.ofJson q.json).fault? 0 = none := by
  have hparams : (Doc.ofJson (Param.json q.params)).fault? 1 = none := by
    refine fault?_object_eq_none.mpr ⟨by decide, membersFault?_eq_none.mpr fun m hm => ?_⟩
    obtain ⟨p, -, rfl⟩ := List.mem_map.mp hm
    exact p.value.fault?_json (by decide)
  refine fault?_object_eq_none.mpr ⟨by decide, membersFault?_eq_none.mpr fun m hm => ?_⟩
  rcases List.mem_pair.mp hm with rfl | rfl
  · rfl
  · exact hparams

/-- **The printed form of a compiled query is lossless.**  Read back, it holds the text character for
character and, in binding order and under distinct names, what each value is inside JSON. -/
theorem Request.ofText?_pretty {limits : Limits} {r : Request} {q : Query}
    (h : r.compile limits = .ok q) (hfloat : ∀ p ∈ q.params, ∀ x, p.value ≠ .float x) :
    ∃ members, Json.ofText? q.pretty =
        some (.object [("sql", .string q.sql), ("params", .object members)]) ∧
      List.Forall₂ (fun p m => m.1 = p.name ∧ Value.Image p.value m.2) q.params members ∧
        (members.map Prod.fst).Nodup := by
  have hread : Json.ofText? q.pretty = some q.json :=
    Json.ofText?_write (Query.isExact_json hfloat) q.fault?_json _
  refine ⟨_, hread, ?_, ?_⟩
  · rw [List.forall₂_map_right_iff, List.forall₂_same]
    exact fun p hp => ⟨rfl, Value.image_iff.mpr ⟨hfloat p hp, rfl⟩⟩
  · rw [List.map_map]
    exact nodup_params h

/-- a name that needs escapes, and the widest whole numbers of both kinds -/
def Request.hostile : Request where
  filter := some [.field "a\"\\\n\x01" (some (.list
    [.int Int64.minValue, .uint (.ofNat (UInt64.size - 1)), .bytes [0, 255], .null]))]
  bindStyle := .colon

def Query.hostile : Query where
  predicate := "(a\"\\\n\x01 IN (:_1_a____, :_2_a____, :_3_a____, :_4_a____))"
  orderBy := ""
  window := ⟨0, 20⟩
  params := [⟨"_1_a____", .int Int64.minValue⟩, ⟨"_2_a____", .uint (.ofNat (UInt64.size - 1))⟩,
    ⟨"_3_a____", .bytes [0, 255]⟩, ⟨"_4_a____", .null⟩]

theorem Request.ofText?_pretty_hostile : hostile.compile .standard = .ok Query.hostile ∧
    (∀ p ∈ Query.hostile.params, ∀ x, p.value ≠ .float x) ∧
      Json.ofText? Query.hostile.pretty = some (.object [
        ("sql", .string
          "(a\"\\\n\x01 IN (:_1_a____, :_2_a____, :_3_a____, :_4_a____)) OFFSET 0 LIMIT 20"),
        ("params", .object [("_1_a____", .int (-9223372036854775808)),
          ("_2_a____", .int 18446744073709551615), ("_3_a____", .array [.int 0, .int 255]),
          ("_4_a____", .null)])]) := by
  have hcompile : hostile.compile .standard = .ok Query.hostile := rfl
  have hfloat : ∀ p ∈ Query.hostile.params, ∀ x, p.value ≠ .float x := by
    simp [Query.hostile]
  obtain ⟨members, hread, himages, -⟩ := ofText?_pretty hcompile hfloat
  have hmembers : Query.hostile.params.map (fun p => (p.name, p.value.json)) = members := by
    rw [← List.forall₂_eq_eq_eq, List.forall₂_map_left_iff]
    exact himages.imp fun p m hm => Prod.ext hm.1.symm (Value.image_iff.mp hm.2).2.symm
  refine ⟨hcompile, hfloat, ?_⟩
  rw [hread, ← hmembers]
  rfl

end FilterSql
