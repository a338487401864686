import FilterSql.Proofs.Grammar
import FilterSql.Proofs.Lossless

/-!
# Scalars read back

JSON text has one kind of whole number and no identifiers, dates or times.  So a value that is written
and read again comes back in its normal form (`Value.normal`): an unsigned number that fits becomes
signed, and what JSON has no form for becomes its text.  `Value.decodeText_compact` says so for a value
alone, for one that constrains a field, and for a list of them.
-/

namespace FilterSql

open Json

/-! ## normal forms -/

namespace Value

/-- the value that the text of a value is read as -/
def normal : Value → Value
  | .uint n => if n.toNat ≤ Int64.maxValue.toInt then .int (Int64.ofInt n.toNat) else .uint n
  | .uuid u => .string u.text
  | .date d => .string d.text
  | .timestamp t => .string t.text
  | v => v

/-- no float and no bytes: JSON text has a scalar that stands for the value -/
def isExact : Value → Bool
  | .float _ => false
  | .bytes _ => false
  | _ => true

section
variable {n : UInt64}

theorem normal_uint_of_le (h : n.toNat ≤ Int64.maxValue.toInt) :
    normal (.uint n) = .int (Int64.ofInt n.toNat) := if_pos h

theorem normal_uint_of_not_le (h : ¬ n.toNat ≤ Int64.maxValue.toInt) :
    normal (.uint n) = .uint n := if_neg h

end

theorem normal_normal (v : Value) : v.normal.normal = v.normal := by
  cases v with
  | uint n =>
    by_cases h : n.toNat ≤ Int64.maxValue.toInt
    · rw [normal_uint_of_le h]
      rfl
    · rw [normal_uint_of_not_le h, normal_uint_of_not_le h]
  | _ => rfl

/-- an unsigned number that becomes signed stays the same number -/
theorem json_normal (v : Value) : v.normal.json = v.json := by
  cases v with
  | uint n =>
    by_cases h : n.toNat ≤ Int64.maxValue.toInt
    · have hsame : (Int64.ofInt n.toNat).toInt = n.toNat := by
        apply Int64.toInt_ofInt_of_le
        · exact Int.le_trans (by decide) (Int.natCast_nonneg n.toNat)
        · exact Int.lt_of_le_of_lt h (by decide)
      rw [normal_uint_of_le h]
      show Json.int (Int64.ofInt n.toNat).toInt = .int n.toNat
      rw [hsame]
    · rw [normal_uint_of_not_le h]
  | _ => rfl

theorem ofInt_toInt (n : Int64) : ofInt n.toInt = .int n := by
  unfold ofInt
  rw [if_pos n.toInt_le, Int64.ofInt_toInt]

theorem ofInt_toNat (n : UInt64) : ofInt n.toNat = normal (.uint n) := by
  unfold ofInt
  by_cases h : n.toNat ≤ Int64.maxValue.toInt
  · rw [if_pos h, normal_uint_of_le h]
  · rw [if_neg h, normal_uint_of_not_le h]
    show uint (UInt64.ofNat n.toNat) = .uint n
    rw [UInt64.ofNat_toNat]

/-- what is written for a value spells its normal form -/
theorem written_normal {v : Value} (h : v.isExact = true) : Written v.json v.normal := by
  cases v with
  | int n =>
    have hwritten := Written.int n.toInt
    rwa [ofInt_toInt] at hwritten
  | uint n =>
    have hwritten := Written.int (n.toNat : Int)
    rwa [ofInt_toNat] at hwritten
  | string s => exact .string s
  | boolean b => exact .bool b
  | uuid u => exact .string u.text
  | date d => exact .string d.text
  | timestamp t => exact .string t.text
  | null => exact .null
  | float x => cases h
  | bytes bs => cases h

theorem isExact_json_of_isExact {v : Value} (h : v.isExact = true) : v.json.isExact = true := by
  refine isExact_json fun x hx => ?_
  rw [hx] at h
  cases h

end Value

/-! ## texts -/

theorem Json.decodeText_write {α : Type} {J : Json} (h : J.isExact = true) (layout : Layout)
    (decode : Doc → Decoded α) :
    decodeText decode (String.ofList (J.write layout)) = decode (.ofJson J) := by
  unfold decodeText
  rw [Document.ofText_write h]
  show (decode (.ofJson J) >>= fun a => Except.ok a) = _
  cases decode (.ofJson J) <;> rfl

theorem Json.toList_intercalate_compact (item : Json) (items : List Json) :
    (",".intercalate ((item :: items).map compact)).toList =
      item.write .compact ++ writeItems .compact items := by
  induction items generalizing item with
  | nil =>
    rw [List.map_singleton, String.intercalate_singleton, writeItems, List.append_nil]
    exact String.toList_ofList
  | cons next items ih =>
    rw [List.map_cons, List.map_cons, String.intercalate_cons_cons, ← List.map_cons,
      String.toList_append, String.toList_append, ih, List.append_assoc]
    show (String.ofList (item.write .compact)).toList ++ _ = _
    rw [String.toList_ofList]
    rfl

/-- the text of an array has the texts of its items with commas between -/
theorem Json.compact_array (items : List Json) :
    (Json.array items).compact = "[" ++ ",".intercalate (items.map compact) ++ "]" := by
  apply String.toList_inj.mp
  unfold compact
  rw [String.toList_ofList, String.toList_append, String.toList_append]
  cases items with
  | nil => rfl
  | cons item items =>
    have hitems := toList_intercalate_compact item items
    unfold compact at hitems
    rw [hitems, write]
    simp [Layout.lineBreak, Layout.deeper]

/-- **What is written for a scalar is read back as its normal form**, alone or as a constraint, and a list
of scalars as the list of their normal forms.  A normal form is read back as it is, and its text is that
of the value. -/
theorem Value.decodeText_compact :
    (∀ v : Value, v.isExact = true →
      decodeText Value.ofDoc v.json.compact = .ok v.normal ∧
      decodeText (Constraint.ofDoc 0) v.json.compact = .ok (.scalar v.normal) ∧
      v.normal.normal = v.normal ∧ v.normal.json.compact = v.json.compact) ∧
    ∀ vs : List Value, (∀ v ∈ vs, v.isExact = true) →
      decodeText (Constraint.ofDoc 0)
          ("[" ++ ",".intercalate (vs.map fun v => v.json.compact) ++ "]") =
        .ok (.list (vs.map normal)) := by
  constructor
  · intro v hv
    have hexact := isExact_json_of_isExact hv
    have hvalue : decodeText Value.ofDoc v.json.compact = .ok v.normal := by
      refine (Json.decodeText_write hexact .compact Value.ofDoc).trans ?_
      exact Value.ofDoc_eq_ok.mpr (written_normal hv)
    have hconstraint : decodeText (Constraint.ofDoc 0) v.json.compact = .ok (.scalar v.normal) := by
      refine (Json.decodeText_write hexact .compact (Constraint.ofDoc 0)).trans ?_
      exact (Constraint.ofDoc_eq_ok (v.fault?_json (by decide))).mpr (.scalar (written_normal hv))
    rw [json_normal]
    exact ⟨hvalue, hconstraint, normal_normal v, rfl⟩
  · intro vs hvs
    have hexact : (Json.array (vs.map json)).isExact = true := by
      refine itemsExact_eq_true.mpr fun J hJ => ?_
      obtain ⟨v, hv, rfl⟩ := List.mem_map.mp hJ
      exact isExact_json_of_isExact (hvs v hv)
    have hfault : (Doc.ofJson (.array (vs.map json))).fault? 0 = none := by
      refine fault?_array_eq_none.mpr ⟨by decide, itemsFault?_eq_none.mpr fun J hJ => ?_⟩
      obtain ⟨v, -, rfl⟩ := List.mem_map.mp hJ
      exact v.fault?_json (by decide)
    have hwritten : List.Forall₂ Written (vs.map json) (vs.map normal) := by
      rw [List.forall₂_map_left_iff, List.forall₂_map_right_iff, List.forall₂_same]
      exact fun v hv => written_normal (hvs v hv)
    have htext := Json.compact_array (vs.map json)
    rw [List.map_map] at htext
    show decodeText (Constraint.ofDoc 0)
      ("[" ++ ",".intercalate (vs.map (Json.compact ∘ json)) ++ "]") = _
    rw [← htext]
    refine (Json.decodeText_write hexact .compact (Constraint.ofDoc 0)).trans ?_
    exact (Constraint.ofDoc_eq_ok hfault).mpr (.list hwritten)

/-- the greatest signed number, the next one, a date and a text with quotes and a control character -/
theorem Value.decodeText_compact_mixed :
    (decodeText Value.ofDoc (Value.uint 9223372036854775807).json.compact =
        .ok (.int 9223372036854775807) ∧
      decodeText (Constraint.ofDoc 0) (Value.uint 9223372036854775808).json.compact =
        .ok (.scalar (.uint 9223372036854775808))) ∧
    decodeText (Constraint.ofDoc 0)
        "[9223372036854775807,18446744073709551615,\"2024-02-29\",\"\\\"\\\\\\u0001\",null]" =
      .ok (.list [.int 9223372036854775807, .uint 18446744073709551615, .string "2024-02-29",
        .string "\"\\\x01", .null]) := by
  obtain ⟨hscalar, hlist⟩ := decodeText_compact
  refine ⟨⟨(hscalar (.uint 9223372036854775807) rfl).1,
    (hscalar (.uint 9223372036854775808) rfl).2.1⟩, ?_⟩
  have hmixed := hlist [.uint 9223372036854775807, .uint 18446744073709551615,
    .date ⟨2024, 2, 29⟩, .string "\"\\\x01", .null] (by simp [isExact])
  exact hmixed

end FilterSql
