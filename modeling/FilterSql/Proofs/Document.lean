import FilterSql.Json.Decode

/-!
# Documents without faults

A text that is well-formed as a whole holds the document of a `Json` value and no fault
(`Json.ofText?_eq_some`).  The parts of such a document have no fault either, each inside the brackets
around it, and none inside fewer brackets (`Doc.fault?_ofJson_mono`).
-/

namespace FilterSql.Json

/-! ## the document of a value -/

mutual

theorem Doc.eq_ofJson : ∀ {d : Doc} {J : Json}, d.json? = some J → d = Doc.ofJson J
  | .null, _, h => by cases h; rfl
  | .bool _, _, h => by cases h; rfl
  | .number none, _, h => by cases h
  | .number (some (.int _)), _, h => by cases h; rfl
  | .number (some (.float _)), _, h => by cases h; rfl
  | .string none, _, h => by cases h
  | .string (some _), _, h => by cases h; rfl
  | .array _ (some _), _, h => by cases h
  | .array items none, _, h => by
    obtain ⟨Js, hitems, rfl⟩ := Option.map_eq_some_iff.mp h
    rw [Doc.ofJson, eq_itemsOfJson hitems]
  | .object _ (some _), _, h => by cases h
  | .object members none, _, h => by
    obtain ⟨Js, hmembers, rfl⟩ := Option.map_eq_some_iff.mp h
    rw [Doc.ofJson, eq_membersOfJson hmembers]
  | .broken .., _, h => by cases h

theorem eq_itemsOfJson : ∀ {items : List Doc} {Js : List Json},
    itemsJson? items = some Js → items = itemsOfJson Js
  | [], _, h => by cases h; rfl
  | item :: items, _, h => by
    obtain ⟨J, hitem, h⟩ := Option.bind_eq_some_iff.mp h
    obtain ⟨Js, hitems, h⟩ := Option.bind_eq_some_iff.mp h
    cases h
    rw [itemsOfJson, Doc.eq_ofJson hitem, eq_itemsOfJson hitems]

theorem eq_membersOfJson : ∀ {members : List (Key × Doc)} {Js : List (String × Json)},
    membersJson? members = some Js → members = membersOfJson Js
  | [], _, h => by cases h; rfl
  | (.unpaired, _) :: _, _, h => by cases h
  | (.absent, _) :: _, _, h => by cases h
  | (.text s, value) :: members, _, h => by
    obtain ⟨J, hvalue, h⟩ := Option.bind_eq_some_iff.mp h
    obtain ⟨Js, hmembers, h⟩ := Option.bind_eq_some_iff.mp h
    cases h
    rw [membersOfJson, Doc.eq_ofJson hvalue, eq_membersOfJson hmembers]

end

/-! ## no fault -/

section
variable {depth : Nat}

theorem fault?_array_eq_none {Js : List Json} : (Doc.ofJson (.array Js)).fault? depth = none ↔
    depth < 127 ∧ itemsFault? (depth + 1) (itemsOfJson Js) = none := by
  rw [Doc.ofJson, Doc.fault?, Option.or_none]
  split
  · exact iff_of_false (fun h => nomatch h) (fun h => by omega)
  · exact (and_iff_right (by omega)).symm

theorem fault?_object_eq_none {Js : List (String × Json)} :
    (Doc.ofJson (.object Js)).fault? depth = none ↔
      depth < 127 ∧ membersFault? (depth + 1) (membersOfJson Js) = none := by
  rw [Doc.ofJson, Doc.fault?, Option.or_none]
  split
  · exact iff_of_false (fun h => nomatch h) (fun h => by omega)
  · exact (and_iff_right (by omega)).symm

theorem itemsFault?_cons_eq_none {J : Json} {Js : List Json} :
    itemsFault? depth (itemsOfJson (J :: Js)) = none ↔
      (Doc.ofJson J).fault? depth = none ∧ itemsFault? depth (itemsOfJson Js) = none :=
  Option.or_eq_none_iff

theorem membersFault?_cons_eq_none {key : String} {J : Json} {Js : List (String × Json)} :
    membersFault? depth (membersOfJson ((key, J) :: Js)) = none ↔
      (Doc.ofJson J).fault? depth = none ∧ membersFault? depth (membersOfJson Js) = none :=
  Option.or_eq_none_iff

theorem itemsFault?_eq_none {Js : List Json} : itemsFault? depth (itemsOfJson Js) = none ↔
    ∀ J ∈ Js, (Doc.ofJson J).fault? depth = none := by
  induction Js with
  | nil => exact iff_of_true rfl (List.forall_mem_nil _)
  | cons J Js ih => rw [itemsFault?_cons_eq_none, ih, List.forall_mem_cons]

theorem membersFault?_eq_none {Js : List (String × Json)} :
    membersFault? depth (membersOfJson Js) = none ↔
      ∀ m ∈ Js, (Doc.ofJson m.2).fault? depth = none := by
  induction Js with
  | nil => exact iff_of_true rfl (List.forall_mem_nil _)
  | cons m Js ih => rw [membersFault?_cons_eq_none, ih, List.forall_mem_cons]

theorem fault?_of_mem {members : List (Key × Doc)} (h : membersFault? depth members = none) :
    ∀ m ∈ members, m.2.fault? depth = none := by
  induction members with
  | nil =>
    intro m hm
    cases hm
  | cons m members ih =>
    obtain ⟨key, value⟩ := m
    cases key with
    | text s =>
      obtain ⟨hvalue, hmembers⟩ := Option.or_eq_none_iff.mp h
      exact List.forall_mem_cons.mpr ⟨hvalue, ih hmembers⟩
    | unpaired => cases h
    | absent => cases h

end

mutual

theorem Doc.skipFault?_ofJson : ∀ J : Json, (Doc.ofJson J).skipFault? = none
  | .null | .bool _ | .int _ | .float _ | .string _ => rfl
  | .array items => by
    rw [Doc.ofJson, Doc.skipFault?, itemsSkipFault?_ofJson]
    rfl
  | .object members => by
    rw [Doc.ofJson, Doc.skipFault?, membersSkipFault?_ofJson]
    rfl

theorem itemsSkipFault?_ofJson : ∀ items : List Json, itemsSkipFault? (itemsOfJson items) = none
  | [] => rfl
  | item :: items => by
    rw [itemsOfJson, itemsSkipFault?, Doc.skipFault?_ofJson, itemsSkipFault?_ofJson]
    rfl

theorem membersSkipFault?_ofJson : ∀ members : List (String × Json),
    membersSkipFault? (membersOfJson members) = none
  | [] => rfl
  | (_, value) :: members => by
    show (Doc.ofJson value).skipFault?.or (membersSkipFault? (membersOfJson members)) = none
    rw [Doc.skipFault?_ofJson, membersSkipFault?_ofJson]
    rfl

end

mutual

/-- a complete value without a fault has none inside fewer brackets -/
theorem Doc.fault?_ofJson_mono : ∀ {J : Json} {depth depth' : Nat}, depth ≤ depth' →
    (Doc.ofJson J).fault? depth' = none → (Doc.ofJson J).fault? depth = none
  | .null, _, _, _, h => h
  | .bool _, _, _, _, h => h
  | .int _, _, _, _, h => h
  | .float _, _, _, _, h => h
  | .string _, _, _, _, h => h
  | .array _, _, _, hle, h => by
    rw [fault?_array_eq_none] at h ⊢
    exact ⟨by omega, itemsFault?_ofJson_mono (by omega) h.2⟩
  | .object _, _, _, hle, h => by
    rw [fault?_object_eq_none] at h ⊢
    exact ⟨by omega, membersFault?_ofJson_mono (by omega) h.2⟩

theorem itemsFault?_ofJson_mono : ∀ {Js : List Json} {depth depth' : Nat}, depth ≤ depth' →
    itemsFault? depth' (itemsOfJson Js) = none → itemsFault? depth (itemsOfJson Js) = none
  | [], _, _, _, _ => rfl
  | _ :: _, _, _, hle, h => by
    rw [itemsFault?_cons_eq_none] at h ⊢
    exact ⟨Doc.fault?_ofJson_mono hle h.1, itemsFault?_ofJson_mono hle h.2⟩

theorem membersFault?_ofJson_mono : ∀ {Js : List (String × Json)} {depth depth' : Nat},
    depth ≤ depth' → membersFault? depth' (membersOfJson Js) = none →
      membersFault? depth (membersOfJson Js) = none
  | [], _, _, _, _ => rfl
  | _ :: _, _, _, hle, h => by
    rw [membersFault?_cons_eq_none] at h ⊢
    exact ⟨Doc.fault?_ofJson_mono hle h.1, membersFault?_ofJson_mono hle h.2⟩

end

end Json

/-- a well-formed text holds the document of its value and nothing else -/
theorem Json.ofText?_eq_some {s : String} {J : Json} (h : Json.ofText? s = some J) :
    Json.Document.ofText s = ⟨.ofJson J, false⟩ ∧ (Json.Doc.ofJson J).fault? 0 = none := by
  unfold Json.ofText? at h
  simp only [Option.ite_none_left_eq_some, Bool.or_eq_true, not_or, Bool.not_eq_true,
    Option.isSome_eq_false_iff, Option.isNone_iff_eq_none] at h
  obtain ⟨⟨htrailing, hfault⟩, hjson⟩ := h
  have hroot := Json.Doc.eq_ofJson hjson
  rw [hroot] at hfault
  refine ⟨?_, hfault⟩
  rw [← hroot, ← htrailing]

/-- a well-formed text is decoded as its value -/
theorem Json.decodeText_eq {α : Type} {s : String} {J : Json} (h : Json.ofText? s = some J)
    (decode : Json.Doc → Json.Decoded α) : Json.decodeText decode s = decode (.ofJson J) := by
  rw [Json.decodeText, (Json.ofText?_eq_some h).1]
  exact bind_pure (decode (.ofJson J))

/-! ## paths of keys -/

/-- `null` inside objects of one member each, with these keys -/
def Json.path : List String → Json
  | [] => .null
  | key :: keys => .object [(key, Json.path keys)]

def Json.isPath : List String → Json → Bool
  | [], .null => true
  | key :: keys, .object [(k, J)] => k = key && Json.isPath keys J
  | _, _ => false

theorem Json.eq_path_of_isPath : ∀ {keys : List String} {J : Json}, Json.isPath keys J = true →
    J = Json.path keys
  | [], .null, _ => rfl
  | key :: keys, .object [(k, J)], h => by
    obtain ⟨hkey, hpath⟩ := (Bool.and_eq_true _ _).mp h
    rw [Json.path, Json.eq_path_of_isPath hpath, of_decide_eq_true hkey]

theorem Json.ofText?_eq_path {s : String} {keys : List String}
    (h : (Json.ofText? s).any (Json.isPath keys) = true) :
    Json.ofText? s = some (Json.path keys) := by
  cases hJ : Json.ofText? s with
  | none =>
    rw [hJ] at h
    cases h
  | some J =>
    rw [hJ, Option.any_some] at h
    rw [Json.eq_path_of_isPath h]

end FilterSql
