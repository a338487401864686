import Mathlib.Data.List.Nodup
import FilterSql.Proofs.Document
import FilterSql.Proofs.Record

/-!
# Reading the members of a complete object

When a field's reader answers alike whatever has been read before, an object is read exactly if no key of
a field is repeated and every field accepts its member (`exists_readMembers_iff`); members with other keys
are passed over.  What holds at the start and is preserved by every member holds of what has been read in
the end (`readMembers_invariant`).
-/

namespace FilterSql.Json

/-- the members with one of these keys -/
def known (keys : List String) (members : List (String × Json)) : List (String × Json) :=
  members.filter fun m => m.1 ∈ keys

theorem mem_known {keys : List String} {members : List (String × Json)} {m : String × Json} :
    m ∈ known keys members ↔ m ∈ members ∧ m.1 ∈ keys := by
  rw [known, List.mem_filter, decide_eq_true_iff]

/-- a key that does not come twice has one value -/
theorem eq_of_nodup_known {keys : List String} {members : List (String × Json)}
    (hnodup : ((known keys members).map Prod.fst).Nodup) {key : String} (hkey : key ∈ keys)
    {J K : Json} (hJ : (key, J) ∈ members) (hK : (key, K) ∈ members) : J = K := by
  have hsame := List.inj_on_of_nodup_map hnodup (mem_known.mpr ⟨hJ, hkey⟩)
    (mem_known.mpr ⟨hK, hkey⟩) rfl
  exact congrArg Prod.snd hsame

/-! ## the values under a key -/

def valuesUnder (key : String) (members : List (String × Json)) : List Json :=
  (members.filter fun m => m.1 = key).map Prod.snd

theorem mem_valuesUnder {key : String} {J : Json} {members : List (String × Json)} :
    J ∈ valuesUnder key members ↔ (key, J) ∈ members := by
  simp [valuesUnder]

theorem valuesUnder_append_self (key : String) (J : Json) (members : List (String × Json)) :
    valuesUnder key (members ++ [(key, J)]) = valuesUnder key members ++ [J] := by
  simp [valuesUnder]

theorem valuesUnder_append_of_ne {key name : String} (h : name ≠ key) (J : Json)
    (members : List (String × Json)) :
    valuesUnder key (members ++ [(name, J)]) = valuesUnder key members := by
  simp [valuesUnder, h]

theorem valuesUnder_eq_nil {key : String} {members : List (String × Json)}
    (h : key ∉ members.map Prod.fst) : valuesUnder key members = [] := by
  rw [valuesUnder, List.map_eq_nil_iff, List.filter_eq_nil_iff]
  intro m hm hkey
  exact h (List.mem_map.mpr ⟨m, hm, of_decide_eq_true hkey⟩)

/-- no key is repeated exactly if each has one value at most -/
theorem nodup_known_iff {keys : List String} {members : List (String × Json)} :
    ((known keys members).map Prod.fst).Nodup ↔
      ∀ key ∈ keys, (valuesUnder key members).length ≤ 1 := by
  have hcount : ∀ key ∈ keys, ((known keys members).map Prod.fst).count key =
      (valuesUnder key members).length := by
    intro key hkey
    rw [known, valuesUnder, List.length_map, ← List.countP_eq_length_filter, List.count,
      List.countP_map, List.countP_filter]
    refine List.countP_congr fun m _ => ?_
    have hknown : m.1 = key → m.1 ∈ keys := fun h => h ▸ hkey
    simpa using hknown
  rw [List.nodup_iff_count_le_one]
  constructor
  · intro h key hkey
    rw [← hcount key hkey]
    exact h key
  · intro h key
    by_cases hkey : key ∈ keys
    · rw [hcount key hkey]
      exact h key hkey
    · have hnone : key ∉ (known keys members).map Prod.fst := by
        intro hmem
        obtain ⟨m, hm, rfl⟩ := List.mem_map.mp hmem
        exact hkey (mem_known.mp hm).2
      rw [List.count_eq_zero_of_not_mem hnone]
      exact Nat.zero_le 1

/-! ## the members of a record -/

section
variable {σ : Type} {fields : List (FieldDecoder σ)}

def FieldDecoder.names (fields : List (FieldDecoder σ)) : List String := fields.map (·.name)

theorem find?_eq_none_iff {key : String} :
    fields.find? (·.name = key) = none ↔ ∀ f ∈ fields, f.name ≠ key := by
  simp

theorem known_cons_of_find? {key : String} {J : Json} {members : List (String × Json)}
    {f : FieldDecoder σ} (hf : fields.find? (·.name = key) = some f) :
    known (FieldDecoder.names fields) ((key, J) :: members) =
      (key, J) :: known (FieldDecoder.names fields) members := by
  have hmem : key ∈ FieldDecoder.names fields :=
    List.mem_map.mpr ⟨f, FieldDecoder.mem_of_find? hf⟩
  exact List.filter_cons_of_pos (decide_eq_true hmem)

theorem known_cons_of_none {key : String} {J : Json} {members : List (String × Json)}
    (hf : fields.find? (·.name = key) = none) :
    known (FieldDecoder.names fields) ((key, J) :: members) =
      known (FieldDecoder.names fields) members := by
  refine List.filter_cons_of_neg ?_
  simpa [FieldDecoder.names] using hf

theorem readMembers_ofJson_cons {key : String} {J : Json} {members : List (String × Json)}
    {seen : List String} {s : σ} {r : List String × σ} :
    readMembers fields none seen s (membersOfJson ((key, J) :: members)) = .ok r ↔
      (fields.find? (·.name = key) = none ∧
        readMembers fields none seen s (membersOfJson members) = .ok r) ∨
      ∃ f t, fields.find? (·.name = key) = some f ∧ key ∉ seen ∧ f.read (.ofJson J) s = .ok t ∧
        readMembers fields none (key :: seen) t (membersOfJson members) = .ok r := by
  have hskip : (Doc.ofJson J).skip = .ok () := by
    rw [Doc.skip, Doc.skipFault?_ofJson]
    rfl
  rw [membersOfJson, readMembers_cons_eq_ok]
  constructor
  · rintro ⟨name, ⟨⟩, ⟨hnone, -, h⟩ | h⟩
    · exact .inl ⟨hnone, h⟩
    · exact .inr h
  · rintro (⟨hnone, h⟩ | h)
    · exact ⟨key, rfl, .inl ⟨hnone, hskip, h⟩⟩
    · exact ⟨key, rfl, .inr h⟩

/-- an object is read if no key of a field comes twice and every field accepts its member -/
theorem exists_readMembers_iff {accepts : String → Json → Prop} {members : List (String × Json)}
    (haccepts : ∀ f ∈ fields, ∀ J, (f.name, J) ∈ members → ∀ s,
      (∃ t, f.read (.ofJson J) s = .ok t) ↔ accepts f.name J) (seen : List String) (s : σ) :
    (∃ r, readMembers fields none seen s (membersOfJson members) = .ok r) ↔
      ((known (FieldDecoder.names fields) members).map Prod.fst).Nodup ∧
        ∀ m ∈ known (FieldDecoder.names fields) members, m.1 ∉ seen ∧ accepts m.1 m.2 := by
  induction members generalizing seen s with
  | nil => exact iff_of_true ⟨_, rfl⟩ ⟨List.nodup_nil, List.forall_mem_nil _⟩
  | cons m members ih =>
    obtain ⟨key, J⟩ := m
    have ih := ih fun f hf J hJ => haccepts f hf J (List.mem_cons_of_mem _ hJ)
    simp only [readMembers_ofJson_cons]
    cases hf : fields.find? (·.name = key) with
    | none =>
      rw [known_cons_of_none hf, ← ih seen s]
      simp
    | some f =>
      obtain ⟨hmem, rfl⟩ := FieldDecoder.mem_of_find? hf
      have hJ := haccepts f hmem J List.mem_cons_self s
      have hrest : ∀ t, (∃ r, readMembers fields none (f.name :: seen) t
          (membersOfJson members) = .ok r) ↔ _ := ih (f.name :: seen)
      -- the key counts as seen from here on, so none of the members behind it may have it
      have hnew : (∀ m ∈ known (FieldDecoder.names fields) members,
          m.1 ∉ f.name :: seen ∧ accepts m.1 m.2) ↔
          f.name ∉ (known (FieldDecoder.names fields) members).map Prod.fst ∧
            ∀ m ∈ known (FieldDecoder.names fields) members, m.1 ∉ seen ∧ accepts m.1 m.2 := by
        simp only [List.mem_cons, not_or, and_assoc, List.mem_map, not_exists, not_and,
          forall_and]
      rw [known_cons_of_find? hf, List.map_cons, List.nodup_cons, List.forall_mem_cons, ← hJ]
      constructor
      · rintro ⟨r, ⟨hnone, -⟩ | ⟨g, t, hg, hseen, hread, h⟩⟩
        · cases hnone
        · cases hg
          obtain ⟨hnodup, hall⟩ := (hrest t).mp ⟨r, h⟩
          obtain ⟨hfresh, hall⟩ := hnew.mp hall
          exact ⟨⟨hfresh, hnodup⟩, ⟨hseen, t, hread⟩, hall⟩
      · rintro ⟨⟨hfresh, hnodup⟩, ⟨hseen, t, hread⟩, hall⟩
        obtain ⟨r, h⟩ := (hrest t).mpr ⟨hnodup, hnew.mpr ⟨hfresh, hall⟩⟩
        exact ⟨r, .inr ⟨f, t, rfl, hseen, hread, h⟩⟩

/-- an array is read if it has no more items than there are fields and every field accepts the item in its
place -/
theorem exists_readItems_iff {accepts : String → Json → Prop} {items : List Json}
    (haccepts : ∀ f ∈ fields, ∀ J s, (∃ t, f.read (.ofJson J) s = .ok t) ↔ accepts f.name J) (s : σ) :
    (∃ t, readItems none fields s (itemsOfJson items) = .ok t) ↔
      items.length ≤ fields.length ∧
        ∀ (i : Nat) (f : FieldDecoder σ) (J : Json), fields[i]? = some f → items[i]? = some J →
          accepts f.name J := by
  induction fields generalizing items s with
  | nil =>
    cases items with
    | nil => exact iff_of_true ⟨s, rfl⟩ ⟨Nat.le_refl 0, fun i f J hf => nomatch hf⟩
    | cons J items =>
      exact iff_of_false (fun ⟨_, h⟩ => nomatch h) (fun h => absurd h.1 (Nat.not_succ_le_zero _))
  | cons f fields ih =>
    cases items with
    | nil => exact iff_of_true ⟨s, rfl⟩ ⟨Nat.zero_le _, fun i g J hg hJ => nomatch hJ⟩
    | cons J items =>
      obtain ⟨hf, hfields⟩ := List.forall_mem_cons.mp haccepts
      have hrest := fun t => @ih items hfields t
      constructor
      · rintro ⟨r, h⟩
        obtain ⟨t, hread, h⟩ := bind_eq_ok.mp h
        obtain ⟨hlength, hall⟩ := (hrest t).mp ⟨r, h⟩
        refine ⟨Nat.succ_le_succ hlength, fun i g K hg hK => ?_⟩
        cases i with
        | zero =>
          cases hg
          cases hK
          exact (hf J s).mp ⟨t, hread⟩
        | succ i => exact hall i g K hg hK
      · rintro ⟨hlength, hall⟩
        obtain ⟨t, hread⟩ := (hf J s).mpr (hall 0 f J rfl rfl)
        obtain ⟨r, h⟩ := (hrest t).mpr
          ⟨Nat.le_of_succ_le_succ hlength, fun i g K hg hK => hall (i + 1) g K hg hK⟩
        exact ⟨r, bind_eq_ok.mpr ⟨t, hread, h⟩⟩

/-- What every member preserves holds of the whole object.  The induction moves members from those to
come to those that have been read. -/
theorem readMembers_invariant {Inv : List (String × Json) → σ → Prop}
    (hskip : ∀ before key J s, Inv before s → (∀ f ∈ fields, f.name ≠ key) →
      Inv (before ++ [(key, J)]) s)
    (hread : ∀ before J s t, ∀ f ∈ fields, Inv before s → f.name ∉ before.map Prod.fst →
      f.read (.ofJson J) s = .ok t → Inv (before ++ [(f.name, J)]) t)
    {before members : List (String × Json)} {seen : List String} {s : σ} {r : List String × σ}
    (hstart : Inv before s)
    (hseen : ∀ f ∈ fields, f.name ∈ before.map Prod.fst → f.name ∈ seen)
    (h : readMembers fields none seen s (membersOfJson members) = .ok r) :
    Inv (before ++ members) r.2 := by
  induction members generalizing before seen s with
  | nil =>
    cases h
    rw [List.append_nil]
    exact hstart
  | cons m members ih =>
    obtain ⟨key, J⟩ := m
    rw [List.append_cons]
    obtain ⟨hnone, h⟩ | ⟨f, t, hf, hnew, hJ, h⟩ := readMembers_ofJson_cons.mp h
    · have hother := find?_eq_none_iff.mp hnone
      refine ih (hskip before key J s hstart hother) (fun f hf hmem => ?_) h
      rw [List.map_append, List.mem_append] at hmem
      rcases hmem with hmem | hmem
      · exact hseen f hf hmem
      · exact absurd (List.mem_singleton.mp hmem) (hother f hf)
    · obtain ⟨hmem, rfl⟩ := FieldDecoder.mem_of_find? hf
      refine ih (hread before J s t f hmem hstart (mt (hseen f hmem) hnew) hJ)
        (fun g hg hmem => ?_) h
      rw [List.map_append, List.mem_append] at hmem
      rcases hmem with hmem | hmem
      · exact List.mem_cons_of_mem _ (hseen g hg hmem)
      · exact List.mem_cons.mpr (.inl (List.mem_singleton.mp hmem))

end

/-! ## modifiers -/

theorem Doc.toBool_ofJson {J : Json} {b : Bool} :
    (Doc.ofJson J).toBool = .ok b ↔ J = .bool b := by
  constructor
  · intro h
    cases J <;> cases h
    rfl
  · rintro rfl
    rfl

theorem Doc.toText_ofJson {J : Json} {s : String} :
    (Doc.ofJson J).toText = .ok s ↔ J = .string s := by
  constructor
  · intro h
    cases J <;> cases h
    rfl
  · rintro rfl
    rfl

/-- an optional scalar is there as itself, or absent as null -/
theorem Doc.optional_ofJson {α : Type} {decode : Doc → Decoded α} {mk : α → Json}
    (hdecode : ∀ {J a}, decode (.ofJson J) = .ok a ↔ J = mk a) (hnull : ∀ a, mk a ≠ .null)
    {J : Json} {x : Option α} : (Doc.ofJson J).optional decode = .ok x ↔
      (J = .null ∧ x = none) ∨ ∃ a, J = mk a ∧ x = some a := by
  by_cases hJ : J = .null
  · have hnone : (Doc.ofJson .null).optional decode = .ok none := rfl
    rw [hJ, hnone, Except.ok.injEq, eq_comm, or_iff_left, and_iff_right rfl]
    rintro ⟨a, ha, -⟩
    exact hnull a ha.symm
  · have hsome : (Doc.ofJson J).optional decode = (decode (.ofJson J)).map some := by
      cases J <;> first | rfl | exact absurd rfl hJ
    rw [hsome, map_eq_ok, or_iff_right fun h => hJ h.1]
    simp only [hdecode, eq_comm]

section
variable {σ β : Type} {r : Record σ} (hrequired : r.required = false)
include hrequired

/-- if no field has to be there, an object decodes to what has been read of it -/
theorem Record.decode_object (members : List (Key × Doc)) (close : Option Fault) :
    r.decode (.object members close) =
      (readMembers r.fields close [] r.start members).map Prod.snd := by
  rw [Record.decode, hrequired]
  cases readMembers r.fields close [] r.start members <;> rfl

theorem Record.decode_array (items : List Doc) (close : Option Fault) :
    r.decode (.array items close) = readItems close r.fields r.start items := by
  rw [Record.decode, hrequired]
  cases readItems close r.fields r.start items <;> rfl

/-- it decodes exactly if no key of a field has two values and every field accepts what it has -/
theorem Record.exists_decode_iff {accepts : String → Json → Prop} {members : List (String × Json)}
    (haccepts : ∀ f ∈ r.fields, ∀ J, (f.name, J) ∈ members → ∀ s,
      (∃ t, f.read (.ofJson J) s = .ok t) ↔ accepts f.name J) :
    (∃ s, r.decode (.ofJson (.object members)) = .ok s) ↔
      (∀ key ∈ FieldDecoder.names r.fields, (valuesUnder key members).length ≤ 1) ∧
        ∀ m ∈ known (FieldDecoder.names r.fields) members, accepts m.1 m.2 := by
  have hread : (∃ s, r.decode (.ofJson (.object members)) = .ok s) ↔
      ∃ p, readMembers r.fields none [] r.start (membersOfJson members) = .ok p := by
    rw [Doc.ofJson, Record.decode_object hrequired]
    cases readMembers r.fields none [] r.start (membersOfJson members) with
    | error e => exact iff_of_false (fun ⟨_, h⟩ => nomatch h) (fun ⟨_, h⟩ => nomatch h)
    | ok p => exact iff_of_true ⟨_, rfl⟩ ⟨p, rfl⟩
  rw [hread, exists_readMembers_iff haccepts, nodup_known_iff]
  simp only [List.not_mem_nil, not_false_eq_true, true_and]

end

end FilterSql.Json
