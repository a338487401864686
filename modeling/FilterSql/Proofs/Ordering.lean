import Mathlib.Data.List.Forall2
import FilterSql.Proofs.Lossless
import FilterSql.Proofs.Members
import FilterSql.SortOrder

/-!
# What a sort decodes from

`SortTerm.Written` is the grammar of a member of a sort: a key with a bare direction, or with an object
that has one `order` and perhaps a `collection`.  An object of such members decodes to their terms, in the
order of the text and with repeated keys (`SortOrder.ofDoc_ofJson`), and no other text does.
-/

namespace FilterSql

open Json

/-! ## directions -/

theorem toNat_toLower (c : Char) :
    c.toLower.toNat = if 65 ≤ c.toNat ∧ c.toNat ≤ 90 then c.toNat + 32 else c.toNat := by
  have hrange : (c.val ≥ 'A'.val ∧ c.val ≤ 'Z'.val) ↔ 65 ≤ c.toNat ∧ c.toNat ≤ 90 := Iff.rfl
  unfold Char.toLower
  split
  · rename_i h
    have hle := (hrange.mp h).2
    rw [if_pos (hrange.mp h)]
    show (c.val + 32).toNat = c.toNat + 32
    rw [UInt32.toNat_add]
    show (c.toNat + 32) % UInt32.size = c.toNat + 32
    exact Nat.mod_eq_of_lt (Nat.lt_of_le_of_lt (Nat.add_le_add_right hle 32) (by decide))
  · rename_i h
    rw [if_neg (mt hrange.mpr h)]

/-- a capital or its small letter -/
def IsLetter (capital c : Char) : Prop := c = capital ∨ c.toNat = capital.toNat + 32

theorem toLower_eq_toLower_iff {capital c : Char} (h : 65 ≤ capital.toNat ∧ capital.toNat ≤ 90) :
    capital.toLower = c.toLower ↔ IsLetter capital c := by
  rw [IsLetter, ← Char.toNat_inj, ← Char.toNat_inj, toNat_toLower, toNat_toLower, if_pos h]
  split <;> omega

theorem map_toLower_eq_iff {word cs : List Char}
    (h : ∀ c ∈ word, 65 ≤ c.toNat ∧ c.toNat ≤ 90) :
    word.map Char.toLower = cs.map Char.toLower ↔ List.Forall₂ IsLetter word cs := by
  induction word generalizing cs with
  | nil => rw [List.forall₂_nil_left_iff, List.map_nil, eq_comm, List.map_eq_nil_iff]
  | cons capital word ih =>
    obtain ⟨hcapital, hword⟩ := List.forall_mem_cons.mp h
    cases cs with
    | nil => simp
    | cons c cs =>
      rw [List.forall₂_cons, List.map_cons, List.map_cons, List.cons.injEq, ih hword,
        toLower_eq_toLower_iff hcapital]

/-- a text is the keyword of a direction up to the case of its letters -/
def Direction.Spelled (d : Direction) (s : String) : Prop :=
  List.Forall₂ IsLetter d.keyword.toList s.toList

theorem Direction.spelled_iff {d : Direction} {s : String} :
    d.Spelled s ↔ s.toList.map Char.toLower = d.keyword.toList.map Char.toLower := by
  have hcapitals : ∀ c ∈ d.keyword.toList, 65 ≤ c.toNat ∧ c.toNat ≤ 90 := by
    rw [← List.forall_iff_forall_mem]
    cases d <;> decide
  rw [Spelled, ← map_toLower_eq_iff hcapitals, eq_comm]

theorem Direction.ofText?_eq_some {s : String} {d : Direction} :
    Direction.ofText? s = some d ↔ d.Spelled s := by
  have hasc : "asc".toList = Direction.ascending.keyword.toList.map Char.toLower := by decide
  have hdesc : "desc".toList = Direction.descending.keyword.toList.map Char.toLower := by decide
  rw [spelled_iff]
  unfold Direction.ofText?
  dsimp only
  rw [hasc, hdesc]
  split
  · rename_i h
    rw [h]
    cases d <;> decide
  · rename_i hascending
    split
    · rename_i h
      rw [h]
      cases d <;> decide
    · rename_i hdescending
      cases d with
      | ascending => exact iff_of_false nofun hascending
      | descending => exact iff_of_false nofun hdescending

theorem Direction.ofDoc_ofJson {J : Json} {d : Direction} :
    Direction.ofDoc (.ofJson J) = .ok d ↔ ∃ s, J = .string s ∧ d.Spelled s := by
  rw [Direction.ofDoc, bind_eq_ok]
  refine exists_congr fun s => ?_
  rw [Doc.toText_ofJson, ← Direction.ofText?_eq_some, Direction.ofName]
  refine and_congr_right fun _ => ?_
  cases Direction.ofText? s with
  | none => exact iff_of_false nofun nofun
  | some d => rw [Except.ok.injEq, Option.some.injEq]

/-! ## term objects -/

/-- what stands under the key of a direction: nothing, or one text that spells it -/
inductive OptionalDirection : List Json → Option Direction → Prop
  | absent : OptionalDirection [] none
  | spelled {s : String} {d : Direction} : d.Spelled s → OptionalDirection [.string s] (some d)

/-- what stands under an optional key: nothing, `null`, or one text -/
inductive OptionalText : List Json → Option String → Prop
  | absent : OptionalText [] none
  | null : OptionalText [.null] none
  | text (s : String) : OptionalText [.string s] (some s)

theorem optionalDirection_singleton {J : Json} {o : Option Direction} :
    OptionalDirection [J] o ↔ ∃ d, Direction.ofDoc (.ofJson J) = .ok d ∧ o = some d := by
  simp only [Direction.ofDoc_ofJson]
  constructor
  · rintro (_ | ⟨hd⟩)
    exact ⟨_, ⟨_, rfl, hd⟩, rfl⟩
  · rintro ⟨d, ⟨s, rfl, hd⟩, rfl⟩
    exact .spelled hd

theorem optionalText_singleton {J : Json} {c : Option String} :
    OptionalText [J] c ↔ (Doc.ofJson J).optional Doc.toText = .ok c := by
  rw [Doc.optional_ofJson Doc.toText_ofJson nofun]
  constructor
  · rintro (_ | _ | s)
    · exact .inl ⟨rfl, rfl⟩
    · exact .inr ⟨s, rfl, rfl⟩
  · rintro (⟨rfl, rfl⟩ | ⟨s, rfl, rfl⟩)
    · exact .null
    · exact .text s

theorem OptionalDirection.unique {Js : List Json} {o o' : Option Direction}
    (h : OptionalDirection Js o) (h' : OptionalDirection Js o') : o = o' := by
  cases h with
  | absent =>
    cases h'
    rfl
  | spelled hd =>
    cases h' with
    | spelled hd' => rw [← Direction.ofText?_eq_some.mpr hd, ← Direction.ofText?_eq_some.mpr hd']

theorem OptionalText.unique {Js : List Json} {c c' : Option String}
    (h : OptionalText Js c) (h' : OptionalText Js c') : c = c' := by
  cases h <;> cases h' <;> rfl

/-- there is one value at most, and it alone gives the same -/
theorem OptionalDirection.once {Js : List Json} {o : Option Direction} (h : OptionalDirection Js o) :
    Js.length ≤ 1 ∧ ∀ J ∈ Js, OptionalDirection [J] o := by
  cases h with
  | absent => exact ⟨Nat.zero_le 1, List.forall_mem_nil _⟩
  | spelled hd => exact ⟨Nat.le_refl 1, List.forall_mem_singleton.mpr (.spelled hd)⟩

theorem OptionalText.once {Js : List Json} {c : Option String} (h : OptionalText Js c) :
    Js.length ≤ 1 ∧ ∀ J ∈ Js, OptionalText [J] c := by
  cases h with
  | absent => exact ⟨Nat.zero_le 1, List.forall_mem_nil _⟩
  | null => exact ⟨Nat.le_refl 1, List.forall_mem_singleton.mpr .null⟩
  | text s => exact ⟨Nat.le_refl 1, List.forall_mem_singleton.mpr (.text s)⟩

namespace TermObject

section
variable {members : List (String × Json)} {t u : TermObject}

theorem read_eq_ok {f : FieldDecoder TermObject} (hf : f ∈ record.fields) {d : Doc} :
    f.read d t = .ok u ↔
      (f.name = "order" ∧ ∃ o, Direction.ofDoc d = .ok o ∧ { t with order := some o } = u) ∨
      (f.name = "collection" ∧ ∃ c, d.optional Doc.toText = .ok c ∧ { t with collection := c } = u) := by
  rcases List.mem_pair.mp hf with rfl | rfl
  · rw [bind_eq_ok, or_iff_left (fun h => absurd h.1 (by decide)), and_iff_right rfl]
    exact exists_congr fun o => and_congr_right fun _ => ⟨Except.ok.inj, congrArg _⟩
  · rw [bind_eq_ok, or_iff_right (fun h => absurd h.1 (by decide)), and_iff_right rfl]
    exact exists_congr fun c => and_congr_right fun _ => ⟨Except.ok.inj, congrArg _⟩

def Accepts (key : String) (J : Json) : Prop :=
  (key = "order" ∧ ∃ o, OptionalDirection [J] o) ∨ (key = "collection" ∧ ∃ c, OptionalText [J] c)

theorem exists_decode_iff : (∃ t, record.decode (.ofJson (.object members)) = .ok t) ↔
    (∀ key ∈ ["order", "collection"], (valuesUnder key members).length ≤ 1) ∧
      ∀ m ∈ known ["order", "collection"] members, Accepts m.1 m.2 := by
  refine Record.exists_decode_iff rfl fun f hf J _ t => ?_
  simp [read_eq_ok hf, Accepts, optionalDirection_singleton, optionalText_singleton, exists_or]

/-- what has been read of a term object is what these members give -/
structure Holds (members : List (String × Json)) (t : TermObject) : Prop where
  order : OptionalDirection (valuesUnder "order" members) t.order
  collection : OptionalText (valuesUnder "collection" members) t.collection

theorem Holds.unique (h : Holds members t) (h' : Holds members u) : t = u := by
  cases t
  cases u
  rw [mk.injEq]
  exact ⟨h.order.unique h'.order, h.collection.unique h'.collection⟩

theorem Holds.skip (h : Holds members t) {key : String} (horder : key ≠ "order")
    (hcollection : key ≠ "collection") (J : Json) : Holds (members ++ [(key, J)]) t where
  order := (valuesUnder_append_of_ne horder J members).symm ▸ h.order
  collection := (valuesUnder_append_of_ne hcollection J members).symm ▸ h.collection

theorem Holds.step (h : Holds members t) {f : FieldDecoder TermObject} (hf : f ∈ record.fields)
    (hnew : f.name ∉ members.map Prod.fst) {J : Json} (hread : f.read (.ofJson J) t = .ok u) :
    Holds (members ++ [(f.name, J)]) u := by
  have hvalues : valuesUnder f.name (members ++ [(f.name, J)]) = [J] := by
    rw [valuesUnder_append_self, valuesUnder_eq_nil hnew, List.nil_append]
  obtain ⟨hname, o, ho, rfl⟩ | ⟨hname, c, hc, rfl⟩ := (read_eq_ok hf).mp hread
  · rw [hname] at hvalues ⊢
    refine ⟨?_, ?_⟩
    · rw [hvalues]
      exact optionalDirection_singleton.mpr ⟨o, ho, rfl⟩
    · rw [valuesUnder_append_of_ne (by decide)]
      exact h.collection
  · rw [hname] at hvalues ⊢
    refine ⟨?_, ?_⟩
    · rw [valuesUnder_append_of_ne (by decide)]
      exact h.order
    · rw [hvalues]
      exact optionalText_singleton.mpr hc

theorem holds_of_decode (h : record.decode (.ofJson (.object members)) = .ok t) :
    Holds members t := by
  rw [Doc.ofJson, Record.decode_object rfl] at h
  obtain ⟨r, hr, rfl⟩ := map_eq_ok.mp h
  have hskip : ∀ before key J t, Holds before t → (∀ f ∈ record.fields, f.name ≠ key) →
      Holds (before ++ [(key, J)]) t := by
    intro before key J t ht hnone
    obtain ⟨horder, hcollection⟩ := List.forall_mem_cons.mp hnone
    exact ht.skip horder.symm (List.forall_mem_singleton.mp hcollection).symm J
  have hstart : Holds [] record.start := ⟨.absent, .absent⟩
  have hholds : Holds ([] ++ members) r.2 :=
    readMembers_invariant hskip (fun _ _ _ _ _ hf ht hnew hread => ht.step hf hnew hread) hstart
      (fun _ _ hmem => nomatch hmem) hr
  exact hholds

/-- a term object decodes exactly to what its members give -/
theorem decode_eq_ok : record.decode (.ofJson (.object members)) = .ok t ↔ Holds members t := by
  refine ⟨holds_of_decode, fun h => ?_⟩
  have hexists : ∃ t, record.decode (.ofJson (.object members)) = .ok t := by
    refine exists_decode_iff.mpr ⟨?_, fun m hm => ?_⟩
    · exact List.forall_mem_cons.mpr
        ⟨h.order.once.1, List.forall_mem_singleton.mpr h.collection.once.1⟩
    · obtain ⟨hmem, hkey⟩ := mem_known.mp hm
      have hvalue : m.2 ∈ valuesUnder m.1 members := mem_valuesUnder.mpr hmem
      rcases List.mem_pair.mp hkey with hname | hname
      · rw [hname] at hvalue
        exact .inl ⟨hname, _, h.order.once.2 _ hvalue⟩
      · rw [hname] at hvalue
        exact .inr ⟨hname, _, h.collection.once.2 _ hvalue⟩
  obtain ⟨u, hu⟩ := hexists
  rw [h.unique (holds_of_decode hu), hu]

end

end TermObject

/-! ## terms -/

/-- a member of a sort: a key with a bare direction, or with an object that has one `order` and perhaps
a `collection` -/
inductive SortTerm.Written : String × Json → SortTerm → Prop
  | bare {field s : String} {direction : Direction} :
      direction.Spelled s → Written (field, .string s) ⟨field, direction, none⟩
  | object {field s : String} {members : List (String × Json)} {direction : Direction}
      {collection : Option String} :
      valuesUnder "order" members = [.string s] → direction.Spelled s →
      OptionalText (valuesUnder "collection" members) collection →
        Written (field, .object members) ⟨field, direction, collection⟩

/-- the field of a term is the key of its member -/
theorem SortTerm.Written.field_eq {m : String × Json} {t : SortTerm} (h : Written m t) :
    t.field = m.1 := by
  cases h <;> rfl

section
variable {direction : Direction} {collection : Option String}

theorem termOfDoc?_object {members : List (String × Json)} :
    termOfDoc? (.ofJson (.object members)) = some (direction, collection) ↔
      (∃ s, valuesUnder "order" members = [.string s] ∧ direction.Spelled s) ∧
        OptionalText (valuesUnder "collection" members) collection := by
  have hdecode : termOfDoc? (.ofJson (.object members)) = some (direction, collection) ↔
      TermObject.record.decode (.ofJson (.object members)) = .ok ⟨some direction, collection⟩ := by
    rw [Doc.ofJson, termOfDoc?]
    split
    · rename_i h
      rw [h]
      simp
    · rename_i h
      exact iff_of_false nofun fun hok => h _ _ hok
  rw [hdecode, TermObject.decode_eq_ok]
  constructor
  · rintro ⟨horder, hcollection⟩
    generalize valuesUnder "order" members = Js at horder
    cases horder with
    | spelled hspelled => exact ⟨⟨_, rfl, hspelled⟩, hcollection⟩
  · rintro ⟨⟨s, horder, hspelled⟩, hcollection⟩
    refine ⟨?_, hcollection⟩
    rw [horder]
    exact .spelled hspelled

theorem termOfDoc?_eq_some {field : String} {J : Json} :
    termOfDoc? (.ofJson J) = some (direction, collection) ↔
      SortTerm.Written (field, J) ⟨field, direction, collection⟩ := by
  constructor
  · intro h
    cases J with
    | string s =>
      obtain ⟨d, hd, h⟩ := Option.map_eq_some_iff.mp h
      cases h
      exact .bare (Direction.ofText?_eq_some.mp hd)
    | object members =>
      obtain ⟨⟨s, horder, hspelled⟩, hcollection⟩ := termOfDoc?_object.mp h
      exact .object horder hspelled hcollection
    | null => cases h
    | bool _ => cases h
    | int _ => cases h
    | float _ => cases h
    | array _ => cases h
  · rintro (hspelled | ⟨horder, hspelled, hcollection⟩)
    · exact Option.map_eq_some_iff.mpr ⟨direction, Direction.ofText?_eq_some.mpr hspelled, rfl⟩
    · exact termOfDoc?_object.mpr ⟨⟨_, horder, hspelled⟩, hcollection⟩

end

/-! ## sorts -/

theorem SortOrder.ofMembers_cons {depth : Nat} {key : String} {J : Json}
    {members : List (String × Json)} {o : SortOrder} (hfault : (Doc.ofJson J).fault? depth = none) :
    SortOrder.ofMembers depth none (membersOfJson ((key, J) :: members)) = .ok o ↔
      ∃ t o', SortTerm.Written (key, J) t ∧
        SortOrder.ofMembers depth none (membersOfJson members) = .ok o' ∧ o = t :: o' := by
  have hsettle : (Doc.ofJson J).settle depth = .ok () := by
    rw [Doc.settle, hfault]
    rfl
  have hstep : SortOrder.ofMembers depth none (membersOfJson ((key, J) :: members)) =
      ((termOfDoc? (.ofJson J)).elim (mismatch (.noForm "SortSpec")) fun p => do
        return ⟨key, p.1, p.2⟩ :: (← SortOrder.ofMembers depth none (membersOfJson members))) := by
    rw [membersOfJson, SortOrder.ofMembers, hsettle]
    cases termOfDoc? (.ofJson J) <;> rfl
  rw [hstep]
  constructor
  · intro h
    cases hterm : termOfDoc? (.ofJson J) with
    | none =>
      rw [hterm] at h
      cases h
    | some p =>
      rw [hterm] at h
      obtain ⟨o', ho', h⟩ := bind_eq_ok.mp h
      cases h
      exact ⟨_, o', termOfDoc?_eq_some.mp hterm, ho', rfl⟩
  · rintro ⟨⟨field, direction, collection⟩, o', hwritten, ho', rfl⟩
    obtain rfl : field = key := hwritten.field_eq
    rw [termOfDoc?_eq_some.mpr hwritten, ho']
    rfl

/-- an object decodes member by member, in the order of the text -/
theorem SortOrder.ofMembers_eq_ok {depth : Nat} {members : List (String × Json)} {o : SortOrder}
    (hfault : membersFault? depth (membersOfJson members) = none) :
    SortOrder.ofMembers depth none (membersOfJson members) = .ok o ↔
      List.Forall₂ SortTerm.Written members o := by
  induction members generalizing o with
  | nil =>
    rw [List.forall₂_nil_left_iff]
    exact ⟨fun h => (Except.ok.inj h).symm, fun h => h ▸ rfl⟩
  | cons m members ih =>
    obtain ⟨hvalue, hmembers⟩ := membersFault?_cons_eq_none.mp hfault
    rw [SortOrder.ofMembers_cons hvalue, List.forall₂_cons_left_iff]
    simp only [ih hmembers]

/-- the value of a sort, inside any brackets -/
theorem SortOrder.ofDoc_ofJson {depth : Nat} {J : Json} {o : SortOrder}
    (hfault : (Doc.ofJson J).fault? depth = none) :
    SortOrder.ofDoc depth (.ofJson J) = .ok o ↔
      ∃ members, J = .object members ∧ List.Forall₂ SortTerm.Written members o := by
  cases J with
  | object members =>
    have hmembers := SortOrder.ofMembers_eq_ok (o := o) (fault?_object_eq_none.mp hfault).2
    refine hmembers.trans ⟨fun h => ⟨members, rfl, h⟩, ?_⟩
    rintro ⟨_, ⟨⟩, h⟩
    exact h
  | _ => exact iff_of_false nofun nofun

/-- an object is of terms exactly if every member is one -/
theorem exists_terms_iff {members : List (String × Json)} :
    (∃ o, List.Forall₂ SortTerm.Written members o) ↔ ∀ m ∈ members, ∃ t, SortTerm.Written m t := by
  induction members with
  | nil => exact iff_of_true ⟨[], .nil⟩ (List.forall_mem_nil _)
  | cons m members ih =>
    rw [List.forall_mem_cons, ← ih]
    constructor
    · rintro ⟨_, h⟩
      obtain ⟨t, o, ht, ho, -⟩ := List.forall₂_cons_left_iff.mp h
      exact ⟨⟨t, ht⟩, o, ho⟩
    · rintro ⟨⟨t, ht⟩, o, ho⟩
      exact ⟨t :: o, .cons ht ho⟩

theorem fields_of_terms {members : List (String × Json)} {o : SortOrder}
    (h : List.Forall₂ SortTerm.Written members o) :
    o.map SortTerm.field = members.map Prod.fst := by
  induction h with
  | nil => rfl
  | cons ht _ ih => rw [List.map_cons, List.map_cons, ht.field_eq, ih]

/-- a term as the `ORDER BY` part has it -/
theorem SortTerm.text_eq (t : SortTerm) :
    t.text = t.collection.elim "" (· ++ ".") ++ t.field ++ " " ++
      if t.direction = .ascending then "ASC" else "DESC" := by
  obtain ⟨field, direction, collection⟩ := t
  cases collection <;> cases direction <;> simp [SortTerm.text, Column.text, Direction.keyword]

/-- **A sort decodes exactly from its grammar, and the `ORDER BY` part keeps the order of the text.**
A well-formed text is a sort exactly if it is an object of such members.  Each member gives one term, in
the order of the text and with repeated keys, and in this order the terms stand in the `ORDER BY` part,
which is empty if there are none. -/
theorem SortOrder.decodeText_iff {s : String} {J : Json} (h : Json.ofText? s = some J) :
    ((∃ o, decodeText (SortOrder.ofDoc 0) s = .ok o) ↔
      ∃ members, J = .object members ∧ ∀ m ∈ members, ∃ t, SortTerm.Written m t) ∧
    ∀ o, decodeText (SortOrder.ofDoc 0) s = .ok o →
      ∃ members, J = .object members ∧ List.Forall₂ SortTerm.Written members o ∧
        o.map SortTerm.field = members.map Prod.fst ∧
        o.orderBy = if members = [] then "" else "ORDER BY " ++ ", ".intercalate (o.map fun t =>
          t.collection.elim "" (· ++ ".") ++ t.field ++ " " ++
            if t.direction = .ascending then "ASC" else "DESC") := by
  have hdecode : ∀ o, decodeText (SortOrder.ofDoc 0) s = .ok o ↔
      ∃ members, J = .object members ∧ List.Forall₂ SortTerm.Written members o := by
    intro o
    rw [Json.decodeText_eq h, SortOrder.ofDoc_ofJson (Json.ofText?_eq_some h).2]
  constructor
  · simp only [hdecode]
    rw [exists_comm]
    simp only [exists_and_left, exists_terms_iff]
  · intro o ho
    obtain ⟨members, hJ, hmembers⟩ := (hdecode o).mp ho
    refine ⟨members, hJ, hmembers, fields_of_terms hmembers, ?_⟩
    have hempty : o.isEmpty = true ↔ members = [] := by
      rw [List.isEmpty_iff_length_eq_zero, ← hmembers.length_eq, List.length_eq_zero_iff]
    rw [SortOrder.orderBy, funext SortTerm.text_eq]
    exact if_congr hempty rfl rfl

/-- one field twice, directions in mixed case, and an object with `null` and with what is not known -/
def SortOrder.mixed : List (String × Json) :=
  [("a", .string "DeSc"), ("b", .object [("order", .string "ASC"), ("collection", .string "t")]),
    ("a", .object [("x", .null), ("collection", .null), ("order", .string "asc"), ("x", .int 1)])]

theorem SortOrder.decodeText_iff_mixed :
    Json.ofText? ("\x7b\"a\":\"DeSc\",\"b\":\x7b\"order\":\"ASC\",\"collection\":\"t\"\x7d," ++
          "\"a\":\x7b\"x\":null,\"collection\":null,\"order\":\"asc\",\"x\":1\x7d\x7d") =
        some (.object SortOrder.mixed) ∧
      (∀ m ∈ SortOrder.mixed, ∃ t, SortTerm.Written m t) ∧
      List.Forall₂ SortTerm.Written SortOrder.mixed
        [⟨"a", .descending, none⟩, ⟨"b", .ascending, some "t"⟩, ⟨"a", .ascending, none⟩] ∧
      SortOrder.orderBy
          [⟨"a", .descending, none⟩, ⟨"b", .ascending, some "t"⟩, ⟨"a", .ascending, none⟩] =
        "ORDER BY a DESC, t.b ASC, a ASC" := by
  have htext : (Json.object SortOrder.mixed).compact =
      "\x7b\"a\":\"DeSc\",\"b\":\x7b\"order\":\"ASC\",\"collection\":\"t\"\x7d," ++
        "\"a\":\x7b\"x\":null,\"collection\":null,\"order\":\"asc\",\"x\":1\x7d\x7d" := by
    decide +kernel
  have hs : Json.ofText? (Json.object SortOrder.mixed).compact =
      some (.object SortOrder.mixed) := Json.ofText?_write (by decide) rfl .compact
  have ho : decodeText (SortOrder.ofDoc 0) (Json.object SortOrder.mixed).compact =
      .ok [⟨"a", .descending, none⟩, ⟨"b", .ascending, some "t"⟩, ⟨"a", .ascending, none⟩] := by
    rw [Json.decodeText_eq hs]
    rfl
  obtain ⟨haccepts, hterms⟩ := SortOrder.decodeText_iff hs
  obtain ⟨members, hJ, hmembers, -, horderBy⟩ := hterms _ ho
  cases hJ
  obtain ⟨members', hJ', hall⟩ := haccepts.mp ⟨_, ho⟩
  cases hJ'
  rw [← htext]
  exact ⟨hs, hall, hmembers, horderBy⟩

end FilterSql
