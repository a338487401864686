import FilterSql.Filter.Decode
import FilterSql.Proofs.Document
import FilterSql.Proofs.Record

/-!
# The grammar of filters

`Filter.Written J f` says that the JSON value `J` spells the filter `f`: one entry per member, in the
order of the document.  The relation knows nothing of texts, buffers or open brackets, so it is the same
at every level.  A text that is well-formed as a whole decodes to `f` exactly if its value spells `f`
(`Filter.decodeText_eq_ok`).
-/

namespace FilterSql

open Json

/-! ## the grammar -/

inductive Value.Written : Json → Value → Prop
  | null : Written .null .null
  | bool (b : Bool) : Written (.bool b) (.boolean b)
  | int (n : Int) : Written (.int n) (.ofInt n)
  | float (x : Float) : Written (.float x) (.float x)
  | string (s : String) : Written (.string s) (.string s)

/-- a scalar, an array of scalars, or an object that decodes as an operator object -/
inductive Constraint.Written : Json → Constraint → Prop
  | scalar {J : Json} {v : Value} : Value.Written J v → Written J (.scalar v)
  | list {items : List Json} {vs : List Value} :
      List.Forall₂ Value.Written items vs → Written (.array items) (.list vs)
  | field {members : List (String × Json)} {f : FieldFilter} :
      FieldFilter.ofDoc 0 (.ofJson (.object members)) = .ok f → Written (.object members) (.field f)

mutual

/-- a member: a group under the text of a connective, a field under any other key -/
inductive Entry.Written : String × Json → Entry → Prop
  | field {name : String} {J : Json} {c : Constraint} : (∀ op : Connective, name ≠ op.text) →
      Constraint.Written J c → Entry.Written (name, J) (.field name (some c))
  | group {op : Connective} {J : Json} {fs : List (List Entry)} :
      Filter.GroupWritten J fs → Entry.Written (op.text, J) (.group op fs)

/-- an object, member by member -/
inductive Filter.Written : Json → List Entry → Prop
  | object {members : List (String × Json)} {f : List Entry} :
      List.Forall₂ Entry.Written members f → Filter.Written (.object members) f

/-- the filters of a group: none, one, or an array of them -/
inductive Filter.GroupWritten : Json → List (List Entry) → Prop
  | null : Filter.GroupWritten .null []
  | one {J : Json} {f : List Entry} : Filter.Written J f → Filter.GroupWritten J [f]
  | many {items : List Json} {fs : List (List Entry)} :
      List.Forall₂ Filter.Written items fs → Filter.GroupWritten (.array items) fs

end

/-! ## keys -/

theorem Connective.ofKey?_eq_some {key : String} {op : Connective} :
    Connective.ofKey? key = some op ↔ key = op.text := by
  constructor
  · intro h
    unfold Connective.ofKey? at h
    split at h
    · cases h
      assumption
    · split at h
      · cases h
        assumption
      · split at h
        · cases h
          assumption
        · cases h
  · rintro rfl
    cases op <;> rfl

theorem Connective.ofKey?_eq_none {key : String} :
    Connective.ofKey? key = none ↔ ∀ op : Connective, key ≠ op.text := by
  rw [Option.eq_none_iff_forall_ne_some]
  exact forall_congr' fun op => not_congr Connective.ofKey?_eq_some

theorem Entry.written_group {op : Connective} {J : Json} {e : Entry} :
    Entry.Written (op.text, J) e ↔ ∃ fs, Filter.GroupWritten J fs ∧ e = .group op fs := by
  constructor
  · intro h
    generalize hkey : op.text = key at h
    cases h with
    | field hne => exact absurd hkey.symm (hne op)
    | group hfs =>
      obtain rfl : op = _ := Option.some.inj
        ((Connective.ofKey?_eq_some.mpr rfl).symm.trans (Connective.ofKey?_eq_some.mpr hkey))
      exact ⟨_, hfs, rfl⟩
  · rintro ⟨fs, hfs, rfl⟩
    exact .group hfs

theorem Entry.written_field {name : String} {J : Json} {e : Entry}
    (hne : ∀ op : Connective, name ≠ op.text) :
    Entry.Written (name, J) e ↔ ∃ c, Constraint.Written J c ∧ e = .field name (some c) := by
  constructor
  · intro h
    cases h with
    | field _ hc => exact ⟨_, hc, rfl⟩
    | group => exact absurd rfl (hne _)
  · rintro ⟨c, hc, rfl⟩
    exact .field hne hc

theorem Filter.groupWritten_object {members : List (String × Json)} {fs : List Filter} :
    Filter.GroupWritten (.object members) fs ↔
      ∃ f, Filter.Written (.object members) f ∧ fs = [f] := by
  constructor
  · rintro (_ | hf)
    exact ⟨_, hf, rfl⟩
  · rintro ⟨f, hf, rfl⟩
    exact .one hf

/-! ## scalars and operator objects -/

theorem Value.ofDoc_eq_ok {J : Json} {v : Value} :
    Value.ofDoc (.ofJson J) = .ok v ↔ Value.Written J v := by
  constructor
  · intro h
    cases J <;> cases h <;> constructor
  · rintro (_ | _ | _ | _ | _) <;> rfl

theorem Value.listOfItems_eq_ok {items : List Json} {vs : List Value} :
    Value.listOfItems none (itemsOfJson items) = .ok vs ↔ List.Forall₂ Value.Written items vs := by
  induction items generalizing vs with
  | nil =>
    constructor
    · intro h
      cases h
      exact .nil
    · rintro ⟨⟩
      rfl
  | cons J items ih =>
    rw [itemsOfJson, Value.listOfItems, bind_cons_eq_ok, List.forall₂_cons_left_iff]
    simp only [Value.ofDoc_eq_ok, ih]

section
variable {depth : Nat}

theorem listField_alike (values : List Doc) (h : ∀ d ∈ values, d.fault? depth = none)
    (h' : ∀ d ∈ values, d.fault? 1 = none) (name : String)
    (operator? : List Value → Option Operator) :
    FieldDecoder.Alike values (listField depth name operator?) (listField 1 name operator?) := by
  refine ⟨rfl, fun d hd o => ?_⟩
  have hoperand : listOperand depth d = listOperand 1 d := by
    unfold listOperand Doc.settle
    rw [h d hd, h' d hd]
  simp only [listField, hoperand]

/-- an operator object without faults decodes alike inside all brackets -/
theorem FieldFilter.ofDoc_object {members : List (String × Json)}
    (h : (Doc.ofJson (.object members)).fault? depth = none) :
    FieldFilter.ofDoc depth (.ofJson (.object members)) =
      FieldFilter.ofDoc 0 (.ofJson (.object members)) := by
  have hdepth := (fault?_object_eq_none.mp h).2
  have hone := membersFault?_ofJson_mono (Nat.le_add_left 1 depth) hdepth
  have hlist := listField_alike ((membersOfJson members).map Prod.snd)
    (List.forall_mem_map.mpr (fault?_of_mem hdepth)) (List.forall_mem_map.mpr (fault?_of_mem hone))
  have hfields : List.Forall₂ (FieldDecoder.Alike ((membersOfJson members).map Prod.snd))
      (OperatorObject.record (depth + 1)).fields (OperatorObject.record 1).fields := by
    simp only [OperatorObject.record, List.forall₂_cons, FieldDecoder.Alike.refl, hlist, and_self,
      List.Forall₂.nil]
  have hread := readMembers_alike hfields none (membersOfJson members)
    fun m hm => List.mem_map_of_mem hm
  unfold FieldFilter.ofDoc
  rw [Doc.ofJson, Record.decode, Record.decode, hread]
  rfl

theorem Constraint.ofDoc_eq_ok {J : Json} {c : Constraint}
    (h : (Doc.ofJson J).fault? depth = none) :
    Constraint.ofDoc depth (.ofJson J) = .ok c ↔ Constraint.Written J c := by
  have hscalar : ((Value.ofDoc (.ofJson J)).map .scalar = .ok c) ↔
      ∃ v, Value.Written J v ∧ .scalar v = c := by
    rw [map_eq_ok]
    exact exists_congr fun v => and_congr_left fun _ => Value.ofDoc_eq_ok
  cases J with
  | array items =>
    rw [Doc.ofJson, Constraint.ofDoc, map_eq_ok]
    simp only [Value.listOfItems_eq_ok]
    constructor
    · rintro ⟨vs, hvs, rfl⟩
      exact .list hvs
    · rintro (⟨⟨⟩⟩ | hvs)
      exact ⟨_, hvs, rfl⟩
  | object members =>
    have hfield : Constraint.ofDoc depth (.ofJson (.object members)) = .ok c ↔
        ∃ f, FieldFilter.ofDoc depth (.ofJson (.object members)) = .ok f ∧ .field f = c := map_eq_ok
    rw [hfield, FieldFilter.ofDoc_object h]
    constructor
    · rintro ⟨f, hf, rfl⟩
      exact .field hf
    · rintro (⟨⟨⟩⟩ | _ | hf)
      exact ⟨_, hf, rfl⟩
  | _ =>
    refine hscalar.trans ⟨?_, ?_⟩
    · rintro ⟨v, hv, rfl⟩
      exact .scalar hv
    · rintro ⟨hv⟩
      exact ⟨_, hv, rfl⟩

end

/-! ## filters -/

theorem asGroup_eq_ok {α : Type} {x : Decoded α} {a : α} : asGroup x = .ok a ↔ x = .ok a := by
  cases x with
  | error e => exact iff_of_false (fun h => by cases h) (fun h => by cases h)
  | ok b => exact Iff.rfl

def Entry.ofMember (depth : Nat) (key : String) (value : Doc) : Decoded Entry :=
  match Connective.ofKey? key with
  | some op => (value.settle depth >>= fun _ => asGroup (Filter.groupOfDoc depth value)).map (.group op)
  | none => (Constraint.ofDoc depth value).map fun c => .field key (some c)

theorem Filter.ofMembers_cons {depth : Nat} {close : Option Fault} {key : String} {value : Doc}
    {members : List (Key × Doc)} :
    Filter.ofMembers depth close ((.text key, value) :: members) =
      Entry.ofMember depth key value >>= fun e =>
        Filter.ofMembers depth close members >>= fun f => pure (e :: f) := by
  have hkey : (Key.text key).read value = .ok key := Key.read_eq_ok.mpr rfl
  rw [Filter.ofMembers, hkey, Entry.ofMember]
  cases hop : Connective.ofKey? key with
  | some op =>
    simp only [map_bind, bind_assoc]
    simp [hop, bind, Except.bind]
  | none =>
    simp only [map_bind]
    simp [hop, bind, Except.bind]

theorem Entry.ofMember_eq_ok {depth : Nat} {key : String} {J : Json} {e : Entry}
    (h : (Doc.ofJson J).fault? depth = none)
    (hgroup : ∀ {fs : List Filter},
      Filter.groupOfDoc depth (.ofJson J) = .ok fs ↔ Filter.GroupWritten J fs) :
    Entry.ofMember depth key (.ofJson J) = .ok e ↔ Entry.Written (key, J) e := by
  have hsettle : (Doc.ofJson J).settle depth = .ok () := by
    rw [Doc.settle, h, noFault]
  rw [Entry.ofMember, hsettle]
  cases hop : Connective.ofKey? key with
  | some op =>
    obtain rfl := Connective.ofKey?_eq_some.mp hop
    rw [Entry.written_group]
    refine map_eq_ok.trans (exists_congr fun fs => and_congr ?_ eq_comm)
    exact asGroup_eq_ok.trans hgroup
  | none =>
    rw [Entry.written_field (Connective.ofKey?_eq_none.mp hop)]
    exact map_eq_ok.trans (exists_congr fun c => and_congr (Constraint.ofDoc_eq_ok h) eq_comm)

-- The recursion is on the value; `depth` grows on the way to its parts, so it stays general.
mutual

/-- at every level, a value without faults decodes to exactly the filter that it spells -/
theorem Filter.ofDoc_eq_ok : ∀ {J : Json} {depth : Nat} {f : Filter},
    (Doc.ofJson J).fault? depth = none →
      (Filter.ofDoc depth (.ofJson J) = .ok f ↔ Filter.Written J f)
  | .object members, depth, f, h => by
    rw [Doc.ofJson, Filter.ofDoc, Filter.ofMembers_eq_ok (fault?_object_eq_none.mp h).2]
    exact ⟨.object, fun ⟨hmembers⟩ => hmembers⟩
  | .null, _, _, _ | .bool _, _, _, _ | .int _, _, _, _ | .float _, _, _, _ | .string _, _, _, _
  | .array _, _, _, _ => iff_of_false (fun h => by cases h) (fun h => by cases h)

theorem Filter.ofMembers_eq_ok : ∀ {members : List (String × Json)} {depth : Nat} {f : Filter},
    membersFault? depth (membersOfJson members) = none →
      (Filter.ofMembers depth none (membersOfJson members) = .ok f ↔
        List.Forall₂ Entry.Written members f)
  | [], _, _, _ => by
    constructor
    · intro h
      cases h
      exact .nil
    · rintro ⟨⟩
      rfl
  | (key, J) :: members, depth, f, h => by
    obtain ⟨hJ, hmembers⟩ := membersFault?_cons_eq_none.mp h
    rw [membersOfJson, Filter.ofMembers_cons, bind_cons_eq_ok, List.forall₂_cons_left_iff]
    simp only [Entry.ofMember_eq_ok hJ (Filter.groupOfDoc_eq_ok hJ),
      Filter.ofMembers_eq_ok hmembers]

theorem Filter.groupOfDoc_eq_ok : ∀ {J : Json} {depth : Nat} {fs : List Filter},
    (Doc.ofJson J).fault? depth = none →
      (Filter.groupOfDoc depth (.ofJson J) = .ok fs ↔ Filter.GroupWritten J fs)
  | .null, _, fs, _ => by
    constructor
    · intro h
      cases h
      exact .null
    · rintro (_ | ⟨⟨⟩⟩)
      rfl
  | .object members, depth, fs, h => by
    rw [Doc.ofJson, Filter.groupOfDoc, map_eq_ok, Filter.groupWritten_object]
    refine exists_congr fun f => and_congr ?_ eq_comm
    rw [Filter.ofMembers_eq_ok (fault?_object_eq_none.mp h).2]
    exact ⟨.object, fun ⟨hmembers⟩ => hmembers⟩
  | .array items, depth, fs, h => by
    rw [Doc.ofJson, Filter.groupOfDoc, Filter.listOfItems_eq_ok (fault?_array_eq_none.mp h).2]
    constructor
    · exact .many
    · rintro (_ | ⟨⟨⟩⟩ | hfs)
      exact hfs
  | .bool _, _, _, _ | .int _, _, _, _ | .float _, _, _, _ | .string _, _, _, _ =>
    iff_of_false (fun h => by cases h) (by rintro (_ | ⟨⟨⟩⟩))

theorem Filter.listOfItems_eq_ok : ∀ {items : List Json} {depth : Nat} {fs : List Filter},
    itemsFault? depth (itemsOfJson items) = none →
      (Filter.listOfItems depth none (itemsOfJson items) = .ok fs ↔
        List.Forall₂ Filter.Written items fs)
  | [], _, _, _ => by
    constructor
    · intro h
      cases h
      exact .nil
    · rintro ⟨⟩
      rfl
  | J :: items, depth, fs, h => by
    obtain ⟨hJ, hitems⟩ := itemsFault?_cons_eq_none.mp h
    rw [itemsOfJson, Filter.listOfItems, bind_cons_eq_ok, List.forall₂_cons_left_iff]
    simp only [Filter.ofDoc_eq_ok hJ, Filter.listOfItems_eq_ok hitems]

end

/-! ## texts -/

/-- a well-formed text decodes to what its value spells -/
theorem Filter.decodeText_eq {s : String} {J : Json} (h : Json.ofText? s = some J) {f : Filter} :
    decodeText (Filter.ofDoc 0) s = .ok f ↔ Filter.Written J f := by
  rw [Json.decodeText_eq h, Filter.ofDoc_eq_ok (Json.ofText?_eq_some h).2]

/-- A well-formed text decodes to the filter that its value spells in the grammar, and to no other.
An object that stands alone under a group key decodes there as it does as a text of its own. -/
theorem Filter.decodeText_eq_ok {s : String} {J : Json} (h : Json.ofText? s = some J) :
    (∀ f, decodeText (Filter.ofDoc 0) s = .ok f ↔ Filter.Written J f) ∧
    ∀ members (op : Connective) t, J = .object members →
      Json.ofText? t = some (.object [(op.text, J)]) →
        ∀ g, decodeText (Filter.ofDoc 0) t = .ok g ↔
          ∃ f, decodeText (Filter.ofDoc 0) s = .ok f ∧ g = [.group op [f]] := by
  refine ⟨fun f => Filter.decodeText_eq h, ?_⟩
  rintro members op t rfl ht g
  rw [Filter.decodeText_eq ht]
  constructor
  · rintro ⟨_ | ⟨hentry, ⟨⟩⟩⟩
    obtain ⟨fs, hfs, rfl⟩ := Entry.written_group.mp hentry
    obtain ⟨f, hf, rfl⟩ := Filter.groupWritten_object.mp hfs
    exact ⟨f, (Filter.decodeText_eq h).mpr hf, rfl⟩
  · rintro ⟨f, hf, rfl⟩
    have hwritten := (Filter.decodeText_eq h).mp hf
    exact .object (.cons (.group (.one hwritten)) .nil)

theorem Filter.decodeText_eq_ok_grouped :
    decodeText (Filter.ofDoc 0) "\x7b\"OR\": \x7b\"a\": null\x7d\x7d" =
        .ok [.group .or [[.field "a" (some (.scalar .null))]]] ∧
      decodeText (Filter.ofDoc 0) "\x7b\"NOT\": \x7b\"OR\": \x7b\"a\": null\x7d\x7d\x7d" =
        .ok [.group .not [[.group .or [[.field "a" (some (.scalar .null))]]]]] := by
  have hs : Json.ofText? "\x7b\"OR\": \x7b\"a\": null\x7d\x7d" = some (Json.path ["OR", "a"]) :=
    Json.ofText?_eq_path (by decide +kernel)
  have ht : Json.ofText? "\x7b\"NOT\": \x7b\"OR\": \x7b\"a\": null\x7d\x7d\x7d" =
      some (Json.path ["NOT", "OR", "a"]) :=
    Json.ofText?_eq_path (by decide +kernel)
  have hfield : ∀ op : Connective, "a" ≠ op.text := by
    intro op
    cases op <;> decide
  have hinner : Filter.Written (Json.path ["a"]) [.field "a" (some (.scalar .null))] :=
    .object (.cons (.field hfield (.scalar .null)) .nil)
  have hor : Entry.Written (Connective.or.text, Json.path ["a"])
      (.group .or [[.field "a" (some (.scalar .null))]]) := .group (.one hinner)
  have hf := ((Filter.decodeText_eq_ok hs).1 _).mpr (.object (.cons hor .nil))
  exact ⟨hf, ((Filter.decodeText_eq_ok hs).2 _ .not _ rfl ht _).mpr ⟨_, hf, rfl⟩⟩

end FilterSql
