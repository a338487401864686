import Mathlib.Data.List.Forall2
import FilterSql.Json.Decode

/-!
# Reading records

A record is read member by member or, from an array, item by item.  If one field alone reads a part of
the record, that part holds what the member with the field's name, or the item in its place, gives, and
what it held before if there is no such member or item (`readMembers_part`, `readItems_part`).
-/

namespace FilterSql.Json

/-! ## steps that succeed -/

theorem bind_eq_ok {ε α β : Type} {x : Except ε α} {f : α → Except ε β} {b : β} :
    (x >>= f) = .ok b ↔ ∃ a, x = .ok a ∧ f a = .ok b := by
  cases x with
  | error e =>
    refine ⟨fun h => ?_, fun ⟨_, h, _⟩ => ?_⟩ <;> cases h
  | ok a =>
    refine ⟨fun h => ⟨a, rfl, h⟩, fun ⟨_, h, hb⟩ => ?_⟩
    cases h
    exact hb

theorem map_eq_ok {ε α β : Type} {x : Except ε α} {f : α → β} {b : β} :
    x.map f = .ok b ↔ ∃ a, x = .ok a ∧ f a = b := by
  cases x with
  | error e =>
    refine ⟨fun h => ?_, fun ⟨_, h, _⟩ => ?_⟩ <;> cases h
  | ok a =>
    refine ⟨fun h => ⟨a, rfl, Except.ok.inj h⟩, fun ⟨_, h, hb⟩ => ?_⟩
    cases h
    exact congrArg _ hb

theorem map_bind {ε α β γ : Type} (x : Except ε α) (f : α → β) (g : β → Except ε γ) :
    x.map f >>= g = x >>= fun a => g (f a) := by
  cases x <;> rfl

/-- a list is read item by item -/
theorem bind_cons_eq_ok {ε α : Type} {x : Except ε α} {xs : Except ε (List α)} {l : List α} :
    (x >>= fun a => xs >>= fun as => pure (a :: as)) = .ok l ↔
      ∃ a as, x = .ok a ∧ xs = .ok as ∧ l = a :: as := by
  rw [bind_eq_ok]
  refine exists_congr fun a => ?_
  rw [bind_eq_ok, exists_and_left]
  refine and_congr_right fun _ => exists_congr fun as => and_congr_right fun _ => ?_
  exact ⟨fun h => (Except.ok.inj h).symm, fun h => congrArg _ h.symm⟩

theorem Key.read_eq_ok {value : Doc} {key : Key} {name : String} :
    key.read value = .ok name ↔ key = .text name := by
  cases key with
  | text s => simp [Key.read]
  | unpaired => simp [Key.read, fault]
  | absent => simp [Key.read, fault]

/-! ## fields that read alike -/

section
variable {σ : Type} {values : List Doc} {fields fields' : List (FieldDecoder σ)}

/-- two fields of one name read these values alike -/
def FieldDecoder.Alike (values : List Doc) (f g : FieldDecoder σ) : Prop :=
  f.name = g.name ∧ ∀ d ∈ values, ∀ s, f.read d s = g.read d s

theorem FieldDecoder.Alike.refl (f : FieldDecoder σ) : f.Alike values f :=
  ⟨rfl, fun _ _ _ => rfl⟩

theorem find?_alike (h : List.Forall₂ (FieldDecoder.Alike values) fields fields') (name : String) :
    Option.Rel (FieldDecoder.Alike values) (fields.find? (·.name = name))
      (fields'.find? (·.name = name)) := by
  induction h with
  | nil => exact .none
  | @cons f g _ _ hfg _ ih =>
    rw [List.find?_cons, List.find?_cons, hfg.1]
    cases decide (g.name = name) with
    | true => exact .some hfg
    | false => exact ih

/-- fields that read all values of an object alike read the object alike -/
theorem readMembers_alike (h : List.Forall₂ (FieldDecoder.Alike values) fields fields')
    (close : Option Fault) : ∀ (members : List (Key × Doc)), (∀ m ∈ members, m.2 ∈ values) →
      ∀ (seen : List String) (s : σ),
        readMembers fields close seen s members = readMembers fields' close seen s members
  | [], _, _, _ => rfl
  | (key, value) :: members, hvalues, seen, s => by
    obtain ⟨hvalue, hmembers⟩ := List.forall_mem_cons.mp hvalues
    have ih := readMembers_alike h close members hmembers
    rw [readMembers, readMembers]
    refine bind_congr fun name => ?_
    have hfind := find?_alike h name
    revert hfind
    cases fields.find? (·.name = name) <;> cases fields'.find? (·.name = name) <;> intro hfind <;>
      cases hfind
    · exact bind_congr fun _ => ih seen s
    · rename_i hfg
      show (if _ then _ else _) = (if _ then _ else _)
      rw [hfg.2 value hvalue s]
      split
      · rfl
      · exact bind_congr fun t => ih (name :: seen) t

end

/-! ## parts of a record -/

/-- the value of the first member with a key -/
def member? (name : String) : List (Key × Doc) → Option Doc
  | [] => none
  | (.text s, value) :: members => if s = name then some value else member? name members
  | _ :: members => member? name members

section
variable {σ β : Type} {fields : List (FieldDecoder σ)} {close : Option Fault} {π : σ → β}
  {R : Doc → β → Prop}

/-- reading the field leaves a part of the record as it is -/
def FieldDecoder.Keeps (π : σ → β) (f : FieldDecoder σ) : Prop :=
  ∀ d s t, f.read d s = .ok t → π t = π s

/-- reading the field puts into a part of the record what is related to the document -/
def FieldDecoder.Sets (π : σ → β) (R : Doc → β → Prop) (f : FieldDecoder σ) : Prop :=
  ∀ d s t, f.read d s = .ok t → R d (π t)

/-- the part is as before without a document, and related to the document if there is one -/
def Part (R : Doc → β → Prop) (before : β) : Option Doc → β → Prop
  | none, after => after = before
  | some d, after => R d after

/-- the document of a field: the member of its name, or the item in its place -/
def Doc.entry? (name : String) (i : Nat) : Doc → Option Doc
  | .object members _ => member? name members
  | .array items _ => items[i]?
  | _ => none

/-- what happens to a member that is read: it is passed over, or a field reads it for the first time -/
theorem readMembers_cons_eq_ok {key : Key} {value : Doc} {members : List (Key × Doc)}
    {seen : List String} {s : σ} {r : List String × σ} :
    readMembers fields close seen s ((key, value) :: members) = .ok r ↔
      ∃ name, key = .text name ∧
        ((fields.find? (·.name = name) = none ∧ value.skip = .ok () ∧
          readMembers fields close seen s members = .ok r) ∨
        ∃ f t, fields.find? (·.name = name) = some f ∧ name ∉ seen ∧ f.read value s = .ok t ∧
          readMembers fields close (name :: seen) t members = .ok r) := by
  rw [readMembers, bind_eq_ok]
  refine exists_congr fun name => ?_
  rw [Key.read_eq_ok]
  refine and_congr_right fun _ => ?_
  cases hf : fields.find? (·.name = name) with
  | none =>
    have hstep : (value.skip >>= fun _ => readMembers fields close seen s members) = .ok r ↔
        value.skip = .ok () ∧ readMembers fields close seen s members = .ok r := by
      rw [bind_eq_ok]
      exact ⟨fun ⟨_, h⟩ => h, fun h => ⟨(), h⟩⟩
    simpa using hstep
  | some f =>
    have hstep : (if seen.contains name then mismatch (.duplicateField name)
        else f.read value s >>= fun t => readMembers fields close (name :: seen) t members) =
          .ok r ↔ name ∉ seen ∧ ∃ t, f.read value s = .ok t ∧
            readMembers fields close (name :: seen) t members = .ok r := by
      rw [← bind_eq_ok]
      split
      · rename_i hmem
        exact iff_of_false (fun h => by cases h) (fun h => h.1 (List.contains_iff_mem.mp hmem))
      · rename_i hmem
        exact (and_iff_right (mt List.contains_iff_mem.mpr hmem)).symm
    simpa using hstep

/-- the field that is found under a key is one of the fields, and has that name -/
theorem FieldDecoder.mem_of_find? {key : String} {f : FieldDecoder σ}
    (h : fields.find? (·.name = key) = some f) : f ∈ fields ∧ f.name = key :=
  ⟨List.mem_of_find?_eq_some h, by simpa using List.find?_some h⟩

theorem FieldDecoder.keeps_of_find? {name other : String} {g : FieldDecoder σ}
    (hkeeps : ∀ g ∈ fields, g.name ≠ name → g.Keeps π)
    (hfind : fields.find? (·.name = other) = some g) (hne : other ≠ name) : g.Keeps π := by
  obtain ⟨hg, hname⟩ := FieldDecoder.mem_of_find? hfind
  exact hkeeps g hg (hname ▸ hne)

section
variable {name : String} {f : FieldDecoder σ} (hf : fields.find? (·.name = name) = some f)
  (hkeeps : ∀ g ∈ fields, g.name ≠ name → g.Keeps π)
include hf hkeeps

/-- a field that has been read is not read again -/
theorem readMembers_of_mem_seen {seen : List String} {s : σ} {members : List (Key × Doc)}
    {r : List String × σ} (hseen : name ∈ seen)
    (h : readMembers fields close seen s members = .ok r) :
    member? name members = none ∧ π r.2 = π s := by
  induction members generalizing seen s with
  | nil =>
    obtain ⟨_, _, rfl⟩ := map_eq_ok.mp h
    exact ⟨rfl, rfl⟩
  | cons m members ih =>
    obtain ⟨other, hkey, ⟨hnone, -, hrest⟩ | ⟨g, t, hfind, hnew, hread, hrest⟩⟩ :=
      readMembers_cons_eq_ok.mp h
    · -- the member is passed over, so it is none of the fields
      have hne : other ≠ name := by
        rintro rfl
        rw [hf] at hnone
        cases hnone
      rw [show m = (.text other, m.2) from Prod.ext hkey rfl, member?, if_neg hne]
      exact ih hseen hrest
    · have hne : other ≠ name := fun heq => hnew (heq ▸ hseen)
      have hkept : π t = π s := FieldDecoder.keeps_of_find? hkeeps hfind hne _ _ _ hread
      rw [show m = (.text other, m.2) from Prod.ext hkey rfl, member?, if_neg hne, ← hkept]
      exact ih (List.mem_cons_of_mem _ hseen) hrest

/-- a part that one field reads holds what the member with its name gives -/
theorem readMembers_part (hsets : f.Sets π R) {seen : List String} {s : σ}
    {members : List (Key × Doc)} {r : List String × σ} (hseen : name ∉ seen)
    (h : readMembers fields close seen s members = .ok r) :
    Part R (π s) (member? name members) (π r.2) := by
  induction members generalizing seen s with
  | nil =>
    obtain ⟨_, _, rfl⟩ := map_eq_ok.mp h
    exact rfl
  | cons m members ih =>
    obtain ⟨other, hkey, ⟨hnone, -, hrest⟩ | ⟨g, t, hfind, hnew, hread, hrest⟩⟩ :=
      readMembers_cons_eq_ok.mp h
    · have hne : other ≠ name := by
        rintro rfl
        rw [hf] at hnone
        cases hnone
      rw [show m = (.text other, m.2) from Prod.ext hkey rfl, member?, if_neg hne]
      exact ih hseen hrest
    · rw [show m = (.text other, m.2) from Prod.ext hkey rfl, member?]
      split
      · rename_i heq
        subst heq
        rw [hf] at hfind
        cases hfind
        -- the field is in `seen` from here on: a second member with its name would be an error
        have hlast := readMembers_of_mem_seen hf hkeeps List.mem_cons_self hrest
        rw [hlast.2]
        exact hsets _ _ _ hread
      · rename_i hne
        have hkept : π t = π s := FieldDecoder.keeps_of_find? hkeeps hfind hne _ _ _ hread
        rw [← hkept]
        exact ih (by simp [hseen, Ne.symm hne]) hrest

end

/-- members with texts as keys are read if no field comes twice, every field reads what it has in any
state, and every value can be passed over -/
theorem exists_readMembers {α : Type} {doc : α → Doc} {members : List (String × α)}
    (honce : ∀ f ∈ fields, (members.map Prod.fst).count f.name ≤ 1)
    (hread : ∀ f ∈ fields, ∀ a, (f.name, a) ∈ members → ∀ s, ∃ t, f.read (doc a) s = .ok t)
    (hskip : ∀ m ∈ members, (doc m.2).skip = .ok ()) {seen : List String}
    (hseen : ∀ name ∈ seen, name ∉ members.map Prod.fst) (s : σ) :
    ∃ r, readMembers fields none seen s (members.map fun m => (.text m.1, doc m.2)) = .ok r := by
  induction members generalizing seen s with
  | nil => exact ⟨_, rfl⟩
  | cons m members ih =>
    obtain ⟨hm, hmembers⟩ := List.forall_mem_cons.mp hskip
    have honce' : ∀ f ∈ fields, (members.map Prod.fst).count f.name ≤ 1 := fun f hf =>
      Nat.le_trans List.count_le_count_cons (honce f hf)
    have hread' : ∀ f ∈ fields, ∀ a, (f.name, a) ∈ members → ∀ s, ∃ t, f.read (doc a) s = .ok t :=
      fun f hf a ha => hread f hf a (List.mem_cons_of_mem _ ha)
    have hseen' : ∀ name ∈ seen, name ∉ members.map Prod.fst := fun name hname hmem =>
      hseen name hname (List.mem_cons_of_mem _ hmem)
    simp only [List.map_cons, readMembers_cons_eq_ok]
    cases hf : fields.find? (·.name = m.1) with
    | none =>
      obtain ⟨r, hr⟩ := ih honce' hread' hmembers hseen' s
      exact ⟨r, m.1, rfl, .inl ⟨hf, hm, hr⟩⟩
    | some f =>
      obtain ⟨hmem, hname⟩ := FieldDecoder.mem_of_find? hf
      have hnew : m.1 ∉ seen := fun h => hseen _ h List.mem_cons_self
      have hlast : m.1 ∉ members.map Prod.fst := by
        have hcount := honce f hmem
        rw [List.map_cons, hname, List.count_cons_self] at hcount
        exact List.count_eq_zero.mp (Nat.le_zero.mp (Nat.le_of_succ_le_succ hcount))
      obtain ⟨t, ht⟩ := hread f hmem m.2 (hname ▸ List.mem_cons_self) s
      obtain ⟨r, hr⟩ := ih honce' hread' hmembers (List.forall_mem_cons.mpr ⟨hlast, hseen'⟩) t
      exact ⟨r, m.1, rfl, .inr ⟨f, t, hf, hnew, ht, hr⟩⟩

/-- what stands under a name, if anything does -/
theorem member?_cases {α : Type} (doc : α → Doc) (name : String) (members : List (String × α)) :
    (name ∉ members.map Prod.fst ∧
      member? name (members.map fun m => (.text m.1, doc m.2)) = none) ∨
    ∃ a, (name, a) ∈ members ∧
      member? name (members.map fun m => (.text m.1, doc m.2)) = some (doc a) := by
  induction members with
  | nil => exact .inl ⟨List.not_mem_nil, rfl⟩
  | cons m members ih =>
    simp only [List.map_cons, member?]
    split
    · rename_i heq
      exact .inr ⟨m.2, heq ▸ List.mem_cons_self, rfl⟩
    · rename_i hne
      rcases ih with ⟨hnone, hmember⟩ | ⟨a, ha, hmember⟩
      · refine .inl ⟨?_, hmember⟩
        simpa [Ne.symm hne] using hnone
      · exact .inr ⟨a, List.mem_cons_of_mem _ ha, hmember⟩

theorem readItems_keeps {items : List Doc} {s t : σ} (hkeeps : ∀ g ∈ fields, g.Keeps π)
    (h : readItems close fields s items = .ok t) : π t = π s := by
  induction fields generalizing s items with
  | nil =>
    cases items with
    | nil =>
      obtain ⟨_, _, rfl⟩ := map_eq_ok.mp h
      rfl
    | cons item items => cases h
  | cons g fields ih =>
    cases items with
    | nil =>
      obtain ⟨_, _, rfl⟩ := map_eq_ok.mp h
      rfl
    | cons item items =>
      obtain ⟨u, hread, hrest⟩ := bind_eq_ok.mp h
      obtain ⟨hg, hfields⟩ := List.forall_mem_cons.mp hkeeps
      rw [ih hfields hrest, hg _ _ _ hread]

/-- a part that one field reads holds what the item in its place gives -/
theorem readItems_part {items : List Doc} {i : Nat} {f : FieldDecoder σ} {s t : σ}
    (hf : fields[i]? = some f) (hsets : f.Sets π R)
    (hkeeps : ∀ j g, fields[j]? = some g → j ≠ i → g.Keeps π)
    (h : readItems close fields s items = .ok t) : Part R (π s) items[i]? (π t) := by
  induction fields generalizing s items i with
  | nil => cases hf
  | cons g fields ih =>
    cases items with
    | nil =>
      obtain ⟨_, _, rfl⟩ := map_eq_ok.mp h
      exact rfl
    | cons item items =>
      obtain ⟨u, hread, hrest⟩ := bind_eq_ok.mp h
      cases i with
      | zero =>
        cases hf
        have hlast : π t = π u := readItems_keeps (fun g hg => by
          obtain ⟨j, hj⟩ := List.mem_iff_getElem?.mp hg
          exact hkeeps (j + 1) g hj (Nat.succ_ne_zero j)) hrest
        rw [List.getElem?_cons_zero, hlast]
        exact hsets _ _ _ hread
      | succ i =>
        have hkept : π u = π s := hkeeps 0 g rfl (Nat.succ_ne_zero i).symm _ _ _ hread
        rw [List.getElem?_cons_succ, ← hkept]
        exact ih hf (fun j g hj hne => hkeeps (j + 1) g hj (by omega)) hrest

/-- a part that one field reads holds what the document has for it, or what it holds at the start -/
theorem Record.decode_part {r : Record σ} {name : String} {i : Nat} {f : FieldDecoder σ} {d : Doc}
    {s : σ} (hname : r.fields.find? (·.name = name) = some f) (hplace : r.fields[i]? = some f)
    (hsets : f.Sets π R) (hkeeps : ∀ j g, r.fields[j]? = some g → j ≠ i → g.Keeps π)
    (h : r.decode d = .ok s) : Part R (π r.start) (d.entry? name i) (π s) := by
  cases d with
  | object members close =>
    obtain ⟨⟨seen, t⟩, hread, h⟩ := bind_eq_ok.mp h
    have hothers : ∀ g ∈ r.fields, g.name ≠ name → g.Keeps π := by
      intro g hg hne
      obtain ⟨j, hj⟩ := List.mem_iff_getElem?.mp hg
      refine hkeeps j g hj ?_
      rintro rfl
      obtain rfl : f = g := Option.some.inj (hplace.symm.trans hj)
      exact hne (FieldDecoder.mem_of_find? hname).2
    have hpart := readMembers_part hname hothers hsets List.not_mem_nil hread
    dsimp only at h
    split at h
    · cases h
    · cases h
      exact hpart
  | array items close =>
    obtain ⟨t, hread, h⟩ := bind_eq_ok.mp h
    have hpart := readItems_part hplace hsets hkeeps hread
    split at h
    · cases h
    · cases h
      exact hpart
  | number n => rcases n with _ | _ | _ <;> cases h
  | string s => rcases s with _ | _ <;> cases h
  | null => cases h
  | bool b => cases h
  | broken => cases h

end

end FilterSql.Json
