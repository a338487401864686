import FilterSql.Proofs.Members
import FilterSql.Settings.Basic

/-!
# What a settings file gives

Each field of limits reads the number of one `Setting` and leaves the others alone, so a file that is read
gives every setting the number that it has for it, and the built-in one where it has none
(`Settings.ofText_eq_ok`).  `Settings.Decodes` is the form that a file of well-formed JSON has to have for
that (`Settings.exists_ofText_iff`).
-/

namespace FilterSql

open Json

/-! ## the three settings -/

/-- a setting; the constructors are in the order in which the variables are read -/
inductive Setting where
  | defaultPageSize
  | maxPageSize
  | maxFilterDepth

namespace Setting

def key : Setting → String
  | defaultPageSize => "SIEVE_DEFAULT_PAGE_SIZE"
  | maxPageSize => "SIEVE_MAX_PAGE_SIZE"
  | maxFilterDepth => "SIEVE_MAX_FILTER_DEPTH"

def name : Setting → String
  | defaultPageSize => "defaultPageSize"
  | maxPageSize => "maxPageSize"
  | maxFilterDepth => "maxFilterDepth"

/-- its place, among the variables and in a settings file that is an array -/
def place : Setting → Nat
  | defaultPageSize => 0
  | maxPageSize => 1
  | maxFilterDepth => 2

/-- no value reaches this bound -/
def bound : Setting → Nat
  | defaultPageSize => UInt32.size
  | maxPageSize => UInt32.size
  | maxFilterDepth => UInt64.size

def of : Setting → Settings → Nat
  | defaultPageSize, s => s.defaultPageSize.toNat
  | maxPageSize, s => s.maxPageSize.toNat
  | maxFilterDepth, s => s.maxFilterDepth.toNat

def inFile? (x : Setting) (content : String) : Option Doc :=
  (Document.ofText content).root.entry? x.name x.place

theorem of_lt_bound (x : Setting) (s : Settings) : x.of s < x.bound := by
  cases x with
  | defaultPageSize => exact s.defaultPageSize.toNat_lt_size
  | maxPageSize => exact s.maxPageSize.toNat_lt_size
  | maxFilterDepth => exact s.maxFilterDepth.toNat_lt_size

theorem bound_le (x : Setting) : x.bound ≤ UInt64.size := by
  cases x <;> decide

theorem name_injective {x y : Setting} (h : x.name = y.name) : x = y := by
  cases x <;> cases y <;> first | rfl | exact absurd h (by decide)

end Setting

/-- settings with the same values are the same -/
theorem Settings.eq_of_forall {s t : Settings} (h : ∀ x : Setting, x.of s = x.of t) : s = t := by
  have hdefault : s.defaultPageSize = t.defaultPageSize := UInt32.toNat_inj.mp (h .defaultPageSize)
  have hmax : s.maxPageSize = t.maxPageSize := UInt32.toNat_inj.mp (h .maxPageSize)
  have hdepth : s.maxFilterDepth = t.maxFilterDepth := UInt64.toNat_inj.mp (h .maxFilterDepth)
  cases s
  cases t
  rw [mk.injEq]
  exact ⟨hdefault, hmax, hdepth⟩

/-! ## what a settings file gives -/

namespace Json

def Doc.IsNumber (d : Doc) (n : Nat) : Prop := d = .number (some (.int n))

theorem Doc.refuse_ne_ok {α : Type} {expected : Expected} {d : Doc} {a : α} :
    d.refuse expected ≠ .ok a := by
  intro h
  cases d with
  | number n => rcases n with _ | _ | _ <;> cases h
  | string s => rcases s with _ | _ <;> cases h
  | _ => cases h

theorem Doc.toIntWithin_eq_ok {lo hi n : Int} {expected : Expected} {d : Doc}
    (h : d.toIntWithin lo hi expected = .ok n) :
    d = .number (some (.int n)) ∧ lo ≤ n ∧ n ≤ hi := by
  unfold Doc.toIntWithin at h
  split at h
  · split at h
    · rename_i hrange
      cases h
      exact ⟨rfl, hrange⟩
    · cases h
  · exact absurd h Doc.refuse_ne_ok

theorem Doc.toWord32_eq_ok {d : Doc} {w : UInt32} (h : d.toWord32 = .ok w) :
    d.IsNumber w.toNat := by
  obtain ⟨n, hn, rfl⟩ := map_eq_ok.mp h
  obtain ⟨rfl, hlo, hhi⟩ := Doc.toIntWithin_eq_ok hn
  have hsize : n.toNat < UInt32.size := by omega
  have hcast : (n.toNat.toUInt32.toNat : Int) = n := by
    rw [UInt32.toNat_ofNat_of_lt' hsize]
    omega
  rw [Doc.IsNumber, hcast]

theorem Doc.toWord64_eq_ok {expected : Expected} {d : Doc} {w : UInt64}
    (h : d.toWord64 expected = .ok w) : d.IsNumber w.toNat := by
  obtain ⟨n, hn, rfl⟩ := map_eq_ok.mp h
  obtain ⟨rfl, hlo, hhi⟩ := Doc.toIntWithin_eq_ok hn
  have hsize : n.toNat < UInt64.size := by omega
  have hcast : (n.toNat.toUInt64.toNat : Int) = n := by
    rw [UInt64.toNat_ofNat_of_lt' hsize]
    omega
  rw [Doc.IsNumber, hcast]

theorem Doc.toIntWithin_natural {n bound : Nat} (h : n < bound) (expected : Expected) :
    Doc.toIntWithin 0 (bound - 1) expected (.number (some (.int n))) = .ok n :=
  if_pos ⟨Int.natCast_nonneg n, by omega⟩

theorem Doc.toWord32_natural {n : Nat} (h : n < UInt32.size) :
    Doc.toWord32 (.number (some (.int n))) = .ok n.toUInt32 :=
  map_eq_ok.mpr ⟨n, toIntWithin_natural h _, rfl⟩

theorem Doc.toWord64_natural {n : Nat} (h : n < UInt64.size) (expected : Expected) :
    Doc.toWord64 expected (.number (some (.int n))) = .ok n.toUInt64 :=
  map_eq_ok.mpr ⟨n, toIntWithin_natural h _, rfl⟩

theorem Doc.isNumber_ofJson {J : Json} {n : Nat} : (Doc.ofJson J).IsNumber n ↔ J = .int n := by
  cases J <;> simp [Doc.IsNumber, Doc.ofJson]

end Json

/-- the setting can have this as its number -/
def Setting.Accepts (x : Setting) (J : Json) : Prop := ∃ n : Nat, n < x.bound ∧ J = .int n

/-- what a member of this name can have, if it is that of a setting -/
def Limits.Accepts (name : String) (J : Json) : Prop := ∀ x : Setting, x.name = name → x.Accepts J

theorem Limits.accepts_name {x : Setting} {J : Json} : Limits.Accepts x.name J ↔ x.Accepts J :=
  ⟨fun h => h x rfl, fun h _ hy => Setting.name_injective hy ▸ h⟩

/-- the fields of limits are those of the settings, each in its place -/
theorem Limits.exists_place {i : Nat} {f : FieldDecoder Limits} (h : Limits.fields[i]? = some f) :
    ∃ x : Setting, i = x.place ∧ f.name = x.name := by
  rcases i with _ | _ | _ | i <;> cases h
  · exact ⟨.defaultPageSize, rfl, rfl⟩
  · exact ⟨.maxPageSize, rfl, rfl⟩
  · exact ⟨.maxFilterDepth, rfl, rfl⟩

theorem Limits.exists_name {f : FieldDecoder Limits} (hf : f ∈ Limits.fields) :
    ∃ x : Setting, f.name = x.name := by
  obtain ⟨i, hi⟩ := List.mem_iff_getElem?.mp hf
  obtain ⟨x, -, hname⟩ := Limits.exists_place hi
  exact ⟨x, hname⟩

/-- a field of limits reads the numbers of its setting and nothing else, whatever has been read -/
theorem Limits.read_iff {f : FieldDecoder Limits} (hf : f ∈ Limits.fields) (J : Json) (l : Limits) :
    (∃ t, f.read (.ofJson J) l = .ok t) ↔ Limits.Accepts f.name J := by
  have hword32 : ∀ mk : UInt32 → Limits,
      (∃ t, ((Doc.ofJson J).toWord32 >>= fun w => pure (mk w)) = .ok t) ↔
        ∃ n : Nat, n < UInt32.size ∧ J = .int n := by
    intro mk
    constructor
    · rintro ⟨t, ht⟩
      obtain ⟨w, hw, -⟩ := bind_eq_ok.mp ht
      exact ⟨w.toNat, w.toNat_lt_size, Doc.isNumber_ofJson.mp (Doc.toWord32_eq_ok hw)⟩
    · rintro ⟨n, hn, rfl⟩
      exact ⟨_, bind_eq_ok.mpr ⟨_, Doc.toWord32_natural hn, rfl⟩⟩
  simp only [Limits.fields, List.mem_cons, List.not_mem_nil, or_false] at hf
  rcases hf with rfl | rfl | rfl
  · exact (hword32 _).trans (@Limits.accepts_name .defaultPageSize J).symm
  · exact (hword32 _).trans (@Limits.accepts_name .maxPageSize J).symm
  · refine Iff.trans ⟨?_, ?_⟩ (@Limits.accepts_name .maxFilterDepth J).symm
    · rintro ⟨t, ht⟩
      obtain ⟨w, hw, -⟩ := bind_eq_ok.mp ht
      exact ⟨w.toNat, w.toNat_lt_size, Doc.isNumber_ofJson.mp (Doc.toWord64_eq_ok hw)⟩
    · rintro ⟨n, hn, rfl⟩
      exact ⟨_, bind_eq_ok.mpr ⟨_, Doc.toWord64_natural hn _, rfl⟩⟩

/-- each field of limits is read alone -/
theorem Limits.fields_keep (x : Setting) (j : Nat) (g : FieldDecoder Limits)
    (hg : Limits.fields[j]? = some g) (hj : j ≠ x.place) :
    g.Keeps fun l => x.of (.ofLimits l) := by
  intro d l t hread
  -- three fields against three settings: a field replaces its own number and no other
  rcases j with _ | _ | _ | j <;> cases hg <;> obtain ⟨w, -, h⟩ := bind_eq_ok.mp hread <;>
    cases h <;> cases x <;> first | rfl | exact absurd rfl hj

/-- the field of a setting, under its name and in its place, reads its number -/
theorem Limits.fields_set (x : Setting) : ∃ f, Limits.fields.find? (·.name = x.name) = some f ∧
    Limits.fields[x.place]? = some f ∧
      f.Sets (fun l => x.of (.ofLimits l)) Doc.IsNumber := by
  cases x with
  | defaultPageSize | maxPageSize =>
    refine ⟨_, rfl, rfl, fun d l t hread => ?_⟩
    obtain ⟨w, hw, h⟩ := bind_eq_ok.mp hread
    cases h
    exact Doc.toWord32_eq_ok hw
  | maxFilterDepth =>
    refine ⟨_, rfl, rfl, fun d l t hread => ?_⟩
    obtain ⟨w, hw, h⟩ := bind_eq_ok.mp hread
    cases h
    exact Doc.toWord64_eq_ok hw

/-- a settings file gives the numbers that it holds, and the built-in ones for the rest -/
theorem Settings.ofText_eq_ok {content : String} {s : Settings}
    (h : Settings.ofText content = .ok s) (x : Setting) :
    Part Doc.IsNumber (x.of .standard) (x.inFile? content) (x.of s) := by
  obtain ⟨s', hroot, htrailing⟩ := bind_eq_ok.mp h
  obtain rfl : s' = s := by
    split at htrailing
    · cases htrailing
    · cases htrailing
      rfl
  obtain ⟨l, hl, rfl⟩ := map_eq_ok.mp hroot
  obtain ⟨f, hname, hplace, hsets⟩ := Limits.fields_set x
  exact Record.decode_part hname hplace hsets (Limits.fields_keep x) hl

/-- What a settings file of well-formed JSON has to be: an object that names no setting twice, or an array
of at most three items, with numbers that the settings can have. -/
inductive Settings.Decodes : Json → Prop
  | object {members : List (String × Json)} :
      (∀ x : Setting, (valuesUnder x.name members).length ≤ 1) →
      (∀ x : Setting, ∀ J ∈ valuesUnder x.name members, x.Accepts J) → Decodes (.object members)
  | array {items : List Json} : items.length ≤ 3 →
      (∀ (x : Setting) (J : Json), items[x.place]? = some J → x.Accepts J) → Decodes (.array items)

theorem Settings.exists_decode_object {members : List (String × Json)} :
    (∃ l, Settings.record.decode (.ofJson (.object members)) = .ok l) ↔
      Settings.Decodes (.object members) := by
  have hkeys : ∀ x : Setting, x.name ∈ FieldDecoder.names Limits.fields := by
    intro x
    obtain ⟨f, hf, -⟩ := Limits.fields_set x
    exact List.mem_map.mpr ⟨f, FieldDecoder.mem_of_find? hf⟩
  have hread := @Record.exists_decode_iff _ Settings.record rfl Limits.Accepts members
    fun f hf J _ l => Limits.read_iff hf J l
  refine hread.trans ⟨fun h => ?_, fun h => ?_⟩
  · obtain ⟨honce, hall⟩ := h
    refine .object (fun x => honce _ (hkeys x)) fun x J hJ => ?_
    exact Limits.accepts_name.mp (hall _ (mem_known.mpr ⟨mem_valuesUnder.mp hJ, hkeys x⟩))
  · cases h with
    | object honce hall =>
      refine ⟨fun key hkey => ?_, fun m hm x hx => ?_⟩
      · obtain ⟨f, hf, rfl⟩ := List.mem_map.mp hkey
        obtain ⟨x, hname⟩ := Limits.exists_name hf
        rw [hname]
        exact honce x
      · exact hall x m.2 (mem_valuesUnder.mpr (hx ▸ (mem_known.mp hm).1))

theorem Settings.exists_decode_array {items : List Json} :
    (∃ l, Settings.record.decode (.ofJson (.array items)) = .ok l) ↔
      Settings.Decodes (.array items) := by
  have hread := @exists_readItems_iff _ Limits.fields Limits.Accepts items
    (fun f hf => Limits.read_iff hf) .standard
  rw [Doc.ofJson, Record.decode_array rfl]
  refine hread.trans ⟨?_, ?_⟩
  · rintro ⟨hlength, hall⟩
    refine .array hlength fun x J hJ => ?_
    obtain ⟨f, hf, hplace, -⟩ := Limits.fields_set x
    rw [← Limits.accepts_name, ← (FieldDecoder.mem_of_find? hf).2]
    exact hall x.place f J hplace hJ
  · rintro (_ | ⟨hlength, hall⟩)
    refine ⟨hlength, fun i f J hf hJ => ?_⟩
    obtain ⟨x, rfl, hname⟩ := Limits.exists_place hf
    rw [hname]
    exact Limits.accepts_name.mpr (hall x J hJ)

theorem Settings.exists_ofText_iff {content : String} {J : Json} (h : Json.ofText? content = some J) :
    (∃ s, Settings.ofText content = .ok s) ↔ Settings.Decodes J := by
  have hdecode : (∃ s, Settings.ofText content = .ok s) ↔
      ∃ l, Settings.record.decode (.ofJson J) = .ok l := by
    rw [Settings.ofText, Json.decodeText_eq h]
    constructor
    · rintro ⟨s, hs⟩
      obtain ⟨l, hl, -⟩ := map_eq_ok.mp hs
      exact ⟨l, hl⟩
    · rintro ⟨l, hl⟩
      exact ⟨_, map_eq_ok.mpr ⟨l, hl, rfl⟩⟩
  rw [hdecode]
  cases J with
  | object members => exact Settings.exists_decode_object
  | array items => exact Settings.exists_decode_array
  | _ => exact iff_of_false (fun ⟨_, h⟩ => nomatch h) (fun h => nomatch h)

end FilterSql
