import Mathlib.Logic.Relation
import FilterSql.CommandLine
import FilterSql.Proofs.Layers
import FilterSql.Proofs.Members
import FilterSql.Proofs.Splice
import FilterSql.Proofs.Validation

/-!
# Printed settings reload

Limits are printed as one type and read back as another.  A settings file says what limits there are if
each setting has its number in it, or has none because that is the built-in one (`Limits.Says`).  So does
the printed text, and an edit of its members keeps it so (`Limits.Edit`): a new order, a member that
nobody asks for, or one less that only repeats a default.  Such a file loads as the limits
(`Limits.reload`).
-/

namespace FilterSql

open Json

/-! ## numbers in their texts -/

namespace Setting

/-- the settings in the order in which they are printed -/
def all : List Setting := [defaultPageSize, maxPageSize, maxFilterDepth]

/-- the member that says what the limits are: the name of the setting and the text of its number -/
def member (l : Limits) (x : Setting) : String × String := (x.name, toString (x.of (.ofLimits l)))

theorem mem_all (x : Setting) : x ∈ all := by
  cases x <;> simp [all]

theorem map_fst_member (l : Limits) :
    (all.map (·.member l)).map Prod.fst = all.map Setting.name := rfl

end Setting

/-- the text of a number is well-formed and holds that number -/
theorem Json.ofText?_natural {n : Nat} (h : n < UInt64.size) :
    Json.ofText? (toString n) = some (.int n) := by
  have hread := Json.ofText?_write (isExact_int (isWhole_natCast h)) rfl .compact
  rwa [write, String.ofList_toList] at hread

/-- what a layout prints for limits -/
theorem Limits.pretty_json (l : Limits) :
    l.json.pretty = String.ofList (objectText (.pretty 0) (Setting.all.map (·.member l))) := by
  rw [pretty, Limits.json, write_object]
  simp only [List.map_cons, List.map_nil, write, String.ofList_toList]
  rfl

/-! ## what a settings file says -/

/-- a file with these members says what the limits are -/
structure Limits.Says (l : Limits) (members : List (String × String)) : Prop where
  values : ∀ m ∈ members, IsValue m.2
  once : ∀ x : Setting, (members.map Prod.fst).count x.name ≤ 1
  agrees : ∀ (x : Setting) (text : String), (x.name, text) ∈ members →
    (x.name, text) = x.member l
  standard : ∀ x : Setting, x.name ∉ members.map Prod.fst → x.of (.ofLimits l) = x.of .standard

inductive Limits.Edit (l : Limits) : List (String × String) → List (String × String) → Prop
  /-- the members in another order -/
  | reorder {members members' : List (String × String)} : members.Perm members' →
      Edit l members members'
  /-- one more member, with a name that no setting has and any value -/
  | add {name text : String} {members : List (String × String)} : (∀ x : Setting, name ≠ x.name) →
      IsValue text → Edit l members ((name, text) :: members)
  /-- one member less, whose number is the built-in one -/
  | remove {x : Setting} {members : List (String × String)} :
      x.of (.ofLimits l) = x.of .standard → Edit l (x.member l :: members) members

namespace Limits

variable {l : Limits} {members members' : List (String × String)}

theorem isValue_member (l : Limits) (x : Setting) : IsValue (x.member l).2 := by
  have hlt : x.of (.ofLimits l) < UInt64.size := Nat.lt_of_lt_of_le (x.of_lt_bound _) x.bound_le
  exact isValue_of_ofText? (Json.ofText?_natural hlt)

theorem says_printed (l : Limits) : l.Says (Setting.all.map (·.member l)) where
  values := by
    intro m hm
    obtain ⟨x, -, rfl⟩ := List.mem_map.mp hm
    exact l.isValue_member x
  once := by
    intro x
    have hnodup : (Setting.all.map Setting.name).Nodup := by decide
    rw [Setting.map_fst_member]
    exact List.nodup_iff_count_le_one.mp hnodup x.name
  agrees := by
    intro x text h
    obtain ⟨y, -, hy⟩ := List.mem_map.mp h
    obtain rfl : y = x := Setting.name_injective (congrArg Prod.fst hy)
    exact hy.symm
  standard := by
    intro x h
    rw [Setting.map_fst_member] at h
    exact absurd (List.mem_map_of_mem x.mem_all) h

/-- an edit changes nothing that the file says -/
theorem Edit.says (h : l.Edit members members') (hs : l.Says members) : l.Says members' := by
  cases h with
  | reorder hperm =>
    have hkeys := hperm.map Prod.fst
    refine ⟨fun m hm => hs.values m (hperm.mem_iff.mpr hm), fun x => ?_, fun x text hm => ?_,
      fun x hx => ?_⟩
    · rw [← hkeys.count_eq]
      exact hs.once x
    · exact hs.agrees x text (hperm.mem_iff.mpr hm)
    · exact hs.standard x (mt hkeys.mem_iff.mp hx)
  | add hname htext =>
    refine ⟨List.forall_mem_cons.mpr ⟨htext, hs.values⟩, fun x => ?_, fun x text hm => ?_,
      fun x hx => ?_⟩
    · rw [List.map_cons, List.count_cons_of_ne (hname x)]
      exact hs.once x
    · rcases List.mem_cons.mp hm with heq | hm
      · exact absurd (congrArg Prod.fst heq).symm (hname x)
      · exact hs.agrees x text hm
    · exact hs.standard x fun hm => hx (List.mem_cons_of_mem _ hm)
  | @remove y _ hstandard =>
    refine ⟨fun m hm => hs.values m (List.mem_cons_of_mem _ hm), fun x => ?_,
      fun x text hm => hs.agrees x text (List.mem_cons_of_mem _ hm), fun x hx => ?_⟩
    · exact Nat.le_trans List.count_le_count_cons (hs.once x)
    · by_cases hxy : x = y
      · rw [hxy]
        exact hstandard
      · refine hs.standard x fun hm => ?_
        rcases List.mem_cons.mp hm with heq | hm
        · exact hxy (Setting.name_injective heq)
        · exact hx hm

theorem says_of_edits (h : Relation.ReflTransGen l.Edit (Setting.all.map (·.member l)) members) :
    l.Says members := by
  induction h with
  | refl => exact l.says_printed
  | tail _ hedit ih => exact hedit.says ih

end Limits

/-! ## reading -/

theorem Json.Doc.isNumber_natural {m n : Nat} :
    (Doc.number (some (.int m))).IsNumber n ↔ m = n := by
  simp [Doc.IsNumber]

section
variable {l : Limits} {members : List (String × String)} (hs : l.Says members)
include hs

/-- the member of a setting holds its number -/
theorem Limits.Says.root_eq {x : Setting} {text : String} (h : (x.name, text) ∈ members) :
    (Document.ofText text).root = .number (some (.int (x.of (.ofLimits l)))) := by
  have hlt : x.of (.ofLimits l) < UInt64.size := Nat.lt_of_lt_of_le (x.of_lt_bound _) x.bound_le
  have htext : text = toString (x.of (.ofLimits l)) := congrArg Prod.snd (hs.agrees x text h)
  rw [htext, (Json.ofText?_eq_some (Json.ofText?_natural hlt)).1]
  rfl

theorem Limits.Says.exists_ofText (layout : Layout) {blanks : List Char}
    (hblanks : ∀ c ∈ blanks, isSpace c = true) :
    ∃ s, Settings.ofText (String.ofList (objectText layout members ++ blanks)) = .ok s := by
  have hread : ∀ f ∈ Limits.fields, ∀ text, (f.name, text) ∈ members → ∀ l₀, ∃ l₁,
      f.read (Document.ofText text).root l₀ = .ok l₁ := by
    intro f hf text htext l₀
    obtain ⟨x, hname⟩ := Limits.exists_name hf
    have haccepts : Limits.Accepts f.name (.int (x.of (.ofLimits l))) := by
      rw [hname, Limits.accepts_name]
      exact ⟨_, x.of_lt_bound _, rfl⟩
    rw [hname] at htext
    rw [hs.root_eq htext]
    exact (Limits.read_iff hf _ l₀).mpr haccepts
  have honce : ∀ f ∈ Limits.fields, (members.map Prod.fst).count f.name ≤ 1 := by
    intro f hf
    obtain ⟨x, hname⟩ := Limits.exists_name hf
    rw [hname]
    exact hs.once x
  have hskip : ∀ m ∈ members, (Document.ofText m.2).root.skip = .ok () := by
    intro m hm
    rw [Doc.skip, (hs.values m hm).2]
    rfl
  obtain ⟨⟨seen, l'⟩, hmembers⟩ := exists_readMembers honce hread hskip
    (fun _ h => absurd h List.not_mem_nil) Limits.standard
  have hobject : Settings.record.decode (.object (members.map memberDoc) none) = .ok l' := by
    rw [Record.decode_object rfl]
    exact map_eq_ok.mpr ⟨_, hmembers, rfl⟩
  refine ⟨.ofLimits l', ?_⟩
  rw [Settings.ofText, decodeText, Document.ofText_objectText hs.values layout hblanks]
  exact bind_eq_ok.mpr ⟨_, map_eq_ok.mpr ⟨_, hobject, rfl⟩, rfl⟩

/-- a file that says what the limits are is read as them -/
theorem Limits.Says.ofText_eq (layout : Layout) {blanks : List Char}
    (hblanks : ∀ c ∈ blanks, isSpace c = true) :
    Settings.ofText (String.ofList (objectText layout members ++ blanks)) =
      .ok (.ofLimits l) := by
  obtain ⟨s, hread⟩ := hs.exists_ofText layout hblanks
  have hvalue : ∀ x : Setting, x.of s = x.of (.ofLimits l) := by
    intro x
    have hpart := Settings.ofText_eq_ok hread x
    rw [Setting.inFile?, Document.ofText_objectText hs.values layout hblanks] at hpart
    rcases member?_cases (fun text => (Document.ofText text).root) x.name members with
      ⟨hname, hnone⟩ | ⟨text, htext, hsome⟩
    · have hentry : Doc.entry? x.name x.place (.object (members.map memberDoc) none) = none := hnone
      rw [hentry] at hpart
      exact hpart.trans (hs.standard x hname).symm
    · have hentry : Doc.entry? x.name x.place (.object (members.map memberDoc) none) =
          some (Document.ofText text).root := hsome
      rw [hentry, hs.root_eq htext] at hpart
      exact (Doc.isNumber_natural.mp hpart).symm
  rw [hread, Settings.eq_of_forall hvalue]

end

/-! ## loading -/

/-- no variable holds a number: the settings are what a file with this text says -/
def Sources.ComeFrom (files : Files) (env : Environment) (s : Sources) (text : String) : Prop :=
  ∃ env' path, env.loadFile files s.envFile = (env', none) ∧
    (∀ x : Setting, env'.get? x.key = none) ∧ Settings.path? s.settings env' = some path ∧
      files path = some text

theorem Settings.override_of_absent (s : Settings) {env : Environment}
    (h : ∀ x : Setting, env.get? x.key = none) : s.override env = .ok s := by
  have hnumber : ∀ x : Setting, numberOf? env x.key x.bound = .ok none := by
    intro x
    rw [numberOf?, h x]
  obtain ⟨t, ht, hvalue⟩ := override_eq_ok s hnumber fun x => .absent (h x)
  rw [ht, eq_of_forall hvalue]

theorem Sources.limits_eq {files : Files} {env : Environment} {sources : Sources} {text : String}
    {l : Limits} (h : sources.ComeFrom files env text)
    (hread : Settings.ofText text = .ok (.ofLimits l))
    (hvalid : (Settings.ofLimits l).validate = .ok l) : sources.limits files env = .ok l := by
  obtain ⟨env', path, hload, habsent, hpath, htext⟩ := h
  have hfile : Settings.ofFile files (some path) = .ok (.ofLimits l) := by
    rw [Settings.ofFile, htext]
    simp only [hread, Except.mapError]
  have hall : Settings.loadAll files sources.settings sources.envFile env = .ok (.ofLimits l) := by
    rw [Settings.loadAll, hload]
    show Settings.load files sources.settings env' = _
    rw [Settings.load, hpath, hfile]
    exact Settings.override_of_absent _ habsent
  rw [limits, hall]
  show (Settings.validate _).mapError _ = _
  rw [hvalid]
  rfl

/-- **Printed settings reload to themselves.**  What is printed for limits is the text of an object with
the number of each setting.  Take the limits of any valid settings: with no variable that holds a number,
this text, in any layout and after any edits of its members, loads and validates to the same limits. -/
theorem Limits.reload {l : Limits} (hl : (Settings.ofLimits l).validate = .ok l) :
    (∀ files env sources, Sources.limits files env sources = .ok l →
      Command.run files env (.settings sources) =
        .ok (String.ofList (objectText (.pretty 0) (Setting.all.map (·.member l)) ++ ['\n']))) ∧
    ∀ members, Relation.ReflTransGen l.Edit (Setting.all.map (·.member l)) members →
      ∀ (layout : Layout) (blanks : List Char), (∀ c ∈ blanks, isSpace c = true) →
        ∀ files env (sources : Sources),
          sources.ComeFrom files env (String.ofList (objectText layout members ++ blanks)) →
            sources.limits files env = .ok l := by
  constructor
  · intro files env sources hlimits
    rw [Command.run, hlimits]
    show Except.ok (l.json.pretty ++ "\n") = _
    rw [l.pretty_json, String.ofList_append]
  · intro members hedits layout blanks hblanks files env sources hfrom
    exact Sources.limits_eq hfrom ((Limits.says_of_edits hedits).ofText_eq layout hblanks) hl

/-- the greatest numbers that go with the built-in size of a page -/
def Limits.greatest : Limits := ⟨20, 4294967295, 18446744073709551615⟩

/-- a file for them, with a member of which no value can be made: a number that is too large and half of
a surrogate pair -/
def Limits.greatestText : String :=
  "\x7b\"maxFilterDepth\":18446744073709551615,\"note\": [1e999, \"\\ud800\"] ," ++
    "\"maxPageSize\":4294967295\x7d\n"

theorem Limits.reload_edited : (Settings.ofLimits greatest).validate = .ok greatest ∧
    Sources.limits (fun path => if path = "limits.json" then some greatestText else none) []
      ⟨some "limits.json", none⟩ = .ok greatest := by
  have hvalid : (Settings.ofLimits greatest).validate = .ok greatest :=
    Settings.validate_eq_ok.mpr ⟨⟨by decide, by decide, by decide⟩, rfl⟩
  have hremove : greatest.Edit (Setting.all.map (·.member greatest))
      [Setting.maxPageSize.member greatest, Setting.maxFilterDepth.member greatest] := .remove rfl
  have hnote : IsValue " [1e999, \"\\ud800\"] " := by decide +kernel
  have hname : ∀ x : Setting, "note" ≠ x.name := by
    intro x
    cases x <;> decide
  have hedits := ((Relation.ReflTransGen.single hremove).tail (.add hname hnote)).tail
    (.reorder (List.perm_append_comm : ([_, _] ++ [_]).Perm ([_] ++ [_, _])))
  have htext : greatestText = String.ofList (objectText .compact
      [Setting.maxFilterDepth.member greatest, ("note", " [1e999, \"\\ud800\"] "),
        Setting.maxPageSize.member greatest] ++ ['\n']) := by decide +kernel
  have hblanks : ∀ c ∈ ['\n'], isSpace c = true := List.forall_mem_singleton.mpr rfl
  exact ⟨hvalid, (reload hvalid).2 _ hedits .compact _ hblanks _ _ _
    ⟨[], "limits.json", rfl, fun _ => rfl, rfl, (if_pos rfl).trans (congrArg some htext)⟩⟩

end FilterSql
