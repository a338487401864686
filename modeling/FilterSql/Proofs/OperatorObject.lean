import FilterSql.Proofs.Operand
import FilterSql.Proofs.Printing

/-!
# Operator objects

`OperatorObject.Holds` ties what has been read to the members that have been read; every member
preserves it.  At the end the first usable operator is chosen, so what an object decodes to depends on
nothing but its members under known keys (`FieldFilter.decodeText_members`).
-/

namespace FilterSql

open Json

namespace OperatorObject

/-! ## what an object spells -/

/-- no known key is repeated, and all of them hold what may stand there -/
structure WellTyped (members : List (String × Json)) : Prop where
  nodup : ((known keys members).map Prod.fst).Nodup
  accepts : ∀ m ∈ known keys members, Accepts m.1 m.2

/-- a member holds an operand of the operator -/
def Usable (members : List (String × Json)) (op : Operator) : Prop :=
  ∃ J, (op.name, J) ∈ members ∧ op.Operand J

/-- the usable operator that is tried before all others -/
def First (members : List (String × Json)) : Option Operator → Prop
  | none => ∀ op, ¬ Usable members op
  | some op => Usable members op ∧ ∀ op', Usable members op' → op.rank ≤ op'.rank

structure Spells (members : List (String × Json)) (f : FieldFilter) : Prop where
  operator : First members f.operator
  caseInsensitive : f.caseInsensitive = true ↔ ("caseInsensitive", .bool true) ∈ members
  collection : ∀ s, f.collection = some s ↔ ("collection", .string s) ∈ members

theorem Usable.unique {members : List (String × Json)} (h : WellTyped members) {op op' : Operator}
    (hop : Usable members op) (hop' : Usable members op') (hname : op.name = op'.name) :
    op = op' := by
  obtain ⟨J, hJ, hoperand⟩ := hop
  obtain ⟨K, hK, hoperand'⟩ := hop'
  rw [← hname] at hK
  obtain rfl := eq_of_nodup_known h.nodup (name_mem_keys op) hJ hK
  exact hoperand.unique hoperand' hname

theorem First.unique {members : List (String × Json)} (h : WellTyped members) :
    ∀ {x y : Option Operator}, First members x → First members y → x = y
  | none, none, _, _ => rfl
  | none, some op, hx, hy => absurd hy.1 (hx op)
  | some op, none, hx, hy => absurd hx.1 (hy op)
  | some op, some op', hx, hy => by
    have hrank : op.rank = op'.rank := Nat.le_antisymm (hx.2 op' hy.1) (hy.2 op hx.1)
    have hname : op.name = op'.name := by
      rw [← Operator.idxOf_name, ← Operator.idxOf_name] at hrank
      exact (List.idxOf_inj op.name_mem_priority).mp hrank
    rw [hx.1.unique h hy.1 hname]

/-- the members spell one operator object at most -/
theorem Spells.unique {members : List (String × Json)} (h : WellTyped members) {f g : FieldFilter}
    (hf : Spells members f) (hg : Spells members g) : f = g := by
  have hoperator := hf.operator.unique h hg.operator
  have hcase : f.caseInsensitive = g.caseInsensitive :=
    Bool.eq_iff_iff.mpr (hf.caseInsensitive.trans hg.caseInsensitive.symm)
  have hcollection : f.collection = g.collection :=
    Option.ext fun s => (hf.collection s).trans (hg.collection s).symm
  cases f
  cases g
  rw [FieldFilter.mk.injEq]
  exact ⟨hoperator, hcase, hcollection⟩

/-! ## members under other keys do not matter -/

section
variable {members others : List (String × Json)}

theorem mem_iff_of_perm (h : (known keys members).Perm (known keys others)) {key : String}
    (hkey : key ∈ keys) (J : Json) : (key, J) ∈ members ↔ (key, J) ∈ others := by
  have hmem : (key, J) ∈ known keys members ↔ (key, J) ∈ known keys others := h.mem_iff
  rw [mem_known, mem_known] at hmem
  simpa [hkey] using hmem

theorem WellTyped.of_perm (h : (known keys members).Perm (known keys others))
    (hmembers : WellTyped members) : WellTyped others where
  nodup := (h.map Prod.fst).nodup_iff.mp hmembers.nodup
  accepts := fun m hm => hmembers.accepts m (h.mem_iff.mpr hm)

theorem usable_iff_of_perm (h : (known keys members).Perm (known keys others)) (op : Operator) :
    Usable members op ↔ Usable others op :=
  exists_congr fun J => and_congr_left fun _ => mem_iff_of_perm h (name_mem_keys op) J

theorem Spells.of_perm (h : (known keys members).Perm (known keys others)) {f : FieldFilter}
    (hf : Spells members f) : Spells others f where
  operator := by
    have hfirst := hf.operator
    cases hop : f.operator with
    | none =>
      rw [hop] at hfirst
      exact fun op hop => hfirst op ((usable_iff_of_perm h op).mpr hop)
    | some op =>
      rw [hop] at hfirst
      refine ⟨(usable_iff_of_perm h op).mp hfirst.1, fun op' hop' => ?_⟩
      exact hfirst.2 op' ((usable_iff_of_perm h op').mpr hop')
  caseInsensitive := hf.caseInsensitive.trans (mem_iff_of_perm h (by decide) _)
  collection := fun s => (hf.collection s).trans (mem_iff_of_perm h (by decide) _)

end

/-! ## reading an object -/

/-- what has been read of an object is what these members give -/
structure Holds (members : List (String × Json)) (o : OperatorObject) : Prop where
  operators : ∀ k op, (k, op) ∈ o.operators ↔ k = op.name ∧ Usable members op
  caseInsensitive : ∀ b, o.caseInsensitive = some b ↔ ("caseInsensitive", .bool b) ∈ members
  collection : ∀ s, o.collection = some s ↔ ("collection", .string s) ∈ members

theorem holds_nil : Holds [] {} := by
  refine ⟨fun k op => ?_, fun b => ?_, fun s => ?_⟩
  · refine iff_of_false List.not_mem_nil ?_
    rintro ⟨-, J, hJ, -⟩
    exact List.not_mem_nil hJ
  · exact iff_of_false (fun h => by cases h) List.not_mem_nil
  · exact iff_of_false (fun h => by cases h) List.not_mem_nil

section
variable {members : List (String × Json)} {key : String} {J : Json} {o t : OperatorObject}

theorem mem_append_singleton {k : String} {K : Json} :
    (k, K) ∈ members ++ [(key, J)] ↔ (k, K) ∈ members ∨ k = key ∧ K = J := by
  rw [List.mem_append, List.mem_singleton, Prod.mk.injEq]

theorem usable_append_singleton {op : Operator} : Usable (members ++ [(key, J)]) op ↔
    Usable members op ∨ op.name = key ∧ op.Operand J := by
  constructor
  · rintro ⟨K, hK, hoperand⟩
    rcases mem_append_singleton.mp hK with hK | ⟨hname, rfl⟩
    · exact .inl ⟨K, hK, hoperand⟩
    · exact .inr ⟨hname, hoperand⟩
  · rintro (⟨K, hK, hoperand⟩ | ⟨hname, hoperand⟩)
    · exact ⟨K, mem_append_singleton.mpr (.inl hK), hoperand⟩
    · exact ⟨J, mem_append_singleton.mpr (.inr ⟨hname, rfl⟩), hoperand⟩

/-- a modifier is what the one member under its key says -/
theorem modifier_step {α : Type} {x y : Option α} {mk : α → Json} {k : String}
    (hnew : key ∉ members.map Prod.fst) (h : ∀ a, x = some a ↔ (k, mk a) ∈ members)
    (hstep : ∀ a, y = some a ↔ if key = k then J = mk a else x = some a) (a : α) :
    y = some a ↔ (k, mk a) ∈ members ++ [(key, J)] := by
  rw [hstep a, mem_append_singleton]
  by_cases hkey : key = k
  · have hfresh : (k, mk a) ∉ members := fun hmem =>
      hnew (List.mem_map.mpr ⟨_, hmem, hkey.symm⟩)
    rw [if_pos hkey, or_iff_right hfresh, eq_comm]
    exact (and_iff_right hkey.symm).symm
  · rw [if_neg hkey, h a, or_iff_left fun h => hkey h.1.symm]

/-- reading a member keeps what holds of the members before it -/
theorem Holds.step (h : Holds members o) (hnew : key ∉ members.map Prod.fst)
    (hstep : Step key J o t) : Holds (members ++ [(key, J)]) t where
  operators := by
    intro k op
    rw [hstep.operators, h.operators, usable_append_singleton, ← and_or_left]
  caseInsensitive := modifier_step hnew h.caseInsensitive hstep.caseInsensitive
  collection := modifier_step hnew h.collection hstep.collection

/-- a member under another key is nothing to an operator object -/
theorem Holds.skip (h : Holds members o) (hkey : key ∉ keys) : Holds (members ++ [(key, J)]) o := by
  have hne : ∀ k ∈ keys, ∀ K, (k, K) ∈ members ++ [(key, J)] ↔ (k, K) ∈ members := by
    intro k hk K
    rw [mem_append_singleton, or_iff_left]
    rintro ⟨rfl, -⟩
    exact hkey hk
  refine ⟨fun k op => ?_, fun b => ?_, fun s => ?_⟩
  · rw [h.operators, usable_append_singleton]
    refine and_congr_right fun _ => (or_iff_left ?_).symm
    rintro ⟨rfl, -⟩
    exact hkey (name_mem_keys op)
  · rw [h.caseInsensitive, hne _ (by decide)]
  · rw [h.collection, hne _ (by decide)]

/-- what is found first stands before all else that could be found -/
theorem exists_idxOf_le_of_findSome? {α : Type} {ks : List String} {f : String → Option α} {a : α}
    (h : ks.findSome? f = some a) :
    ∃ k, f k = some a ∧ ∀ k', f k' ≠ none → ks.idxOf k ≤ ks.idxOf k' := by
  obtain ⟨before, k, after, rfl, hk, hbefore⟩ := List.findSome?_eq_some_iff.mp h
  refine ⟨k, hk, fun k' hk' => ?_⟩
  have hlater : k' ∉ before := fun hmem => hk' (hbefore k' hmem)
  have hfirst : (before ++ k :: after).idxOf k ≤ before.length := by
    rw [List.idxOf_append]
    split
    · exact Nat.le_of_lt (List.idxOf_lt_length_of_mem ‹_›)
    · rw [List.idxOf_cons_self]
      exact Nat.le_of_eq (Nat.zero_add _)
  rw [List.idxOf_append_of_notMem hlater]
  exact Nat.le_trans hfirst (Nat.le_add_right _ _)

theorem Holds.first (h : Holds members o) :
    First members (Operator.priority.findSome? fun key => o.operators.lookup key) := by
  have hlookup : ∀ {op}, Usable members op → o.operators.lookup op.name ≠ none := by
    intro op hop hnone
    have hmem := (h.operators op.name op).mpr ⟨rfl, hop⟩
    simpa using List.lookup_eq_none_iff.mp hnone _ hmem
  cases hfind : Operator.priority.findSome? fun key => o.operators.lookup key with
  | none =>
    intro op hop
    exact hlookup hop (List.findSome?_eq_none_iff.mp hfind _ op.name_mem_priority)
  | some op =>
    obtain ⟨key, hkey, hfirst⟩ := exists_idxOf_le_of_findSome? hfind
    obtain ⟨_, _, hsplit, -⟩ := List.lookup_eq_some_iff.mp hkey
    have hmem : (key, op) ∈ o.operators := by
      rw [hsplit]
      exact List.mem_append_right _ List.mem_cons_self
    obtain ⟨rfl, hop⟩ := (h.operators key op).mp hmem
    refine ⟨hop, fun op' hop' => ?_⟩
    rw [← Operator.idxOf_name, ← Operator.idxOf_name]
    exact hfirst op'.name (hlookup hop')

/-- of all that has been read the operator that is tried first is chosen -/
theorem Holds.spells (h : Holds members o) : Spells members o.toFieldFilter where
  operator := h.first
  caseInsensitive := by
    rw [← h.caseInsensitive]
    show o.caseInsensitive.getD false = true ↔ _
    cases o.caseInsensitive <;> simp
  collection := h.collection

end

end OperatorObject

/-! ## texts -/

section
variable {s : String} {members : List (String × Json)} (h : Json.ofText? s = some (.object members))
include h

theorem FieldFilter.decodeText_eq {f : FieldFilter} :
    decodeText (FieldFilter.ofDoc 0) s = .ok f ↔
      ∃ r, readMembers (OperatorObject.record 1).fields none [] {} (membersOfJson members) = .ok r ∧
        r.2.toFieldFilter = f := by
  rw [Json.decodeText_eq h, FieldFilter.ofDoc, map_eq_ok, Doc.ofJson, Record.decode_object rfl]
  simp only [map_eq_ok]
  constructor
  · rintro ⟨_, ⟨r, hr, rfl⟩, hf⟩
    exact ⟨r, hr, hf⟩
  · rintro ⟨r, hr, hf⟩
    exact ⟨_, ⟨r, hr, rfl⟩, hf⟩

theorem FieldFilter.exists_decodeText_iff :
    (∃ f, decodeText (FieldFilter.ofDoc 0) s = .ok f) ↔ OperatorObject.WellTyped members := by
  have hfault := membersFault?_eq_none.mp (fault?_object_eq_none.mp (Json.ofText?_eq_some h).2).2
  have hread : (∃ r, readMembers (OperatorObject.record 1).fields none [] {}
      (membersOfJson members) = .ok r) ↔
        ((known OperatorObject.keys members).map Prod.fst).Nodup ∧
          ∀ m ∈ known OperatorObject.keys members, m.1 ∉ [] ∧ OperatorObject.Accepts m.1 m.2 :=
    exists_readMembers_iff
      (fun f hf J hJ o => OperatorObject.exists_read_iff (hfault _ hJ) o f hf) [] {}
  simp only [FieldFilter.decodeText_eq h]
  constructor
  · rintro ⟨f, r, hr, -⟩
    obtain ⟨hnodup, haccepts⟩ := hread.mp ⟨r, hr⟩
    exact ⟨hnodup, fun m hm => (haccepts m hm).2⟩
  · rintro ⟨hnodup, haccepts⟩
    obtain ⟨r, hr⟩ := hread.mpr ⟨hnodup, fun m hm => ⟨List.not_mem_nil, haccepts m hm⟩⟩
    exact ⟨_, r, hr, rfl⟩

theorem FieldFilter.spells_of_decodeText {f : FieldFilter}
    (hf : decodeText (FieldFilter.ofDoc 0) s = .ok f) : OperatorObject.Spells members f := by
  obtain ⟨r, hr, rfl⟩ := (FieldFilter.decodeText_eq h).mp hf
  have hkeys : ∀ key, (∀ f ∈ (OperatorObject.record 1).fields, f.name ≠ key) →
      key ∉ OperatorObject.keys := by
    intro key hother hkey
    obtain ⟨f, hf, hname⟩ := List.mem_map.mp
      (show key ∈ (OperatorObject.record 1).fields.map (·.name) from hkey)
    exact hother f hf hname
  have hholds : OperatorObject.Holds ([] ++ members) r.2 :=
    readMembers_invariant (fun _ key _ _ ho hother => ho.skip (hkeys key hother))
      (fun _ _ _ _ f hf ho hnew hread => ho.step hnew (OperatorObject.step_of_read f hf hread))
      OperatorObject.holds_nil (fun _ _ hmem => by cases hmem) hr
  exact hholds.spells

theorem FieldFilter.decodeText_of_perm {t : String} {others : List (String × Json)}
    (ht : Json.ofText? t = some (.object others))
    (hperm : (known OperatorObject.keys members).Perm (known OperatorObject.keys others))
    {f : FieldFilter} (hf : decodeText (FieldFilter.ofDoc 0) s = .ok f) :
    decodeText (FieldFilter.ofDoc 0) t = .ok f := by
  have htyped := (FieldFilter.exists_decodeText_iff h).mp ⟨f, hf⟩
  obtain ⟨g, hg⟩ := (FieldFilter.exists_decodeText_iff ht).mpr (htyped.of_perm hperm)
  have hspells := (FieldFilter.spells_of_decodeText ht hg).of_perm hperm.symm
  rw [(FieldFilter.spells_of_decodeText h hf).unique htyped hspells]
  exact hg

end

/-- **An operator object decodes by fixed priority, whatever the order of its keys.**  It decodes if no
known key is repeated and every key holds what may stand there; of its usable operators the first is
chosen; and objects with the same members under known keys, in whatever order, decode alike. -/
theorem FieldFilter.decodeText_members {s : String} {members : List (String × Json)}
    (h : Json.ofText? s = some (.object members)) :
    ((∃ f, decodeText (FieldFilter.ofDoc 0) s = .ok f) ↔ OperatorObject.WellTyped members) ∧
    (∀ f, decodeText (FieldFilter.ofDoc 0) s = .ok f → OperatorObject.Spells members f) ∧
    ∀ t others, Json.ofText? t = some (.object others) →
      (known OperatorObject.keys members).Perm (known OperatorObject.keys others) →
        ∀ f, decodeText (FieldFilter.ofDoc 0) s = .ok f ↔
          decodeText (FieldFilter.ofDoc 0) t = .ok f :=
  ⟨FieldFilter.exists_decodeText_iff h, fun _ hf => FieldFilter.spells_of_decodeText h hf,
    fun _ _ ht hperm _ => ⟨FieldFilter.decodeText_of_perm h ht hperm,
      FieldFilter.decodeText_of_perm ht h hperm.symm⟩⟩

/-- a range, a null operand, a list that is none, and a key that is not known -/
def OperatorObject.mixed : List (String × Json) :=
  [("between", .array [.int 1, .int 2]), ("eq", .null), ("in", .string "x"), ("note", .null)]

/-- the same the other way round, without the key that is not known -/
def OperatorObject.shuffled : List (String × Json) :=
  [("in", .string "x"), ("eq", .null), ("between", .array [.int 1, .int 2])]

theorem FieldFilter.decodeText_members_mixed :
    Json.ofText? "\x7b\"between\":[1,2],\"eq\":null,\"in\":\"x\",\"note\":null\x7d" =
        some (.object OperatorObject.mixed) ∧
      OperatorObject.WellTyped OperatorObject.mixed ∧
      OperatorObject.Spells OperatorObject.mixed ⟨some (.compare .eq .null), false, none⟩ ∧
      decodeText (FieldFilter.ofDoc 0) "\x7b\"in\":\"x\",\"eq\":null,\"between\":[1,2]\x7d" =
        .ok ⟨some (.compare .eq .null), false, none⟩ := by
  have hmixed : (Json.object OperatorObject.mixed).compact =
      "\x7b\"between\":[1,2],\"eq\":null,\"in\":\"x\",\"note\":null\x7d" := rfl
  have hshuffled : (Json.object OperatorObject.shuffled).compact =
      "\x7b\"in\":\"x\",\"eq\":null,\"between\":[1,2]\x7d" := rfl
  have hs : Json.ofText? (Json.object OperatorObject.mixed).compact =
      some (.object OperatorObject.mixed) := Json.ofText?_write (by decide) rfl .compact
  have ht : Json.ofText? (Json.object OperatorObject.shuffled).compact =
      some (.object OperatorObject.shuffled) := Json.ofText?_write (by decide) rfl .compact
  have hf : decodeText (FieldFilter.ofDoc 0) (Json.object OperatorObject.mixed).compact =
      .ok ⟨some (.compare .eq .null), false, none⟩ := by
    rw [decodeText, (Json.ofText?_eq_some hs).1]
    rfl
  have hperm : (known OperatorObject.keys OperatorObject.mixed).Perm
      (known OperatorObject.keys OperatorObject.shuffled) :=
    (List.reverse_perm (known OperatorObject.keys OperatorObject.mixed)).symm
  obtain ⟨hexists, hspells, halike⟩ := decodeText_members hs
  rw [← hmixed, ← hshuffled]
  exact ⟨hs, hexists.mp ⟨_, hf⟩, hspells _ hf, (halike _ _ ht hperm _).mp hf⟩

end FilterSql
