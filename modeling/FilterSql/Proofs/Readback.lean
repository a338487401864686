import FilterSql.Proofs.Balance
import FilterSql.Proofs.Parsing

/-!
# Reading a compiled filter

The predicate of a filter on plain names is one group in brackets, and as SQL it is a formula with
the meaning of the filter (`Filter.readFormula?_compile`).  Each clause `Reads` as one operand: a
test, a negated bracket, or a bracket around several clauses; a group with one clause passes it on
without brackets.  Groups under `AND` are flattened, which only associativity makes good
(`ReadsAll.flatten`).
-/

namespace FilterSql

/-! ## clauses as formulas -/

/-- the clause is read as one operand, equivalent to the formula -/
def Reads (F : Fragment) (φ : Formula Atom) : Prop :=
  ∃ ts ψ, Spells F ts ∧ Factor ts ψ ∧ ψ.Equiv φ

def ReadsAll (fs : List Fragment) (φ : Formula Atom) : Prop :=
  ∃ tss ψs ψ, List.Forall₂ Spells fs tss ∧ List.Forall₂ Factor tss ψs ∧
    Formula.all? ψs = some ψ ∧ ψ.Equiv φ

theorem exists_of_forall₂_reads {fs : List Fragment} {φs : List (Formula Atom)}
    (h : List.Forall₂ Reads fs φs) : ∃ tss ψs, List.Forall₂ Spells fs tss ∧
      List.Forall₂ Factor tss ψs ∧ List.Forall₂ Formula.Equiv ψs φs := by
  induction h with
  | nil => exact ⟨[], [], .nil, .nil, .nil⟩
  | cons hfirst _ ih =>
    obtain ⟨ts, ψ, hspells, hfactor, hequiv⟩ := hfirst
    obtain ⟨tss, ψs, hspells', hfactor', hequiv'⟩ := ih
    exact ⟨ts :: tss, ψ :: ψs, .cons hspells hspells', .cons hfactor hfactor', .cons hequiv hequiv'⟩

theorem readsAll_of_forall₂ {fs : List Fragment} {φs : List (Formula Atom)}
    (h : List.Forall₂ Reads fs φs) {φ : Formula Atom} (hφ : Formula.all? φs = some φ) :
    ReadsAll fs φ := by
  obtain ⟨tss, ψs, hspells, hfactor, hequiv⟩ := exists_of_forall₂_reads h
  obtain ⟨ψ, hψ, hψequiv⟩ := Formula.exists_chain?_equiv Formula.Equiv.and hequiv hφ
  exact ⟨tss, ψs, ψ, hspells, hfactor, hψ, hψequiv⟩

theorem ReadsAll.append {fs gs : List Fragment} {φ χ : Formula Atom} (hf : ReadsAll fs φ)
    (hg : ReadsAll gs χ) : ReadsAll (fs ++ gs) (φ.and χ) := by
  obtain ⟨tss, φs, φ', hspells, hfactor, hφ, hequiv⟩ := hf
  obtain ⟨uss, χs, χ', hspells', hfactor', hχ, hequiv'⟩ := hg
  obtain ⟨ψ, hψ, hψequiv⟩ :=
    Formula.chain?_append_equiv Formula.Equiv.and Formula.and_assoc_equiv hφ hχ
  exact ⟨tss ++ uss, φs ++ χs, ψ, List.rel_append hspells hspells', List.rel_append hfactor hfactor',
    hψ, hψequiv.trans (hequiv.and hequiv')⟩

theorem ReadsAll.append_flatten {fs : List Fragment} {children : List (List Fragment)}
    {φ : Formula Atom} {χs : List (Formula Atom)} (hf : ReadsAll fs φ)
    (h : List.Forall₂ ReadsAll children χs) :
    ReadsAll (fs ++ children.flatten) (χs.foldl .and φ) := by
  induction h generalizing fs φ with
  | nil => rwa [List.flatten_nil, List.append_nil]
  | cons hfirst _ ih =>
    rw [List.flatten_cons, ← List.append_assoc]
    exact ih (hf.append hfirst)

/-- filters that are read one by one are read together without brackets between them -/
theorem ReadsAll.flatten {children : List (List Fragment)} {χs : List (Formula Atom)}
    {χ : Formula Atom} (h : List.Forall₂ ReadsAll children χs) (hχ : Formula.all? χs = some χ) :
    ReadsAll children.flatten χ := by
  cases h with
  | nil => cases hχ
  | cons hfirst hrest =>
    obtain rfl := Option.some.inj hχ
    exact hfirst.append_flatten hrest

/-! ## groups -/

section
variable {s : String} {t : Token} {op : Formula Atom → Formula Atom → Formula Atom}
  (hs : Separator s [t])
  (hwhole : ∀ {tss ψs ψ}, List.Forall₂ Factor tss ψs → Formula.chain? op ψs = some ψ →
    Whole (Token.join t tss) ψ)
  {fs : List Fragment} {tss : List (List Token)} {ψs : List (Formula Atom)} {ψ : Formula Atom}
  (hspells : List.Forall₂ Spells fs tss) (hfactor : List.Forall₂ Factor tss ψs)
  (hψ : Formula.chain? op ψs = some ψ)
include hs hwhole hspells hfactor hψ

theorem reads_bracket_join : Reads (Fragment.join s fs).bracket ψ :=
  ⟨_, ψ, (Spells.join hs hspells).bracket, (hwhole hfactor hψ).bracket, .refl ψ⟩

theorem reads_joinBracketed : Reads (Fragment.joinBracketed s fs) ψ := by
  by_cases hlen : 1 < fs.length
  · rw [Fragment.joinBracketed, if_pos hlen]
    exact reads_bracket_join hs hwhole hspells hfactor hψ
  · rw [Fragment.joinBracketed, if_neg hlen]
    -- one clause, which is an operand by itself
    cases hspells with
    | nil =>
      cases hfactor
      cases hψ
    | cons hfirst hrest =>
      cases hrest with
      | cons _ _ => exact absurd (by simp) hlen
      | nil =>
        cases hfactor with
        | cons hfactor hnil =>
          cases hnil
          obtain rfl := Option.some.inj hψ
          exact ⟨_, _, hfirst, hfactor, .refl _⟩

end

theorem Reads.equiv {F : Fragment} {φ ψ : Formula Atom} (h : Reads F φ) (hequiv : φ.Equiv ψ) :
    Reads F ψ := by
  obtain ⟨ts, χ, hspells, hfactor, hχ⟩ := h
  exact ⟨ts, χ, hspells, hfactor, hχ.trans hequiv⟩

theorem ReadsAll.bracket {fs : List Fragment} {φ : Formula Atom} (h : ReadsAll fs φ) :
    Reads (Fragment.join " AND " fs).bracket φ := by
  obtain ⟨tss, ψs, ψ, hspells, hfactor, hψ, hequiv⟩ := h
  exact (reads_bracket_join separator_and whole_all hspells hfactor hψ).equiv hequiv

theorem ReadsAll.joinBracketed {fs : List Fragment} {φ : Formula Atom} (h : ReadsAll fs φ) :
    Reads (Fragment.joinBracketed " AND " fs) φ := by
  obtain ⟨tss, ψs, ψ, hspells, hfactor, hψ, hequiv⟩ := h
  exact (reads_joinBracketed separator_and whole_all hspells hfactor hψ).equiv hequiv

theorem Reads.not {F : Fragment} {φ : Formula Atom} (h : Reads F φ) :
    Reads (.text "NOT " :: F) φ.not := by
  obtain ⟨ts, ψ, hspells, hfactor, hequiv⟩ := h
  exact ⟨_, ψ.not, hspells.text_cons readsAs_not, hfactor.not, hequiv.not⟩

theorem reads_any {fs : List Fragment} {φs : List (Formula Atom)} (h : List.Forall₂ Reads fs φs)
    {φ : Formula Atom} (hφ : Formula.any? φs = some φ) :
    Reads (Fragment.joinBracketed " OR " fs) φ := by
  obtain ⟨tss, ψs, hspells, hfactor, hequiv⟩ := exists_of_forall₂_reads h
  obtain ⟨ψ, hψ, hψequiv⟩ := Formula.exists_chain?_equiv Formula.Equiv.or hequiv hφ
  exact (reads_joinBracketed separator_or whole_any hspells hfactor hψ).equiv hψequiv

theorem reads_ofGroup (op : Connective) {children : List (List Fragment)}
    {χs : List (Formula Atom)} (h : List.Forall₂ ReadsAll children χs) {χ : Formula Atom}
    (hχ : op.combine? χs = some χ) : Reads (Fragment.ofGroup op children) χ := by
  cases op with
  | and => exact (ReadsAll.flatten h hχ).joinBracketed
  | or =>
    have hchildren : List.Forall₂ Reads (children.map (Fragment.joinBracketed " AND ")) χs :=
      List.forall₂_map_left_iff.mpr (h.imp fun _ _ h => h.joinBracketed)
    exact reads_any hchildren hχ
  | not =>
    obtain ⟨φ, hφ, rfl⟩ := Option.map_eq_some_iff.mp hχ
    exact (ReadsAll.flatten h hφ).bracket.not

/-! ## filters -/

theorem Atom.proper_of_member? {c : Column} {fold negated : Bool} {values : List Value} {a : Atom}
    (h : Atom.member? c fold negated values = some a) : a.Proper := by
  cases values with
  | nil =>
    cases negated with
    | false => cases h; trivial
    | true => cases h
  | cons value values =>
    cases h
    exact List.cons_ne_nil _ _

theorem Constraint.proper_atom? {name : String} {c : Constraint} {a : Atom}
    (h : c.atom? name = some a) : a.Proper := by
  cases c with
  | scalar value => cases value <;> cases h <;> trivial
  | list values => exact Atom.proper_of_member? h
  | field f =>
    obtain ⟨op, -, h⟩ := Option.bind_eq_some_iff.mp h
    cases op with
    | compare op value => cases op <;> cases value <;> cases h <;> trivial
    | member negated values => exact Atom.proper_of_member? h
    | between lo hi => cases h; trivial
    | pattern position value =>
      obtain ⟨s, -, rfl⟩ := Option.map_eq_some_iff.mp h
      trivial

-- Clause and meaning of an entry are computed apart; they agree on which entries have none.
mutual

theorem Entry.reads_fragment? : ∀ {e : Entry},
    (∀ x ∈ e.fields, Column.Plain ⟨x.1, x.2.collection?⟩) → Option.Rel Reads e.fragment? e.meaning?
  | .field _ none, _ => .none
  | .field name (some c), h => by
    have hspells := Constraint.spells (h (name, c) (List.mem_singleton.mpr rfl))
    show Option.Rel Reads (c.fragment? name) ((c.atom? name).map .atom)
    cases ha : c.atom? name with
    | none =>
      rw [ha] at hspells
      cases hF : c.fragment? name with
      | none => exact .none
      | some F => rw [hF] at hspells; cases hspells
    | some a =>
      rw [ha] at hspells
      cases hF : c.fragment? name with
      | none => rw [hF] at hspells; cases hspells
      | some F =>
        rw [hF] at hspells
        cases hspells with
        | some hspells =>
          exact .some ⟨a.tokens, .atom a, hspells, Atom.factor (Constraint.proper_atom? ha), .refl _⟩
  | .group op fs, h => by
    have hchildren := Filter.reads_childFragments h
    rw [Entry.fragment?_group, Entry.meaning?]
    revert hchildren
    cases Filter.childFragments fs <;> cases Filter.childMeanings fs <;> intro hchildren
    · cases op <;> exact .none
    · cases hchildren
    · cases hchildren
    · rename_i first children χ χs
      obtain ⟨φ, hφ⟩ : ∃ φ, op.combine? (χ :: χs) = some φ := by cases op <;> exact ⟨_, rfl⟩
      rw [hφ]
      exact .some (reads_ofGroup op hchildren hφ)

/-- the clauses of a filter on plain names read as the meanings of its entries -/
theorem Filter.reads_fragments : ∀ {f : List Entry},
    (∀ x ∈ Filter.fields f, Column.Plain ⟨x.1, x.2.collection?⟩) →
      List.Forall₂ Reads (Filter.fragments f) (Filter.meanings f)
  | [], _ => .nil
  | e :: f, h => by
    have hfirst := @Entry.reads_fragment? e fun x hx => h x (List.mem_append_left _ hx)
    have hrest := @Filter.reads_fragments f fun x hx => h x (List.mem_append_right _ hx)
    rw [Filter.fragments_cons, Filter.meanings]
    refine List.rel_append ?_ hrest
    revert hfirst
    cases e.fragment? <;> cases e.meaning? <;> intro hfirst <;> cases hfirst
    · exact .nil
    · rename_i hreads
      exact .cons hreads .nil

theorem Filter.reads_childFragments : ∀ {fs : List (List Entry)},
    (∀ x ∈ Filter.childFields fs, Column.Plain ⟨x.1, x.2.collection?⟩) →
      List.Forall₂ ReadsAll (Filter.childFragments fs) (Filter.childMeanings fs)
  | [], _ => .nil
  | f :: fs, h => by
    have hfirst := @Filter.reads_fragments f fun x hx => h x (List.mem_append_left _ hx)
    have hrest := @Filter.reads_childFragments fs fun x hx => h x (List.mem_append_right _ hx)
    rw [Filter.childFragments_cons, Filter.childMeanings]
    revert hfirst
    cases Filter.fragments f <;> cases Filter.meanings f <;> intro hfirst
    · exact hrest
    · cases hfirst
    · cases hfirst
    · exact .cons (readsAll_of_forall₂ hfirst rfl) hrest

end

/-! ## predicates -/

theorem Reads.readFormula? {F : Fragment} {φ : Formula Atom} (h : Reads F φ) (style : BindStyle) :
    ∃ ψ, readFormula? (Param.number 1 F.bindings) (F.textFrom style 1) = some ψ ∧ ψ.Equiv φ := by
  obtain ⟨ts, ψ, hspells, hfactor, hequiv⟩ := h
  have hvalues : Provides (Param.number 1 F.bindings) 1 F.bindings :=
    @provides_number _ [] _ (Param.nodup_number 1 F.bindings) rfl
  have hscan := hspells style (Param.number 1 F.bindings) 1 [] [] hvalues stops_nil rfl
  rw [List.append_nil, List.append_nil, scan] at hscan
  obtain ⟨frame, hread, hformula⟩ := hfactor.whole.read
  refine ⟨ψ, ?_, hequiv⟩
  rw [FilterSql.readFormula?, hscan]
  show (readFrames 0 ts [.fresh]).bind _ = _
  rw [hread]
  exact hformula

theorem ReadsAll.ofClauses {fs : List Fragment} {φ : Formula Atom} (h : ReadsAll fs φ) :
    Reads (Fragment.ofClauses fs) φ := by
  cases fs with
  | nil =>
    obtain ⟨tss, ψs, ψ, hspells, hfactor, hψ, -⟩ := h
    cases hspells
    cases hfactor
    cases hψ
  | cons F fs =>
    simp only [Fragment.ofClauses, List.isEmpty_cons, Bool.false_eq_true, if_false]
    split
    · rename_i hsingle
      have hlen : (F :: fs).length = 1 := of_decide_eq_true (Bool.and_eq_true_iff.mp hsingle).1
      have hjoined := h.joinBracketed
      rw [Fragment.joinBracketed, if_neg (by omega)] at hjoined
      exact hjoined
    · exact h.bracket

/-- **The predicate means what the filter says.**  Without a meaning there is no text; otherwise the
text is one group in brackets, and read as SQL with its parameters it is a formula with the meaning
of the filter. -/
theorem Filter.readFormula?_compile {style : BindStyle} {max : Nat} {f : Filter} {p : Predicate}
    (hf : f.Plain) (h : f.compile style max = .ok p) :
    (p.sql = "" ↔ f.meaning? = none) ∧
      ∀ φ, f.meaning? = some φ → isSingleGroup p.sql = true ∧
        ∃ ψ, readFormula? p.params p.sql = some ψ ∧ ψ.Equiv φ := by
  have hreads := Filter.reads_fragments hf
  have hsome : ∀ φ, f.meaning? = some φ → isSingleGroup (f.fragment.textFrom style 1) = true := by
    intro φ hφ
    refine Fragment.isSingleGroup_ofClauses ?_ (Filter.balanced_fragments hf) style 1
    intro hnil
    rw [hnil] at hreads
    rw [Filter.meaning?, List.forall₂_nil_left_iff.mp hreads] at hφ
    cases hφ
  rw [Filter.eq_of_compile h]
  refine ⟨⟨fun hempty => ?_, fun hnone => ?_⟩, fun φ hφ => ⟨hsome φ hφ, ?_⟩⟩
  · cases hφ : f.meaning? with
    | none => rfl
    | some φ =>
      have hgroup := hsome φ hφ
      rw [show f.fragment.textFrom style 1 = "" from hempty] at hgroup
      cases hgroup
  · rw [Filter.meaning?, Formula.all?, Formula.chain?_eq_none] at hnone
    rw [hnone] at hreads
    rw [fragment, List.forall₂_nil_right_iff.mp hreads]
    rfl
  · exact (readsAll_of_forall₂ hreads hφ).ofClauses.readFormula? style

/-- groups in groups, one of them with a single clause and one with none -/
def Filter.nested : Filter :=
  [.group .and [[.field "a" (some (.scalar (.int 1)))],
      [.group .or [
        [.field "b" (some (.field ⟨some (.between (.int 2) (.string "x")), true, some "t"⟩)),
          .field "c" (some (.scalar .null))], [.field "d" none], [.field "d" (some (.list []))]]]],
    .group .not [[.group .or [[.field "e" (some (.list [.int 3, .int 4]))]]]]]

theorem Filter.readFormula?_compile_nested : ∃ p φ ψ,
    nested.compile .dollar 4 = .ok p ∧ nested.meaning? = some φ ∧
      p.sql = "((a = $1 AND ((LOWER(t.b) BETWEEN $2 AND LOWER($3) AND c IS NULL) OR 1 = 0))" ++
        " AND NOT (e IN ($4, $5)))" ∧
      readFormula? p.params p.sql = some ψ ∧
        (∀ v, ψ.eval Logic.twoValued v = φ.eval Logic.twoValued v) ∧
          ∀ v, ψ.eval Logic.threeValued v = φ.eval Logic.threeValued v := by
  have hplain : nested.Plain := by decide
  have hok : ∃ p, nested.compile .dollar 4 = .ok p ∧
      p.sql = "((a = $1 AND ((LOWER(t.b) BETWEEN $2 AND LOWER($3) AND c IS NULL) OR 1 = 0))" ++
        " AND NOT (e IN ($4, $5)))" := ⟨_, rfl, by decide⟩
  obtain ⟨p, hp, hsql⟩ := hok
  obtain ⟨-, hread⟩ := readFormula?_compile hplain hp
  obtain ⟨φ, hφ⟩ : ∃ φ, nested.meaning? = some φ := ⟨_, rfl⟩
  obtain ⟨-, ψ, hψ, hequiv⟩ := hread φ hφ
  exact ⟨p, φ, ψ, hp, hφ, hsql, hψ, hequiv _ _, hequiv _ _⟩

end FilterSql
