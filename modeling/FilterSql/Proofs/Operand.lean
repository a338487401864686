import FilterSql.Proofs.Grammar
import FilterSql.Proofs.Members

/-!
# The members of operator objects

A key of an operator takes a scalar or a list, a modifier a boolean or a string.  A field accepts its
member or refuses it, whatever has been read before (`OperatorObject.exists_read_iff`); a member that is
accepted adds the one operator that its operand makes, sets a modifier, or changes nothing
(`OperatorObject.step_of_read`).
-/

namespace FilterSql

open Json

/-! ## operators and their keys -/

/-- an operand from which an operator can be built -/
inductive Operator.Operand : Json → Operator → Prop
  | compare {J : Json} {v : Value} (c : Comparison) : Value.Written J v → Operand J (.compare c v)
  | pattern {J : Json} {v : Value} (p : Position) : Value.Written J v → Operand J (.pattern p v)
  | member {items : List Json} {vs : List Value} (negated : Bool) :
      List.Forall₂ Value.Written items vs → Operand (.array items) (.member negated vs)
  | between {J K : Json} {lo hi : Value} : Value.Written J lo → Value.Written K hi →
      Operand (.array [J, K]) (.between lo hi)

def Operator.rank : Operator → Nat
  | .member false _ => 0
  | .member true _ => 1
  | .compare .eq _ => 2
  | .compare .neq _ => 3
  | .compare .lt _ => 4
  | .compare .lte _ => 5
  | .compare .gt _ => 6
  | .compare .gte _ => 7
  | .pattern .contains _ => 8
  | .pattern .startsWith _ => 9
  | .pattern .endsWith _ => 10
  | .between _ _ => 11

theorem Operator.idxOf_name (op : Operator) : Operator.priority.idxOf op.name = op.rank := by
  rcases op with ⟨⟨⟩, _⟩ | ⟨⟨⟩, _⟩ | _ | ⟨⟨⟩, _⟩ <;> rfl

theorem Operator.name_mem_priority (op : Operator) : op.name ∈ Operator.priority := by
  rcases op with ⟨⟨⟩, _⟩ | ⟨⟨⟩, _⟩ | _ | ⟨⟨⟩, _⟩ <;>
    simp [Operator.name, Comparison.name, Position.name, Operator.priority]

theorem Operator.rank_eq_of_name_eq {op op' : Operator} (h : op.name = op'.name) :
    op.rank = op'.rank := by
  rw [← idxOf_name, h, idxOf_name]

section
variable {op : Operator}

theorem Operator.eq_compare {c : Comparison} (h : op.name = c.name) :
    ∃ v, op = .compare c v := by
  have hrank : op.rank = (Operator.compare c .null).rank := rank_eq_of_name_eq h
  rcases op with ⟨⟨⟩, _⟩ | ⟨⟨⟩, _⟩ | _ | ⟨⟨⟩, _⟩ <;> cases c <;>
    first | exact ⟨_, rfl⟩ | cases hrank

theorem Operator.eq_pattern {p : Position} (h : op.name = p.name) : ∃ v, op = .pattern p v := by
  have hrank : op.rank = (Operator.pattern p .null).rank := rank_eq_of_name_eq h
  rcases op with ⟨⟨⟩, _⟩ | ⟨⟨⟩, _⟩ | _ | ⟨⟨⟩, _⟩ <;> cases p <;>
    first | exact ⟨_, rfl⟩ | cases hrank

theorem Operator.eq_member {negated : Bool} {vs : List Value}
    (h : op.name = (Operator.member negated vs).name) : ∃ ws, op = .member negated ws := by
  have hrank := rank_eq_of_name_eq h
  rcases op with ⟨⟨⟩, _⟩ | ⟨⟨⟩, _⟩ | _ | ⟨⟨⟩, _⟩ <;> cases negated <;>
    first | exact ⟨_, rfl⟩ | cases hrank

theorem Operator.eq_between (h : op.name = "between") : ∃ lo hi, op = .between lo hi := by
  have hrank : op.rank = (Operator.between .null .null).rank := rank_eq_of_name_eq h
  rcases op with ⟨⟨⟩, _⟩ | ⟨⟨⟩, _⟩ | _ | ⟨⟨⟩, _⟩ <;> first | exact ⟨_, _, rfl⟩ | cases hrank

end

theorem Value.Written.unique {J : Json} {v w : Value} (h : Written J v) (h' : Written J w) :
    v = w :=
  Except.ok.inj ((Value.ofDoc_eq_ok.mpr h).symm.trans (Value.ofDoc_eq_ok.mpr h'))

theorem Value.Written.forall₂_unique {items : List Json} {vs ws : List Value}
    (h : List.Forall₂ Written items vs) (h' : List.Forall₂ Written items ws) : vs = ws :=
  Except.ok.inj ((Value.listOfItems_eq_ok.mpr h).symm.trans (Value.listOfItems_eq_ok.mpr h'))

/-- one value makes at most one operator under a key -/
theorem Operator.Operand.unique {J : Json} {op op' : Operator} (h : Operand J op)
    (h' : Operand J op') (hname : op.name = op'.name) : op = op' := by
  cases h with
  | compare c hv =>
    obtain ⟨w, rfl⟩ := eq_compare hname.symm
    cases h' with
    | compare _ hw => rw [hv.unique hw]
  | pattern p hv =>
    obtain ⟨w, rfl⟩ := eq_pattern hname.symm
    cases h' with
    | pattern _ hw => rw [hv.unique hw]
  | member negated hvs =>
    obtain ⟨ws, rfl⟩ := eq_member hname.symm
    cases h' with
    | member _ hws => rw [Value.Written.forall₂_unique hvs hws]
  | between hlo hhi =>
    obtain ⟨lo, hi, rfl⟩ := eq_between hname.symm
    cases h' with
    | between hlo' hhi' => rw [hlo.unique hlo', hhi.unique hhi']

/-! ## keys -/

namespace OperatorObject

def keys : List String :=
  ["eq", "neq", "lt", "lte", "gt", "gte", "in", "nin", "between", "contains", "startsWith",
    "endsWith", "caseInsensitive", "collection"]

def scalarKeys : List String :=
  ["eq", "neq", "lt", "lte", "gt", "gte", "contains", "startsWith", "endsWith"]

structure Accepts (key : String) (J : Json) : Prop where
  scalar : key ∈ scalarKeys → ∃ v, Value.Written J v
  caseInsensitive : key = "caseInsensitive" → J = .null ∨ ∃ b, J = .bool b
  collection : key = "collection" → J = .null ∨ ∃ s, J = .string s

theorem name_mem_keys (op : Operator) : op.name ∈ keys := by
  have hkeys : ∀ key ∈ Operator.priority, key ∈ keys := by decide
  exact hkeys op.name op.name_mem_priority

theorem name_ne_modifier (op : Operator) :
    op.name ≠ "caseInsensitive" ∧ op.name ≠ "collection" := by
  have hne : ∀ key ∈ Operator.priority, key ≠ "caseInsensitive" ∧ key ≠ "collection" := by decide
  exact hne op.name op.name_mem_priority

/-! ## reading a member -/

/-- what reading the member `(key, J)` changes -/
structure Step (key : String) (J : Json) (o t : OperatorObject) : Prop where
  operators : ∀ k op, (k, op) ∈ t.operators ↔
    (k, op) ∈ o.operators ∨ k = op.name ∧ op.name = key ∧ op.Operand J
  caseInsensitive : ∀ b, t.caseInsensitive = some b ↔
    if key = "caseInsensitive" then J = .bool b else o.caseInsensitive = some b
  collection : ∀ s, t.collection = some s ↔
    if key = "collection" then J = .string s else o.collection = some s

theorem Step.of_add {J : Json} {op : Operator} (h : op.Operand J) (o : OperatorObject) :
    Step op.name J o (o.add op) where
  operators := by
    intro k op'
    have hadd : (k, op') ∈ (o.add op).operators ↔
        (k = op.name ∧ op' = op) ∨ (k, op') ∈ o.operators := by
      rw [add, List.mem_cons, Prod.mk.injEq]
    rw [hadd, or_comm]
    refine or_congr_right ⟨?_, ?_⟩
    · rintro ⟨rfl, rfl⟩
      exact ⟨rfl, rfl, h⟩
    · rintro ⟨hk, hname, hoperand⟩
      exact ⟨hk.trans hname, hoperand.unique h hname⟩
  caseInsensitive := by
    intro b
    rw [if_neg (name_ne_modifier op).1]
    rfl
  collection := by
    intro s
    rw [if_neg (name_ne_modifier op).2]
    rfl

/-- a malformed operand is as good as none -/
theorem Step.of_unusable {J : Json} {key : String} (hkey : key ∈ Operator.priority)
    (h : ∀ op, op.name = key → ¬ Operator.Operand J op) (o : OperatorObject) : Step key J o o := by
  have hne : ∀ key ∈ Operator.priority, key ≠ "caseInsensitive" ∧ key ≠ "collection" := by decide
  refine ⟨fun k op => ?_, fun b => ?_, fun s => ?_⟩
  · rw [or_iff_left]
    rintro ⟨-, hname, hoperand⟩
    exact h op hname hoperand
  · rw [if_neg (hne key hkey).1]
  · rw [if_neg (hne key hkey).2]

theorem Step.of_scalar {J : Json} {name : String} {mk : Value → Operator}
    (hname : ∀ v, (mk v).name = name) (hmk : ∀ {v}, Value.Written J v → (mk v).Operand J)
    {o t : OperatorObject} (h : (scalarField name mk).read (.ofJson J) o = .ok t) :
    Step name J o t := by
  obtain ⟨v, hv, h⟩ := bind_eq_ok.mp h
  cases h
  rw [← hname v]
  exact .of_add (hmk (Value.ofDoc_eq_ok.mp hv)) o

theorem listOperand_ofJson {depth : Nat} {J : Json} {l : Option (List Value)}
    (h : listOperand depth (.ofJson J) = .ok l) {vs : List Value} :
    l = some vs ↔ ∃ items, J = .array items ∧ List.Forall₂ Value.Written items vs := by
  obtain ⟨_, -, h⟩ := bind_eq_ok.mp h
  cases J with
  | array items =>
    cases h
    have hlist : (Value.listOfItems none (itemsOfJson items)).toOption = some vs ↔
        List.Forall₂ Value.Written items vs := by
      rw [← Value.listOfItems_eq_ok]
      cases Value.listOfItems none (itemsOfJson items) <;> simp [Except.toOption]
    refine hlist.trans ⟨fun h => ⟨items, rfl, h⟩, ?_⟩
    rintro ⟨_, ⟨⟩, h⟩
    exact h
  | _ =>
    cases h
    refine iff_of_false (fun h => by cases h) ?_
    rintro ⟨_, ⟨⟩, -⟩

theorem Step.of_list {depth : Nat} {J : Json} {name : String}
    {operator? : List Value → Option Operator} (hname : name ∈ Operator.priority)
    (hoperand : ∀ op, op.name = name ∧ op.Operand J ↔
      ∃ items vs, J = .array items ∧ List.Forall₂ Value.Written items vs ∧ operator? vs = some op)
    {o t : OperatorObject} (h : (listField depth name operator?).read (.ofJson J) o = .ok t) :
    Step name J o t := by
  obtain ⟨l, hl, h⟩ := bind_eq_ok.mp h
  have hiff : ∀ op, op.name = name ∧ op.Operand J ↔ l.bind operator? = some op := by
    intro op
    rw [hoperand, Option.bind_eq_some_iff]
    constructor
    · rintro ⟨items, vs, hJ, hvs, hop⟩
      exact ⟨vs, (listOperand_ofJson hl).mpr ⟨items, hJ, hvs⟩, hop⟩
    · rintro ⟨vs, hvs, hop⟩
      obtain ⟨items, hJ, hvs⟩ := (listOperand_ofJson hl).mp hvs
      exact ⟨items, vs, hJ, hvs, hop⟩
  cases hop : l.bind operator? with
  | none =>
    rw [hop] at h
    cases h
    -- nothing is added, so there must be no operator that the operand could make
    refine .of_unusable hname (fun op hname hoperand => ?_) o
    have hsome := (hiff op).mp ⟨hname, hoperand⟩
    rw [hop] at hsome
    cases hsome
  | some op =>
    rw [hop] at h
    cases h
    obtain ⟨hname, hoperand⟩ := (hiff op).mpr hop
    rw [← hname]
    exact .of_add hoperand o

theorem operand_member_iff {J : Json} {negated : Bool} (op : Operator) :
    op.name = (Operator.member negated []).name ∧ op.Operand J ↔
      ∃ items vs, J = .array items ∧ List.Forall₂ Value.Written items vs ∧
        (some ∘ Operator.member negated) vs = some op := by
  constructor
  · rintro ⟨hname, hoperand⟩
    obtain ⟨vs, rfl⟩ := Operator.eq_member hname
    cases hoperand with
    | member _ hvs => exact ⟨_, vs, rfl, hvs, rfl⟩
  · rintro ⟨items, vs, rfl, hvs, ⟨⟩⟩
    refine ⟨?_, .member negated hvs⟩
    cases negated <;> rfl

theorem operand_between_iff {J : Json} (op : Operator) :
    op.name = "between" ∧ op.Operand J ↔
      ∃ items vs, J = .array items ∧ List.Forall₂ Value.Written items vs ∧
        Operator.range? vs = some op := by
  constructor
  · rintro ⟨hname, hoperand⟩
    obtain ⟨lo, hi, rfl⟩ := Operator.eq_between hname
    cases hoperand with
    | between hlo hhi => exact ⟨_, [lo, hi], rfl, .cons hlo (.cons hhi .nil), rfl⟩
  · rintro ⟨items, vs, rfl, hvs, hop⟩
    match vs, hop with
    | [lo, hi], rfl =>
      cases hvs with
      | cons hlo hvs =>
        cases hvs with
        | cons hhi hvs =>
          cases hvs
          exact ⟨rfl, .between hlo hhi⟩

theorem Step.of_caseInsensitive {J : Json} {o t : OperatorObject}
    (h : ((Doc.ofJson J).optional Doc.toBool >>= fun b =>
      pure { o with caseInsensitive := b }) = .ok t) : Step "caseInsensitive" J o t := by
  obtain ⟨x, hx, h⟩ := bind_eq_ok.mp h
  cases h
  have hvalue : ∀ b, x = some b ↔ J = .bool b := by
    rcases (Doc.optional_ofJson Doc.toBool_ofJson nofun).mp hx with ⟨rfl, rfl⟩ | ⟨b, rfl, rfl⟩ <;>
      simp
  refine ⟨fun k op => ?_, hvalue, fun s => Iff.rfl⟩
  rw [or_iff_left]
  exact fun h => (name_ne_modifier op).1 h.2.1

theorem Step.of_collection {J : Json} {o t : OperatorObject}
    (h : ((Doc.ofJson J).optional Doc.toText >>= fun s =>
      pure { o with collection := s }) = .ok t) : Step "collection" J o t := by
  obtain ⟨x, hx, h⟩ := bind_eq_ok.mp h
  cases h
  have hvalue : ∀ s, x = some s ↔ J = .string s := by
    rcases (Doc.optional_ofJson Doc.toText_ofJson nofun).mp hx with ⟨rfl, rfl⟩ | ⟨s, rfl, rfl⟩ <;>
      simp
  refine ⟨fun k op => ?_, fun b => Iff.rfl, hvalue⟩
  rw [or_iff_left]
  exact fun h => (name_ne_modifier op).2 h.2.1

/-- the fields are of six kinds -/
theorem forall_fields {depth : Nat} {P : FieldDecoder OperatorObject → Prop}
    (hcompare : ∀ c : Comparison, P (scalarField c.name (.compare c)))
    (hpattern : ∀ p : Position, P (scalarField p.name (.pattern p)))
    (hmember : ∀ negated, P (listField depth (Operator.member negated []).name
      (some ∘ Operator.member negated)))
    (hbetween : P (listField depth "between" Operator.range?))
    (hcase : P ⟨"caseInsensitive", fun d o => do
      return { o with caseInsensitive := ← d.optional Doc.toBool }⟩)
    (hcollection : P ⟨"collection", fun d o => do
      return { o with collection := ← d.optional Doc.toText }⟩) :
    ∀ f ∈ (record depth).fields, P f := by
  simp only [record, List.forall_mem_cons]
  exact ⟨hcompare .eq, hcompare .neq, hcompare .lt, hcompare .lte, hcompare .gt, hcompare .gte,
    hmember false, hmember true, hbetween, hpattern .contains, hpattern .startsWith,
    hpattern .endsWith, hcase, hcollection, List.forall_mem_nil P⟩

theorem step_of_read {depth : Nat} {J : Json} {o t : OperatorObject} :
    ∀ f ∈ (record depth).fields, f.read (.ofJson J) o = .ok t → Step f.name J o t := by
  refine forall_fields ?_ ?_ ?_ ?_ ?_ ?_
  · intro c
    have hname : ∀ v, (Operator.compare c v).name = c.name := fun _ => rfl
    exact Step.of_scalar hname (.compare c)
  · intro p
    have hname : ∀ v, (Operator.pattern p v).name = p.name := fun _ => rfl
    exact Step.of_scalar hname (.pattern p)
  · exact fun negated => Step.of_list (Operator.name_mem_priority _) operand_member_iff
  · exact Step.of_list (by decide) operand_between_iff
  · exact Step.of_caseInsensitive
  · exact Step.of_collection

/-! ## what a field accepts -/

theorem accepts_scalar {key : String} (hkey : key ∈ scalarKeys) {J : Json} :
    Accepts key J ↔ ∃ v, Value.Written J v := by
  have hne : ∀ key ∈ scalarKeys, key ≠ "caseInsensitive" ∧ key ≠ "collection" := by decide
  exact ⟨fun h => h.scalar hkey, fun h => ⟨fun _ => h, fun heq => absurd heq (hne key hkey).1,
    fun heq => absurd heq (hne key hkey).2⟩⟩

theorem accepts_list {key : String} (hkey : key ∈ ["in", "nin", "between"]) {J : Json} :
    Accepts key J := by
  have hne : ∀ key ∈ ["in", "nin", "between"],
      key ∉ scalarKeys ∧ key ≠ "caseInsensitive" ∧ key ≠ "collection" := by decide
  obtain ⟨hscalar, hcase, hcollection⟩ := hne key hkey
  exact ⟨fun h => absurd h hscalar, fun h => absurd h hcase, fun h => absurd h hcollection⟩

theorem exists_read_scalar {J : Json} {name : String} {mk : Value → Operator}
    (hkey : name ∈ scalarKeys) (o : OperatorObject) :
    (∃ t, (scalarField name mk).read (.ofJson J) o = .ok t) ↔ Accepts name J := by
  rw [accepts_scalar hkey]
  constructor
  · rintro ⟨t, h⟩
    obtain ⟨v, hv, -⟩ := bind_eq_ok.mp h
    exact ⟨v, Value.ofDoc_eq_ok.mp hv⟩
  · rintro ⟨v, hv⟩
    exact ⟨_, bind_eq_ok.mpr ⟨v, Value.ofDoc_eq_ok.mpr hv, rfl⟩⟩

theorem exists_read_list {depth : Nat} {J : Json} (hJ : (Doc.ofJson J).fault? depth = none)
    {name : String} {operator? : List Value → Option Operator}
    (hkey : name ∈ ["in", "nin", "between"]) (o : OperatorObject) :
    (∃ t, (listField depth name operator?).read (.ofJson J) o = .ok t) ↔ Accepts name J := by
  have hsettle : (Doc.ofJson J).settle depth = .ok () := by
    rw [Doc.settle, hJ]
    rfl
  have hoperand : ∃ l, listOperand depth (.ofJson J) = .ok l := by
    unfold listOperand
    rw [hsettle]
    cases J <;> exact ⟨_, rfl⟩
  obtain ⟨l, hl⟩ := hoperand
  refine iff_of_true ?_ (accepts_list hkey)
  cases hop : l.bind operator? with
  | none => exact ⟨o, bind_eq_ok.mpr ⟨l, hl, by rw [hop]; rfl⟩⟩
  | some op => exact ⟨o.add op, bind_eq_ok.mpr ⟨l, hl, by rw [hop]; rfl⟩⟩

theorem exists_read_optional {α β : Type} {decode : Doc → Decoded α} {mk : α → Json}
    (hdecode : ∀ {J a}, decode (.ofJson J) = .ok a ↔ J = mk a) (hnull : ∀ a, mk a ≠ .null)
    {J : Json} {set : Option α → β} :
    (∃ t, ((Doc.ofJson J).optional decode >>= fun x => pure (set x)) = .ok t) ↔
      J = .null ∨ ∃ a, J = mk a := by
  simp only [bind_eq_ok, Doc.optional_ofJson hdecode hnull]
  constructor
  · rintro ⟨t, x, ⟨hJ, -⟩ | ⟨a, hJ, -⟩, -⟩
    · exact .inl hJ
    · exact .inr ⟨a, hJ⟩
  · rintro (hJ | ⟨a, hJ⟩)
    · exact ⟨_, none, .inl ⟨hJ, rfl⟩, rfl⟩
    · exact ⟨_, some a, .inr ⟨a, hJ, rfl⟩, rfl⟩

theorem accepts_caseInsensitive {J : Json} :
    Accepts "caseInsensitive" J ↔ J = .null ∨ ∃ b, J = .bool b :=
  ⟨fun h => h.caseInsensitive rfl, fun h => ⟨fun hkey => absurd hkey (by decide), fun _ => h,
    fun hkey => absurd hkey (by decide)⟩⟩

theorem accepts_collection {J : Json} :
    Accepts "collection" J ↔ J = .null ∨ ∃ s, J = .string s :=
  ⟨fun h => h.collection rfl, fun h => ⟨fun hkey => absurd hkey (by decide),
    fun hkey => absurd hkey (by decide), fun _ => h⟩⟩

theorem exists_read_iff {depth : Nat} {J : Json} (hJ : (Doc.ofJson J).fault? depth = none)
    (o : OperatorObject) : ∀ f ∈ (record depth).fields,
      (∃ t, f.read (.ofJson J) o = .ok t) ↔ Accepts f.name J := by
  refine forall_fields ?_ ?_ ?_ ?_ ?_ ?_
  · exact fun c => exists_read_scalar (by cases c <;> decide) o
  · exact fun p => exists_read_scalar (by cases p <;> decide) o
  · exact fun negated => exists_read_list hJ (by cases negated <;> decide) o
  · exact exists_read_list hJ (by decide) o
  · exact (exists_read_optional Doc.toBool_ofJson nofun).trans accepts_caseInsensitive.symm
  · exact (exists_read_optional Doc.toText_ofJson nofun).trans accepts_collection.symm

end OperatorObject

end FilterSql
