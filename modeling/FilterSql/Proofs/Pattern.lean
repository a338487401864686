import FilterSql.Proofs.Folding
import Mathlib.Data.List.Infix

/-!
# What patterns find

`like` compares a whole text with a pattern: `%` stands for any run of characters, `_` for any one
character, and every other character for itself; there is no escape character.  An operator that looks
for a text binds that text between `%` signs, so it finds the texts in which a part in the right place is
`like` the operand (`Position.like_around`).  For an operand without wildcards that part is the operand
itself; an operand with a wildcard in it finds other texts too, and no pattern at all would find just the
right ones (`Position.hasWildcard_eq_false`).
-/

namespace FilterSql

/-! ## like -/

/-- a character that stands for other characters in a pattern -/
def isWildcard (c : Char) : Bool := c = '%' || c = '_'

/-- the characters of a pattern match all characters of a text -/
def likeChars : List Char → List Char → Bool
  | [] => List.isEmpty
  | c :: pattern => fun text =>
    if c = '%' then text.tails.any (likeChars pattern)
    else match text with
      | [] => false
      | d :: rest => (c = '_' || c = d) && likeChars pattern rest

def like (pattern text : String) : Bool := likeChars pattern.toList text.toList

def hasWildcard (text : String) : Bool := text.toList.any isWildcard

section
variable {p q s : List Char}

theorem likeChars_nil : likeChars [] s = true ↔ s = [] := List.isEmpty_iff

theorem likeChars_run : likeChars ('%' :: p) s = true ↔ ∃ a b, s = a ++ b ∧ likeChars p b = true := by
  show s.tails.any (likeChars p) = true ↔ _
  rw [List.any_eq_true]
  constructor
  · rintro ⟨b, hb, hmatch⟩
    obtain ⟨a, rfl⟩ := (List.mem_tails b s).mp hb
    exact ⟨a, b, rfl, hmatch⟩
  · rintro ⟨a, b, rfl, hmatch⟩
    exact ⟨b, (List.mem_tails b _).mpr (List.suffix_append a b), hmatch⟩

theorem likeChars_one {c : Char} (h : c ≠ '%') : likeChars (c :: p) s = true ↔
    ∃ d rest, s = d :: rest ∧ (c = '_' ∨ c = d) ∧ likeChars p rest = true := by
  rw [likeChars]
  cases s with
  | nil => simp [h]
  | cons d rest => simp [h]

/-- a pattern in two parts matches a text in two parts -/
theorem likeChars_append : likeChars (p ++ q) s = true ↔
    ∃ a b, s = a ++ b ∧ likeChars p a = true ∧ likeChars q b = true := by
  induction p generalizing s with
  | nil =>
    constructor
    · intro h
      exact ⟨[], s, rfl, rfl, h⟩
    · rintro ⟨a, b, rfl, ha, hb⟩
      rw [likeChars_nil.mp ha]
      exact hb
  | cons c p ih =>
    rw [List.cons_append]
    by_cases hc : c = '%'
    · subst hc
      rw [likeChars_run]
      constructor
      · rintro ⟨a, b, rfl, hb⟩
        obtain ⟨b₁, b₂, rfl, hb₁, hb₂⟩ := ih.mp hb
        exact ⟨a ++ b₁, b₂, (List.append_assoc ..).symm, likeChars_run.mpr ⟨a, b₁, rfl, hb₁⟩, hb₂⟩
      · rintro ⟨a, b, rfl, ha, hb⟩
        obtain ⟨a₁, a₂, rfl, ha₂⟩ := likeChars_run.mp ha
        exact ⟨a₁, a₂ ++ b, List.append_assoc .., ih.mpr ⟨a₂, b, rfl, ha₂, hb⟩⟩
    · rw [likeChars_one hc]
      constructor
      · rintro ⟨d, rest, rfl, hd, hrest⟩
        obtain ⟨a, b, rfl, ha, hb⟩ := ih.mp hrest
        exact ⟨d :: a, b, rfl, (likeChars_one hc).mpr ⟨d, a, rfl, hd, ha⟩, hb⟩
      · rintro ⟨a, b, rfl, ha, hb⟩
        obtain ⟨d, rest, rfl, hd, hrest⟩ := (likeChars_one hc).mp ha
        exact ⟨d, rest ++ b, rfl, hd, ih.mpr ⟨rest, b, rfl, hrest, hb⟩⟩

theorem likeChars_all (s : List Char) : likeChars ['%'] s = true :=
  likeChars_run.mpr ⟨s, [], (List.append_nil s).symm, rfl⟩

theorem likeChars_self (p : List Char) : likeChars p p = true := by
  induction p with
  | nil => rfl
  | cons c p ih =>
    by_cases hc : c = '%'
    · subst hc
      exact likeChars_run.mpr ⟨['%'], p, rfl, ih⟩
    · exact (likeChars_one hc).mpr ⟨c, p, rfl, .inr rfl, ih⟩

/-- without wildcards a pattern matches nothing but itself -/
theorem likeChars_of_plain (h : p.any isWildcard = false) : likeChars p s = true ↔ s = p := by
  constructor
  · intro hmatch
    induction p generalizing s with
    | nil => exact likeChars_nil.mp hmatch
    | cons c p ih =>
      rw [List.any_cons, Bool.or_eq_false_iff] at h
      have hc : c ≠ '%' ∧ c ≠ '_' := by simpa [isWildcard] using h.1
      obtain ⟨d, rest, rfl, hd, hrest⟩ := (likeChars_one hc.1).mp hmatch
      rw [ih h.2 hrest, hd.resolve_left hc.2]
  · rintro rfl
    exact likeChars_self s

/-- what a character is replaced by to take the wildcards out of a text -/
def tame (c : Char) : Char := if isWildcard c then 'x' else c

theorem isWildcard_tame (c : Char) : isWildcard (tame c) = false := by
  unfold tame
  split
  · rfl
  · rename_i h
    exact eq_false_of_ne_true h

/-- no pattern tells a wildcard in a text from any other character -/
theorem likeChars_map_tame (h : likeChars p s = true) : likeChars p (s.map tame) = true := by
  induction p generalizing s with
  | nil =>
    rw [likeChars_nil.mp h]
    rfl
  | cons c p ih =>
    by_cases hc : c = '%'
    · subst hc
      obtain ⟨a, b, rfl, hb⟩ := likeChars_run.mp h
      exact likeChars_run.mpr ⟨a.map tame, b.map tame, List.map_append, ih hb⟩
    · obtain ⟨d, rest, rfl, hd, hrest⟩ := (likeChars_one hc).mp h
      refine (likeChars_one hc).mpr ⟨tame d, rest.map tame, rfl, ?_, ih hrest⟩
      by_cases hone : c = '_'
      · exact .inl hone
      · have hplain : isWildcard c = false := by simp [isWildcard, hc, hone]
        rw [← hd.resolve_left hone, tame, hplain]
        exact .inr rfl

end

/-! ## what an operator finds -/

namespace Position

/-- a part stands in a text where the position says -/
def Finds (p : Position) (part text : List Char) : Prop :=
  match p with
  | .contains => part <:+: text
  | .startsWith => part <+: text
  | .endsWith => part <:+ text

theorem Finds.subset {p : Position} {part text : List Char} (h : p.Finds part text) :
    part ⊆ text := by
  cases p with
  | contains => exact List.IsInfix.subset h
  | startsWith => exact List.IsPrefix.subset h
  | endsWith => exact List.IsSuffix.subset h

theorem Finds.refl (p : Position) (text : List Char) : p.Finds text text := by
  cases p with
  | contains => exact List.infix_refl text
  | startsWith => exact List.prefix_refl text
  | endsWith => exact List.suffix_refl text

/-- the pattern of a text finds the texts with a part in its place that is like it -/
theorem like_around (p : Position) (t s : String) : like (p.around t) s = true ↔
    ∃ part, p.Finds part s.toList ∧ likeChars t.toList part = true := by
  unfold like
  cases p with
  | contains =>
    have hchars : (around .contains t).toList = ['%'] ++ t.toList ++ ['%'] := by
      simp [around, String.toList_append]
    rw [hchars, likeChars_append]
    constructor
    · rintro ⟨a, b, hs, ha, -⟩
      obtain ⟨a₁, part, rfl, -, hpart⟩ := likeChars_append.mp ha
      exact ⟨part, ⟨a₁, b, hs.symm⟩, hpart⟩
    · rintro ⟨part, ⟨a, b, hs⟩, hpart⟩
      exact ⟨a ++ part, b, hs.symm,
        likeChars_append.mpr ⟨a, part, rfl, likeChars_all a, hpart⟩, likeChars_all b⟩
  | startsWith =>
    have hchars : (around .startsWith t).toList = t.toList ++ ['%'] := by
      simp [around, String.toList_append]
    rw [hchars, likeChars_append]
    constructor
    · rintro ⟨part, b, hs, hpart, -⟩
      exact ⟨part, ⟨b, hs.symm⟩, hpart⟩
    · rintro ⟨part, ⟨b, hs⟩, hpart⟩
      exact ⟨part, b, hs.symm, hpart, likeChars_all b⟩
  | endsWith =>
    have hchars : (around .endsWith t).toList = ['%'] ++ t.toList := by
      simp [around, String.toList_append]
    rw [hchars, likeChars_append]
    constructor
    · rintro ⟨a, part, hs, -, hpart⟩
      exact ⟨part, ⟨a, hs.symm⟩, hpart⟩
    · rintro ⟨part, ⟨a, hs⟩, hpart⟩
      exact ⟨a, part, hs.symm, likeChars_all a, hpart⟩

/-- a text without wildcards is found exactly where it stands -/
theorem like_around_of_plain {t : String} (h : hasWildcard t = false) (p : Position) (s : String) :
    like (p.around t) s = true ↔ p.Finds t.toList s.toList := by
  rw [like_around]
  constructor
  · rintro ⟨part, hfinds, hpart⟩
    rwa [(likeChars_of_plain h).mp hpart] at hfinds
  · intro hfinds
    exact ⟨t.toList, hfinds, likeChars_self t.toList⟩

/-- a pattern, whatever it is, that finds a text exactly where it stands is there only for texts without
wildcards -/
theorem hasWildcard_eq_false {p : Position} {t pattern : String}
    (h : ∀ s, like pattern s = true ↔ p.Finds t.toList s.toList) : hasWildcard t = false := by
  have hself : like pattern t = true := (h t).mpr (Finds.refl p t.toList)
  -- the text without its wildcards is matched as well, so the text stands in it
  have htame : like pattern (String.ofList (t.toList.map tame)) = true := by
    unfold like at hself ⊢
    rw [String.toList_ofList]
    exact likeChars_map_tame hself
  have hfinds := (h _).mp htame
  rw [String.toList_ofList] at hfinds
  refine List.any_eq_false.mpr fun c hc => ?_
  obtain ⟨d, -, rfl⟩ := List.mem_map.mp (hfinds.subset hc)
  rw [isWildcard_tame]
  exact Bool.false_ne_true

end Position

/-- **Patterns find their operand, up to the wildcards in it.**  An operand with a text is bound inside one
pattern.  The pattern matches the texts of which a part in the right place is like the operand; these are
the texts in which the operand itself stands there exactly if it has no wildcard in it.  For an operand with
a wildcard no other pattern would match just these texts either. -/
theorem Constraint.run_bind_pattern (style : BindStyle) (name : String) (collection : Option String)
    (fold : Bool) (position : Position) {value : Value} {t : String} (h : value.text? = some t)
    (bound : List Param) : ∃ clause pattern,
      ((Constraint.field ⟨some (.pattern position value), fold, collection⟩).bind style name).run
          bound = .ok (some clause,
            bound ++ [⟨paramName (bound.length + 1) name, .string pattern⟩]) ∧
      (∀ s, like pattern s = true ↔
        ∃ part, position.Finds part s.toList ∧ likeChars t.toList part = true) ∧
      ((∀ s, like pattern s = true ↔ position.Finds t.toList s.toList) ↔ hasWildcard t = false) ∧
      (hasWildcard t = true → ∀ other : String,
        ¬ ∀ s, like other s = true ↔ position.Finds t.toList s.toList) := by
  have hrun := run_bind_operator style name collection fold (.pattern position value) bound
  have hsilent : (Operator.pattern position value).isSilent = false := by
    simp [Operator.isSilent, h]
  have hparams : (Operator.pattern position value).params (bound.length + 1) name =
      [⟨paramName (bound.length + 1) name, .string (position.around t)⟩] := by
    simp [Operator.params, Operator.bound, h, Param.number]
  rw [Operator.clauseOn?, Operator.clause?_of_not_silent _ hsilent, hparams] at hrun
  refine ⟨_, position.around t, hrun, fun s => position.like_around t s, ⟨?_, ?_⟩, ?_⟩
  · intro hexact
    exact Position.hasWildcard_eq_false hexact
  · intro hplain s
    exact Position.like_around_of_plain hplain position s
  · intro hwildcard other hexact
    rw [Position.hasWildcard_eq_false hexact] at hwildcard
    cases hwildcard

/-- the text of a number has no wildcard in it -/
theorem Constraint.run_bind_pattern_number : Value.text? (.int 42) = some "42" ∧
    ∃ clause pattern, ((Constraint.field ⟨some (.pattern .endsWith (.int 42)), true, none⟩).bind
        .dollar "code").run [⟨"_1_id", .int 7⟩] =
      .ok (some clause, [⟨"_1_id", .int 7⟩, ⟨"_2_code", .string pattern⟩]) ∧
    ∀ s, like pattern s = true ↔ Position.endsWith.Finds ['4', '2'] s.toList := by
  have htext : Value.text? (.int 42) = some "42" := rfl
  obtain ⟨clause, pattern, hrun, -, hexact, -⟩ := run_bind_pattern .dollar "code" none true .endsWith
    htext [⟨"_1_id", .int 7⟩]
  exact ⟨htext, clause, pattern, hrun, hexact.mpr (by decide)⟩

/-- a search for an underscore finds every text that has a character -/
theorem Constraint.run_bind_pattern_underscore : Value.text? (.string "_") = some "_" ∧
    ((Constraint.field ⟨some (.pattern .contains (.string "_")), false, none⟩).bind .question
        "name").run [] = .ok (some "name LIKE ?", [⟨"_1_name", .string "%_%"⟩]) ∧
    like "%_%" "a" = true ∧ ¬ Position.contains.Finds ['_'] ['a'] := by
  refine ⟨rfl, rfl, by decide, ?_⟩
  intro h
  have hmem := Position.Finds.subset h (List.mem_singleton_self '_')
  exact absurd (List.mem_singleton.mp hmem) (by decide)

end FilterSql
