import FilterSql.Sql.Column

/-!
# Lowering twice

`lower` puts an expression into `LOWER(...)` unless it is `LOWER` and one group already.  A second
application changes nothing exactly if the first one had nothing to do or the brackets of the
expression are `Nested`: none is closed before it is opened, and none is left open
(`lower_lower_iff`).  The argument is what the bracket scan finds, in numbers of brackets
(`closesAtEnd_iff`).
-/

namespace FilterSql

/-! ## counting brackets -/

def opened (cs : List Char) : Nat := cs.count '('

def closed (cs : List Char) : Nat := cs.count ')'

@[simp] theorem opened_nil : opened [] = 0 := rfl

@[simp] theorem closed_nil : closed [] = 0 := rfl

@[simp] theorem opened_open (cs : List Char) : opened ('(' :: cs) = opened cs + 1 :=
  List.count_cons_self

@[simp] theorem closed_open (cs : List Char) : closed ('(' :: cs) = closed cs :=
  List.count_cons_of_ne (by decide)

@[simp] theorem opened_close (cs : List Char) : opened (')' :: cs) = opened cs :=
  List.count_cons_of_ne (by decide)

@[simp] theorem closed_close (cs : List Char) : closed (')' :: cs) = closed cs + 1 :=
  List.count_cons_self

theorem opened_cons_of_ne {c : Char} (h : c ≠ '(') (cs : List Char) :
    opened (c :: cs) = opened cs := List.count_cons_of_ne h

theorem closed_cons_of_ne {c : Char} (h : c ≠ ')') (cs : List Char) :
    closed (c :: cs) = closed cs := List.count_cons_of_ne h

theorem opened_append (cs ds : List Char) : opened (cs ++ ds) = opened cs + opened ds :=
  List.count_append

theorem closed_append (cs ds : List Char) : closed (cs ++ ds) = closed cs + closed ds :=
  List.count_append

/-! ## what the scan finds -/

/-- with `depth` brackets open, the text closes them all, with its last character and not before -/
structure ClosesAll (depth : Nat) (cs : List Char) : Prop where
  total : closed cs = depth + opened cs
  before : ∀ p, p <+: cs → p ≠ cs → closed p < depth + opened p

theorem closesAll_zero {cs : List Char} : ClosesAll 0 cs ↔ cs = [] := by
  constructor
  · intro h
    cases cs with
    | nil => rfl
    | cons c cs => exact absurd (h.before [] List.nil_prefix (by simp)) (by simp)
  · rintro rfl
    exact ⟨rfl, fun p hp hne => absurd (List.prefix_nil.mp hp) hne⟩

theorem not_closesAll_nil {depth : Nat} : ¬ ClosesAll (depth + 1) [] := by
  intro h
  have := h.total
  simp at this

/-- one step of the scan, from `depth` to `next` open brackets -/
theorem closesAll_cons {depth : Nat} (next : Nat) {c : Char} {cs : List Char}
    (hstep : ∀ p, closed (c :: p) + (next + opened p) = closed p + (depth + opened (c :: p))) :
    ClosesAll depth (c :: cs) ↔ 0 < depth ∧ ClosesAll next cs := by
  constructor
  · rintro ⟨htotal, hbefore⟩
    have hdepth : closed [] < depth + opened [] := hbefore [] List.nil_prefix (by simp)
    refine ⟨by simpa using hdepth, ⟨by have := hstep cs; omega, fun p hp hne => ?_⟩⟩
    have hlt := hbefore (c :: p) ((List.prefix_cons_inj c).mpr hp) (by simpa using hne)
    have := hstep p
    omega
  · rintro ⟨hdepth, htotal, hbefore⟩
    refine ⟨by have := hstep cs; omega, fun p hp hne => ?_⟩
    rcases List.prefix_cons_iff.mp hp with rfl | ⟨q, rfl, hq⟩
    · simpa using hdepth
    · have hlt := hbefore q hq fun heq => hne (by rw [heq])
      have := hstep q
      omega

/-- the scan tells whether the open brackets are closed with the last character -/
theorem closesAtEnd_iff {depth : Nat} {cs : List Char} :
    closesAtEnd (depth + 1) cs = true ↔ ClosesAll (depth + 1) cs := by
  induction cs generalizing depth with
  | nil => exact ⟨fun h => (nomatch h), fun h => absurd h not_closesAll_nil⟩
  | cons c cs ih =>
    rw [closesAtEnd]
    by_cases hopen : c = '('
    · subst hopen
      rw [if_pos rfl, ih, closesAll_cons (depth + 1 + 1) fun p => by simp; omega]
      simp
    · by_cases hclose : c = ')'
      · subst hclose
        rw [if_neg hopen, if_pos rfl, closesAll_cons depth fun p => by simp; omega]
        cases depth with
        | zero => simp [closesAll_zero]
        | succ depth => simp [ih]
      · have hstep : ∀ p, closed (c :: p) + (depth + 1 + opened p) =
            closed p + (depth + 1 + opened (c :: p)) := fun p => by
          rw [opened_cons_of_ne hopen, closed_cons_of_ne hclose]
        rw [if_neg hopen, if_neg hclose, ih, closesAll_cons (depth + 1) hstep]
        simp

/-! ## lowering -/

/-- no bracket is closed before it is opened, and none is left open -/
structure Nested (cs : List Char) : Prop where
  total : closed cs = opened cs
  begin_le : ∀ p, p <+: cs → closed p ≤ opened p

/-- brackets around a text are one group exactly if its own brackets are nested -/
theorem isGroup_bracket_iff {cs : List Char} : isGroup ('(' :: (cs ++ [')'])) = true ↔ Nested cs := by
  have hlast : ('(' :: (cs ++ [')'])).getLast? = some ')' := by
    rw [← List.cons_append, List.getLast?_concat]
  have hscan : isGroup ('(' :: (cs ++ [')'])) = true ↔ ClosesAll 1 (cs ++ [')']) := by
    rw [← closesAtEnd_iff, isGroup, hlast, closesAtEnd, if_pos rfl]
    simp
  rw [hscan]
  constructor
  · rintro ⟨htotal, hbefore⟩
    rw [opened_append, closed_append] at htotal
    refine ⟨by simp at htotal; omega, fun p hp => ?_⟩
    have hlt := hbefore p (hp.trans (List.prefix_append cs [')'])) ?_
    · omega
    · rintro rfl
      have := hp.length_le
      rw [List.length_append, List.length_singleton] at this
      omega
  · rintro ⟨htotal, hbegin⟩
    refine ⟨?_, fun p hp hne => ?_⟩
    · rw [opened_append, closed_append, htotal]
      simp
      omega
    · have hle := hbegin p ((List.prefix_concat_iff.mp hp).resolve_left hne)
      omega

theorem isLowered_wrap {e : String} :
    isLowered ("LOWER(" ++ e ++ ")").toList = true ↔ Nested e.toList := by
  have hchars : ("LOWER(" ++ e ++ ")").toList = lowerWord ++ '(' :: (e.toList ++ [')']) := by
    simp [String.toList_append, lowerWord]
  rw [hchars, isLowered, List.drop_left, ← isGroup_bracket_iff]
  simp

/-- **Lowering is idempotent on expressions with nested brackets, and on those which it leaves as they
are**; any other expression is wrapped a second time. -/
theorem lower_lower_iff (e : String) :
    lower (lower e) = lower e ↔ isLowered e.toList = true ∨ Nested e.toList := by
  by_cases hlowered : isLowered e.toList = true
  · have honce : lower e = e := if_pos hlowered
    rw [honce, honce]
    exact ⟨fun _ => .inl hlowered, fun _ => rfl⟩
  · have honce : lower e = "LOWER(" ++ e ++ ")" := if_neg hlowered
    rw [honce]
    by_cases hnested : Nested e.toList
    · exact ⟨fun _ => .inr hnested, fun _ => if_pos (isLowered_wrap.mpr hnested)⟩
    · have htwice : lower ("LOWER(" ++ e ++ ")") = "LOWER(" ++ ("LOWER(" ++ e ++ ")") ++ ")" :=
        if_neg (mt isLowered_wrap.mp hnested)
      rw [htwice]
      constructor
      · intro h
        have hlength := congrArg String.length h
        rw [String.length_append, String.length_append] at hlength
        have hsix : "LOWER(".length = 6 := rfl
        omega
      · rintro (h | h)
        · exact absurd h hlowered
        · exact absurd h hnested

/-- an expression whose brackets cross those of the wrapper is wrapped twice -/
theorem lower_crossing : lower "a) || LOWER(b" = "LOWER(a) || LOWER(b)" ∧
    lower (lower "a) || LOWER(b") = "LOWER(LOWER(a) || LOWER(b))" ∧
    lower (lower "a) || LOWER(b") ≠ lower "a) || LOWER(b" := by
  decide

end FilterSql
