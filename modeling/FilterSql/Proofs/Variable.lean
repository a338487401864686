import FilterSql.Proofs.EnvFile
import FilterSql.Settings.Basic

/-!
# What variables hold

A variable holds the text that the process gives it, else that of the first line of the env file that
assigns it (`Environment.Holds`), and an env file is loaded so (`Environment.holds_get?_load`).  As a
number the text is `Writes`: blanks, perhaps a plus sign, and decimal digits (`boundedNumber?_eq_some`).
-/

namespace FilterSql

namespace Environment

/-- The text of a variable, if it has one: from the process, else from the env file.  Lines and what they
say are the relations, so this does not depend on how an env file is read. -/
inductive Holds (env : Environment) (envText : Option String) (key : String) : Option String → Prop
  | process {text : String} : env.lookup key = some text → Holds env envText key (some text)
  | assigned {content text : String} {lines : List String} : env.lookup key = none →
      envText = some content → Text.HasLines content.toList lines → FirstAssigns lines key text →
      Holds env envText key (some text)
  | unassigned {content : String} {lines : List String} : env.lookup key = none →
      envText = some content → Text.HasLines content.toList lines →
      (∀ line ∈ lines, ∀ value, ¬ EnvLine.Reads line (.assignment key value)) →
      Holds env envText key none
  | noFile : env.lookup key = none → envText = none → Holds env envText key none

section
variable {env : Environment} {envText text? : Option String} {key : String}

/-- what a variable holds is what a scan of the lines finds -/
theorem holds_iff : env.Holds envText key text? ↔
    text? = (env.get? key).or (envText.bind fun content =>
      ((Text.lines content).map EnvLine.ofText).findSome? (EnvLine.assigned? key)) := by
  constructor
  · intro h
    cases h with
    | process hkey => rw [get?, hkey, Option.some_or]
    | assigned hkey hcontent hlines hfirst =>
      rw [get?, hkey, Option.none_or, hcontent, Option.bind_some, Text.lines_eq_iff.mpr hlines,
        findSome?_assigned?.mpr hfirst]
    | unassigned hkey hcontent hlines hnone =>
      rw [get?, hkey, Option.none_or, hcontent, Option.bind_some, Text.lines_eq_iff.mpr hlines,
        findSome?_assigned?_eq_none.mpr hnone]
    | noFile hkey hfile => rw [get?, hkey, Option.none_or, hfile, Option.bind_none]
  · rintro rfl
    cases hkey : env.lookup key with
    | some text =>
      rw [get?, hkey, Option.some_or]
      exact .process hkey
    | none =>
      rw [get?, hkey, Option.none_or]
      cases envText with
      | none => exact .noFile hkey rfl
      | some content =>
        have hlines := Text.lines_eq_iff.mp (rfl : Text.lines content = _)
        rw [Option.bind_some]
        cases hfind : ((Text.lines content).map EnvLine.ofText).findSome?
            (EnvLine.assigned? key) with
        | some text => exact .assigned hkey rfl hlines (findSome?_assigned?.mp hfind)
        | none => exact .unassigned hkey rfl hlines (findSome?_assigned?_eq_none.mp hfind)

theorem Holds.unique {other? : Option String} (h : env.Holds envText key text?)
    (h' : env.Holds envText key other?) : text? = other? :=
  (holds_iff.mp h).trans (holds_iff.mp h').symm

theorem holds_get? (env : Environment) (key : String) : env.Holds none key (env.get? key) :=
  holds_iff.mpr (Option.or_none).symm

theorem holds_get?_load {content : String} (h : (env.load content).2 = none) (key : String) :
    env.Holds (some content) key ((env.load content).1.get? key) :=
  holds_iff.mpr (get?_loadLines h key)

end

end Environment

/-! ## numbers -/

/-- the text is blanks around perhaps a plus sign and decimal digits, which write `n` -/
def Writes (bound : Nat) (text : String) (n : Nat) : Prop :=
  ∃ core digits : List Char, Trims text.toList core ∧ (core = digits ∨ core = '+' :: digits) ∧
    digits ≠ [] ∧ digits.all Char.isDigit ∧ n = Nat.ofDigitChars 10 digits 0 ∧ n < bound

theorem foldlM_digits {cs : List Char} {init n : Nat} :
    cs.foldlM (fun n c => if c.isDigit then some (10 * n + (c.toNat - 48)) else none) init = some n ↔
      cs.all Char.isDigit ∧ n = Nat.ofDigitChars 10 cs init := by
  induction cs generalizing init with
  | nil =>
    constructor
    · intro h
      cases h
      exact ⟨rfl, rfl⟩
    · rintro ⟨-, rfl⟩
      rfl
  | cons c cs ih =>
    rw [List.foldlM_cons, List.all_cons, Nat.ofDigitChars_cons]
    cases hc : c.isDigit with
    | true =>
      rw [if_pos rfl, Bool.true_and]
      exact ih
    | false => simp

theorem digitsValue?_eq_some {cs : List Char} {n : Nat} :
    digitsValue? cs = some n ↔
      cs ≠ [] ∧ cs.all Char.isDigit ∧ n = Nat.ofDigitChars 10 cs 0 := by
  unfold digitsValue?
  cases cs with
  | nil => simp
  | cons c cs =>
    rw [List.isEmpty_cons, if_neg Bool.false_ne_true, foldlM_digits]
    exact (and_iff_right (List.cons_ne_nil c cs)).symm

theorem boundedNumber?_eq_some {bound : Nat} {text : String} {n : Nat} :
    boundedNumber? bound text = some n ↔ Writes bound text n := by
  unfold boundedNumber? Writes
  simp only [trims_iff, exists_and_left, exists_eq_left]
  generalize Text.trimChars text.toList = cs
  have hbound : ∀ value? : Option Nat,
      (value?.bind fun n => if n < bound then some n else none) = some n ↔
        value? = some n ∧ n < bound := by
    intro value?
    cases value? with
    | none => simp
    | some m => simp +contextual [Option.ite_none_right_eq_some, and_comm]
  refine (hbound _).trans ?_
  rw [digitsValue?_eq_some]
  split
  · rename_i digits
    constructor
    · rintro ⟨⟨hne, hall, hn⟩, hlt⟩
      exact ⟨digits, .inr rfl, hne, hall, hn, hlt⟩
    · rintro ⟨digits', rfl | h, hne, hall, hn, hlt⟩
      · -- the sign itself is no digit
        cases hall
      · cases h
        exact ⟨⟨hne, hall, hn⟩, hlt⟩
  · rename_i hsign
    constructor
    · rintro ⟨⟨hne, hall, hn⟩, hlt⟩
      exact ⟨cs, .inl rfl, hne, hall, hn, hlt⟩
    · rintro ⟨digits, rfl | h, hne, hall, hn, hlt⟩
      · exact ⟨⟨hne, hall, hn⟩, hlt⟩
      · exact absurd h (hsign digits)

theorem Writes.unique {bound : Nat} {text : String} {m n : Nat} (h : Writes bound text m)
    (h' : Writes bound text n) : m = n :=
  Option.some.inj ((boundedNumber?_eq_some.mpr h).symm.trans (boundedNumber?_eq_some.mpr h'))

theorem Writes.lt {bound : Nat} {text : String} {n : Nat} (h : Writes bound text n) : n < bound := by
  obtain ⟨_, _, _, _, _, _, _, hlt⟩ := h
  exact hlt

end FilterSql
