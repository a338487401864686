import FilterSql.Settings.Environment
import Mathlib.Data.List.DropRight
import Mathlib.Data.List.TakeDrop

/-!
# What a line of an env file says

`EnvLine.Reads` says what a line means in terms of how its characters are put together: blanks around it,
an `export` in front, the first `=`, quotes around the value.  It does not scan.  `EnvLine.ofText` reads
every line so (`EnvLine.ofText_eq_iff`).
-/

namespace FilterSql

/-! ## blanks around a text -/

/-- `core` is the text without the blanks around it -/
structure Trims (text core : List Char) : Prop where
  around : ∃ before after, text = before ++ core ++ after ∧ before.all Text.isBlank = true ∧
    after.all Text.isBlank = true
  head : core.head?.any Text.isBlank = false
  last : core.getLast?.any Text.isBlank = false

theorem Text.trimChars_eq_rdropWhile (cs : List Char) :
    trimChars cs = (cs.dropWhile isBlank).rdropWhile isBlank := rfl

/-- a text whose ends are not blank keeps them -/
theorem Trims.self {cs : List Char} (hhead : cs.head?.any Text.isBlank = false)
    (hlast : cs.getLast?.any Text.isBlank = false) : Trims cs cs where
  around := ⟨[], [], by simp, rfl, rfl⟩
  head := hhead
  last := hlast

theorem dropWhile_eq_self {p : Char → Bool} {cs : List Char} (h : cs.head?.any p = false) :
    cs.dropWhile p = cs := by
  cases cs with
  | nil => rfl
  | cons c cs => exact List.dropWhile_cons_of_neg (by simpa using h)

theorem rdropWhile_eq_self {p : Char → Bool} {cs : List Char} (h : cs.getLast?.any p = false) :
    cs.rdropWhile p = cs := by
  unfold List.rdropWhile
  rw [dropWhile_eq_self (by rwa [List.head?_reverse]), List.reverse_reverse]

theorem Trims.trimChars_eq {text core : List Char} (h : Trims text core) :
    Text.trimChars text = core := by
  obtain ⟨⟨before, after, rfl, hbefore, hafter⟩, hhead, hlast⟩ := h
  have hafter_nil : after.dropWhile Text.isBlank = [] :=
    List.dropWhile_eq_nil_iff.mpr (List.all_eq_true.mp hafter)
  have hreverse : ∀ c ∈ after.reverse, Text.isBlank c = true := fun c hc =>
    List.all_eq_true.mp hafter c (List.mem_reverse.mp hc)
  rw [Text.trimChars_eq_rdropWhile, List.append_assoc,
    List.dropWhile_append_of_pos (List.all_eq_true.mp hbefore)]
  cases core with
  | nil =>
    rw [List.nil_append, hafter_nil]
    rfl
  | cons c core =>
    rw [List.cons_append, dropWhile_eq_self (by simpa using hhead), ← List.cons_append]
    unfold List.rdropWhile
    rw [List.reverse_append, List.dropWhile_append_of_pos hreverse]
    exact rdropWhile_eq_self hlast

theorem trims_trimChars (cs : List Char) : Trims cs (Text.trimChars cs) := by
  have hprefix : Text.trimChars cs <+: cs.dropWhile Text.isBlank := List.rdropWhile_prefix _ _
  refine ⟨⟨cs.takeWhile Text.isBlank, (cs.dropWhile Text.isBlank).rtakeWhile Text.isBlank, ?_,
    List.all_takeWhile, List.all_eq_true.mpr fun c hc => List.mem_rtakeWhile_imp hc⟩, ?_, ?_⟩
  · rw [Text.trimChars_eq_rdropWhile, List.append_assoc, List.rdropWhile_append_rtakeWhile,
      List.takeWhile_append_dropWhile]
  · -- the first character left over was there before the end was trimmed
    cases hcore : Text.trimChars cs with
    | nil => rfl
    | cons c core =>
      obtain ⟨after, hafter⟩ := hcore ▸ hprefix
      have hstop := List.head?_dropWhile_not Text.isBlank cs
      rw [← hafter] at hstop
      simpa using hstop
  · cases hcore : (Text.trimChars cs).getLast? with
    | none => rfl
    | some c =>
      have hne : Text.trimChars cs ≠ [] := by
        intro hnil
        rw [hnil] at hcore
        cases hcore
      have hstop := List.rdropWhile_last_not Text.isBlank (cs.dropWhile Text.isBlank) hne
      rw [List.getLast?_eq_some_getLast hne] at hcore
      cases hcore
      exact eq_false_of_ne_true hstop

theorem trims_iff {text core : List Char} : Trims text core ↔ core = Text.trimChars text :=
  ⟨fun h => h.trimChars_eq.symm, fun h => h ▸ trims_trimChars text⟩

/-! ## quotes -/

def IsQuote (q : Char) : Prop := q = '"' ∨ q = '\x27'

/-- one pair of equal quotes is taken off, if it is there -/
inductive Unquotes : List Char → List Char → Prop
  | quoted {q : Char} {value : List Char} : IsQuote q → Unquotes (q :: (value ++ [q])) value
  | bare {value : List Char} : (∀ q inner, IsQuote q → value ≠ q :: (inner ++ [q])) →
      Unquotes value value

theorem Unquotes.unquote_eq {raw value : List Char} (h : Unquotes raw value) :
    unquote raw = value := by
  cases h with
  | quoted hq =>
    rename_i q
    have hmark : (q = '"' || q = '\x27') = true := by simpa [IsQuote] using hq
    unfold unquote
    simp [hmark]
  | bare hbare =>
    unfold unquote
    split
    · rename_i q rest
      split
      · rename_i hquoted
        obtain ⟨hmark, hlast⟩ := (Bool.and_eq_true _ _).mp hquoted
        have hq : IsQuote q := by simpa [IsQuote] using hmark
        have hrest := List.dropLast_append_getLast? q (of_decide_eq_true hlast)
        exact absurd (congrArg (q :: ·) hrest.symm) (hbare q rest.dropLast hq)
      · rfl
    · rfl

theorem unquotes_unquote (raw : List Char) : Unquotes raw (unquote raw) := by
  by_cases h : ∃ q inner, IsQuote q ∧ raw = q :: (inner ++ [q])
  · obtain ⟨q, inner, hq, rfl⟩ := h
    rw [(Unquotes.quoted hq).unquote_eq]
    exact .quoted hq
  · have hbare : Unquotes raw raw := .bare fun q inner hq heq => h ⟨q, inner, hq, heq⟩
    rw [hbare.unquote_eq]
    exact hbare

/-! ## lines -/

namespace EnvLine

/-- the statement of a line that is not passed over: its text without the blanks around it and without
one `export ` in front -/
inductive Body (line : String) : List Char → Prop
  | exported {body : List Char} : Trims line.toList ("export ".toList ++ body) → Body line body
  | plain {c : Char} {cs : List Char} : Trims line.toList (c :: cs) → c ≠ '#' →
      ¬ "export ".toList <+: c :: cs → Body line (c :: cs)

inductive Reads (line : String) : EnvLine → Prop
  | blank : Trims line.toList [] → Reads line .ignored
  | comment {cs : List Char} : Trims line.toList ('#' :: cs) → Reads line .ignored
  | noEquals {body : List Char} : Body line body → '=' ∉ body → Reads line (.bad .noEquals)
  | emptyKey {left right : List Char} : Body line (left ++ '=' :: right) → '=' ∉ left →
      Trims left [] → Reads line (.bad .emptyKey)
  | assignment {left right raw : List Char} {key value : String} :
      Body line (left ++ '=' :: right) → '=' ∉ left → Trims left key.toList → key ≠ "" →
      Trims right raw → Unquotes raw value.toList → Reads line (.assignment key value)

section
variable {line : String} {body left right : List Char}

theorem Body.spec (h : Body line body) : (Text.trimChars line.toList).isEmpty = false ∧
    (Text.trimChars line.toList).head? ≠ some '#' ∧
      dropExport (Text.trimChars line.toList) = body := by
  cases h with
  | exported htrims =>
    rw [htrims.trimChars_eq]
    refine ⟨rfl, ?_, rfl⟩
    show some 'e' ≠ some '#'
    decide
  | plain htrims hhash hexport =>
    rw [htrims.trimChars_eq]
    refine ⟨rfl, fun hhead => hhash (Option.some.inj hhead), ?_⟩
    unfold dropExport
    rw [if_neg (fun hprefix => hexport (List.isPrefixOf_iff_prefix.mp hprefix))]

theorem exists_body (hne : Text.trimChars line.toList ≠ [])
    (hhash : (Text.trimChars line.toList).head? ≠ some '#') : ∃ body, Body line body := by
  have htrims := trims_trimChars line.toList
  by_cases hexport : "export ".toList <+: Text.trimChars line.toList
  · obtain ⟨body, hbody⟩ := hexport
    rw [← hbody] at htrims
    exact ⟨body, .exported htrims⟩
  · obtain ⟨c, cs, hcs⟩ := List.exists_cons_of_ne_nil hne
    rw [hcs] at htrims hhash hexport
    exact ⟨c :: cs, .plain htrims (fun hc => hhash (congrArg some hc)) hexport⟩

/-- the part in front of the first `=` -/
theorem span_of_stop {rest : List Char} (h : '=' ∉ left) (hrest : rest.head?.all (· = '=') = true) :
    (left ++ rest).span (· ≠ '=') = (left, rest) := by
  have hall : ∀ c ∈ left, decide (c ≠ '=') = true := by
    intro c hc
    apply decide_eq_true
    rintro rfl
    exact h hc
  rw [List.span_eq_takeWhile_dropWhile, List.takeWhile_append_of_pos hall,
    List.dropWhile_append_of_pos hall]
  cases rest with
  | nil => simp
  | cons c rest =>
    have hc : c = '=' := by simpa using hrest
    simp [hc]

theorem ofText_of_noEquals (h : Body line body) (hbody : '=' ∉ body) :
    ofText line = .bad .noEquals := by
  obtain ⟨hne, hhash, hdrop⟩ := h.spec
  have hspan : (body ++ []).span (· ≠ '=') = (body, []) := span_of_stop hbody rfl
  rw [List.append_nil] at hspan
  unfold ofText
  simp only [hne, hhash, hdrop, hspan, decide_false, Bool.or_self, Bool.false_eq_true, if_false]

theorem ofText_of_split (h : Body line (left ++ '=' :: right)) (hleft : '=' ∉ left) :
    ofText line = if (Text.trimChars left).isEmpty then .bad .emptyKey
      else .assignment (String.ofList (Text.trimChars left))
        (String.ofList (unquote (Text.trimChars right))) := by
  obtain ⟨hne, hhash, hdrop⟩ := h.spec
  have hspan : (left ++ '=' :: right).span (· ≠ '=') = (left, '=' :: right) :=
    span_of_stop hleft rfl
  unfold ofText
  simp only [hne, hhash, hdrop, hspan, decide_false, Bool.or_self, Bool.false_eq_true, if_false]

theorem Reads.ofText_eq {l : EnvLine} (h : Reads line l) : ofText line = l := by
  cases h with
  | blank htrims =>
    unfold ofText
    simp [htrims.trimChars_eq]
  | comment htrims =>
    unfold ofText
    simp [htrims.trimChars_eq]
  | noEquals hbody hnone => exact ofText_of_noEquals hbody hnone
  | emptyKey hbody hleft htrims =>
    rw [ofText_of_split hbody hleft, htrims.trimChars_eq]
    rfl
  | @assignment _ _ _ key _ hbody hleft hkey hne hraw hvalue =>
    have hempty : key.toList.isEmpty = false := by simpa using hne
    rw [ofText_of_split hbody hleft, hkey.trimChars_eq, hempty, hraw.trimChars_eq,
      hvalue.unquote_eq, String.ofList_toList, String.ofList_toList]
    rfl

theorem exists_reads (line : String) : ∃ l, Reads line l := by
  have htrims := trims_trimChars line.toList
  by_cases hnil : Text.trimChars line.toList = []
  · rw [hnil] at htrims
    exact ⟨_, .blank htrims⟩
  by_cases hhash : (Text.trimChars line.toList).head? = some '#'
  · obtain ⟨cs, hcs⟩ := List.head?_eq_some_iff.mp hhash
    rw [hcs] at htrims
    exact ⟨_, .comment htrims⟩
  obtain ⟨body, hbody⟩ := exists_body hnil hhash
  by_cases hequals : '=' ∈ body
  · obtain ⟨left, right, rfl, hleft⟩ := List.eq_append_cons_of_mem hequals
    have hkey := trims_trimChars left
    by_cases hempty : Text.trimChars left = []
    · rw [hempty] at hkey
      exact ⟨_, .emptyKey hbody hleft hkey⟩
    · refine ⟨.assignment (String.ofList (Text.trimChars left))
        (String.ofList (unquote (Text.trimChars right))),
        .assignment hbody hleft ?_ ?_ (trims_trimChars right) ?_⟩
      · rwa [String.toList_ofList]
      · intro h
        exact hempty (String.ofList_eq_empty_iff.mp h)
      · rw [String.toList_ofList]
        exact unquotes_unquote _
  · exact ⟨_, .noEquals hbody hequals⟩

/-- a line says one thing -/
theorem Reads.unique {l l' : EnvLine} (h : Reads line l) (h' : Reads line l') : l = l' :=
  h.ofText_eq.symm.trans h'.ofText_eq

/-- a line is read as what it says -/
theorem ofText_eq_iff {l : EnvLine} : ofText line = l ↔ Reads line l := by
  constructor
  · rintro rfl
    obtain ⟨l, hl⟩ := exists_reads line
    rwa [hl.ofText_eq]
  · exact Reads.ofText_eq

end

end EnvLine

end FilterSql
