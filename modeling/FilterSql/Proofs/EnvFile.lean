import FilterSql.Proofs.EnvLine
import FilterSql.Proofs.Lines
import FilterSql.Proofs.Name

/-!
# What an env file says

An env file is read line by line up to the first bad one.  A step keeps the variables that are there
(`Environment.get?_add`), so a run over the lines gives every other variable its first assignment, and the
error is that of the first bad line with its number (`Environment.load_lines`).  A value between double
quotes is kept as it is, whatever is in it but a line feed.
-/

namespace FilterSql

/-! ## lines one after the other -/

namespace EnvLine

def assigned? (key : String) : EnvLine → Option String
  | .assignment k value => if k = key then some value else none
  | _ => none

/-- a line that is passed over or assigns a variable -/
def IsProper (line : String) : Prop :=
  Reads line .ignored ∨ ∃ key value, Reads line (.assignment key value)

theorem isProper_or_bad (line : String) : IsProper line ∨ ∃ cause, Reads line (.bad cause) := by
  obtain ⟨l, hl⟩ := exists_reads line
  cases l with
  | ignored => exact .inl (.inl hl)
  | assignment key value => exact .inl (.inr ⟨key, value, hl⟩)
  | bad cause => exact .inr ⟨cause, hl⟩

theorem IsProper.not_bad {line : String} (h : IsProper line) (cause : LineError) :
    ¬ Reads line (.bad cause) := by
  intro hbad
  rw [← ofText_eq_iff] at hbad
  rcases h with h | ⟨key, value, h⟩
  · rw [h.ofText_eq] at hbad
    cases hbad
  · rw [h.ofText_eq] at hbad
    cases hbad

theorem assigned?_ofText {line key value : String} :
    (ofText line).assigned? key = some value ↔ Reads line (.assignment key value) := by
  rw [← ofText_eq_iff]
  cases ofText line with
  | ignored => exact iff_of_false (fun h => nomatch h) (fun h => nomatch h)
  | bad cause => exact iff_of_false (fun h => nomatch h) (fun h => nomatch h)
  | assignment k v =>
    show (if k = key then some v else none) = some value ↔ _
    rw [Option.ite_none_right_eq_some, Option.some.injEq, assignment.injEq]

end EnvLine

namespace Environment

/-- the first of some lines that assigns a variable gives it this value -/
def FirstAssigns (lines : List String) (key value : String) : Prop :=
  ∃ before line after, lines = before ++ line :: after ∧
    (∀ l ∈ before, ∀ v, ¬ EnvLine.Reads l (.assignment key v)) ∧
    EnvLine.Reads line (.assignment key value)

/-- the first bad one of some lines has this error; the lines are counted from one -/
def FirstFails (lines : List String) (e : EnvFileError) : Prop :=
  ∃ before line after, lines = before ++ line :: after ∧ (∀ l ∈ before, EnvLine.IsProper l) ∧
    EnvLine.Reads line (.bad e.cause) ∧ e.line = before.length + 1

theorem findSome?_assigned? {lines : List String} {key value : String} :
    (lines.map EnvLine.ofText).findSome? (EnvLine.assigned? key) = some value ↔
      FirstAssigns lines key value := by
  rw [List.findSome?_map, List.findSome?_eq_some_iff]
  constructor
  · rintro ⟨before, line, after, heq, hline, hbefore⟩
    refine ⟨before, line, after, heq, fun l hl v hv => ?_, EnvLine.assigned?_ofText.mp hline⟩
    have hnone : (EnvLine.ofText l).assigned? key = none := hbefore l hl
    rw [EnvLine.assigned?_ofText.mpr hv] at hnone
    cases hnone
  · rintro ⟨before, line, after, heq, hbefore, hline⟩
    refine ⟨before, line, after, heq, EnvLine.assigned?_ofText.mpr hline, fun l hl => ?_⟩
    apply Option.eq_none_iff_forall_ne_some.mpr
    intro v hv
    exact hbefore l hl v (EnvLine.assigned?_ofText.mp hv)

theorem findSome?_assigned?_eq_none {lines : List String} {key : String} :
    (lines.map EnvLine.ofText).findSome? (EnvLine.assigned? key) = none ↔
      ∀ line ∈ lines, ∀ value, ¬ EnvLine.Reads line (.assignment key value) := by
  rw [List.findSome?_map, List.findSome?_eq_none_iff]
  refine forall₂_congr fun line _ => ?_
  rw [Option.eq_none_iff_forall_ne_some]
  exact forall_congr' fun value => not_congr EnvLine.assigned?_ofText

theorem FirstAssigns.unique {lines : List String} {key value value' : String}
    (h : FirstAssigns lines key value) (h' : FirstAssigns lines key value') : value = value' :=
  Option.some.inj ((findSome?_assigned?.mpr h).symm.trans (findSome?_assigned?.mpr h'))

theorem get?_add (env : Environment) (key value name : String) :
    (env.add key value).get? name =
      (env.get? name).or ((EnvLine.assignment key value).assigned? name) := by
  unfold add
  by_cases hname : key = name
  · subst hname
    cases hkey : env.get? key with
    | some v => simp [hkey]
    | none =>
      have hlookup : env.lookup key = none := hkey
      simp [get?, List.lookup_append, hlookup, EnvLine.assigned?]
  · have hlast : (EnvLine.assignment key value).assigned? name = none := if_neg hname
    rw [hlast, Option.or_none]
    split
    · rfl
    · have hne : (name == key) = false := by simpa using Ne.symm hname
      simp [get?, List.lookup_append, List.lookup_cons, hne]

/-- a proper line takes the run one step further, and keeps every variable -/
theorem exists_loadLines_cons {line : String} (h : EnvLine.IsProper line) (env : Environment) :
    ∃ next : Environment, (∀ number lines,
      env.loadLines number (line :: lines) = next.loadLines (number + 1) lines) ∧
      ∀ name value, env.get? name = some value → next.get? name = some value := by
  rcases h with h | ⟨key, value, h⟩
  · refine ⟨env, fun number lines => ?_, fun name value hvalue => hvalue⟩
    rw [loadLines, h.ofText_eq]
  · refine ⟨env.add key value, fun number lines => ?_, fun name v hv => ?_⟩
    · rw [loadLines, h.ofText_eq]
    · rw [get?_add, hv]
      rfl

theorem loadLines_cons_of_bad {line : String} {cause : LineError}
    (h : EnvLine.Reads line (.bad cause)) (env : Environment) (number : Nat) (lines : List String) :
    env.loadLines number (line :: lines) = (env, some ⟨number, cause⟩) := by
  rw [loadLines, h.ofText_eq]

/-- a run keeps every variable, also one that ends at a bad line -/
theorem get?_loadLines_of_some {env : Environment} {name value : String}
    (h : env.get? name = some value) (number : Nat) (lines : List String) :
    (env.loadLines number lines).1.get? name = some value := by
  induction lines generalizing env number with
  | nil => exact h
  | cons line lines ih =>
    rcases EnvLine.isProper_or_bad line with hproper | ⟨cause, hbad⟩
    · obtain ⟨next, hnext, hkeep⟩ := exists_loadLines_cons hproper env
      rw [hnext]
      exact ih (hkeep name value h) (number + 1)
    · rw [loadLines_cons_of_bad hbad]
      exact h

theorem loadLines_append {env : Environment} {number : Nat} {lines : List String}
    (h : (env.loadLines number lines).2 = none) (more : List String) :
    env.loadLines number (lines ++ more) =
      (env.loadLines number lines).1.loadLines (number + lines.length) more := by
  induction lines generalizing env number with
  | nil => rfl
  | cons line lines ih =>
    rcases EnvLine.isProper_or_bad line with hproper | ⟨cause, hbad⟩
    · obtain ⟨next, hnext, -⟩ := exists_loadLines_cons hproper env
      rw [hnext] at h ⊢
      rw [List.cons_append, hnext, ih h, List.length_cons, Nat.add_right_comm, Nat.add_assoc]
    · rw [loadLines_cons_of_bad hbad] at h
      cases h

theorem loadLines_eq_some {env : Environment} {number : Nat} {lines : List String}
    {e : EnvFileError} : (env.loadLines number lines).2 = some e ↔
      ∃ before line after, lines = before ++ line :: after ∧
        (∀ l ∈ before, EnvLine.IsProper l) ∧ EnvLine.Reads line (.bad e.cause) ∧
          e.line = before.length + number := by
  induction lines generalizing env number with
  | nil =>
    constructor
    · intro h
      cases h
    · rintro ⟨before, line, after, heq, -⟩
      cases before <;> cases heq
  | cons line lines ih =>
    rcases EnvLine.isProper_or_bad line with hproper | ⟨cause, hbad⟩
    · obtain ⟨next, hnext, -⟩ := exists_loadLines_cons hproper env
      rw [hnext, ih]
      constructor
      · rintro ⟨before, l, after, rfl, hbefore, hl, hline⟩
        refine ⟨line :: before, l, after, rfl, List.forall_mem_cons.mpr ⟨hproper, hbefore⟩, hl, ?_⟩
        rw [hline, List.length_cons]
        omega
      · rintro ⟨before, l, after, heq, hbefore, hl, hline⟩
        cases before with
        | nil =>
          cases heq
          exact absurd hl (hproper.not_bad e.cause)
        | cons first before =>
          cases heq
          refine ⟨before, l, after, rfl, (List.forall_mem_cons.mp hbefore).2, hl, ?_⟩
          rw [hline, List.length_cons]
          omega
    · rw [loadLines_cons_of_bad hbad]
      constructor
      · intro h
        cases h
        exact ⟨[], line, lines, rfl, List.forall_mem_nil _, hbad, (Nat.zero_add number).symm⟩
      · rintro ⟨before, l, after, heq, hbefore, hl, hline⟩
        cases before with
        | nil =>
          cases heq
          have hsame := hl.ofText_eq.symm.trans hbad.ofText_eq
          cases hsame
          rw [List.length_nil, Nat.zero_add] at hline
          rw [← hline]
        | cons first before =>
          cases heq
          exact absurd hbad ((List.forall_mem_cons.mp hbefore).1.not_bad cause)

theorem FirstFails.unique {lines : List String} {e e' : EnvFileError} (h : FirstFails lines e)
    (h' : FirstFails lines e') : e = e' :=
  Option.some.inj (((@loadLines_eq_some [] 1 lines e).mpr h).symm.trans
    (loadLines_eq_some.mpr h'))

theorem loadLines_eq_none {env : Environment} {number : Nat} {lines : List String} :
    (env.loadLines number lines).2 = none ↔ ∀ line ∈ lines, EnvLine.IsProper line := by
  induction lines generalizing env number with
  | nil => exact iff_of_true rfl (List.forall_mem_nil _)
  | cons line lines ih =>
    rw [List.forall_mem_cons]
    rcases EnvLine.isProper_or_bad line with hproper | ⟨cause, hbad⟩
    · obtain ⟨next, hnext, -⟩ := exists_loadLines_cons hproper env
      rw [hnext, ih]
      exact (and_iff_right hproper).symm
    · rw [loadLines_cons_of_bad hbad]
      exact iff_of_false (fun h => nomatch h) (fun h => h.1.not_bad cause hbad)

/-- after lines without a bad one, a variable holds its first assignment if it was not there -/
theorem get?_loadLines {env : Environment} {number : Nat} {lines : List String}
    (h : (env.loadLines number lines).2 = none) (name : String) :
    (env.loadLines number lines).1.get? name =
      (env.get? name).or ((lines.map EnvLine.ofText).findSome? (EnvLine.assigned? name)) := by
  induction lines generalizing env number with
  | nil => exact (Option.or_none).symm
  | cons line lines ih =>
    rw [loadLines] at h ⊢
    rw [List.map_cons, List.findSome?_cons]
    cases hline : EnvLine.ofText line with
    | ignored =>
      rw [hline] at h
      exact ih h
    | assignment key value =>
      -- a variable that is there already keeps its value, in `add` as in `or`
      rw [hline] at h
      refine (ih h).trans ?_
      rw [get?_add, Option.or_assoc]
      cases (EnvLine.assignment key value).assigned? name <;> rfl
    | bad cause =>
      rw [hline] at h
      cases h

end Environment

/-- the text of an error tells the line and what is wrong with it -/
theorem EnvFileError.message_inj {e e' : EnvFileError} (h : e.message = e'.message) : e = e' := by
  obtain ⟨m, cause⟩ := e
  obtain ⟨n, cause'⟩ := e'
  have hrest := (String.append_right_inj _).mp h
  cases cause with
  | noEquals =>
    cases cause' with
    | noEquals =>
      have hline := (String.append_right_inj _).mp ((String.append_left_inj _).mp hrest)
      obtain rfl : m = n := toString_nat_inj hline
      rfl
    | emptyKey =>
      have hfirst := congrArg (fun s => s.toList.head?) hrest
      simp [String.toList_append] at hfirst
  | emptyKey =>
    cases cause' with
    | noEquals =>
      have hfirst := congrArg (fun s => s.toList.head?) hrest
      simp [String.toList_append] at hfirst
    | emptyKey =>
      obtain rfl : m = n := toString_nat_inj ((String.append_right_inj _).mp hrest)
      rfl

/-! ## values between quotes -/

/-- a name of letters, digits and underscores -/
def IsIdentifier (s : String) : Prop := s ≠ "" ∧ s.toList.all isNameChar = true

theorem isBlank_of_isNameChar {c : Char} (h : isNameChar c = true) : Text.isBlank c = false := by
  have hrange : 48 ≤ c.val.toNat ∧ c.val.toNat ≤ 122 := toNat_of_isNameChar h
  simp only [Text.isBlank, Bool.or_eq_false_iff, Bool.and_eq_false_iff, decide_eq_false_iff_not,
    UInt32.le_iff_toNat_le, ← UInt32.toNat_inj, UInt32.reduceToNat]
  omega

/-- nothing is trimmed from a text that ends with a quote -/
theorem trims_quote {c : Char} (hc : Text.isBlank c = false) (cs : List Char) :
    Trims (c :: (cs ++ ['"'])) (c :: (cs ++ ['"'])) := by
  apply Trims.self
  · exact hc
  · rw [← List.cons_append, List.getLast?_concat]
    rfl

namespace IsIdentifier

section
variable {key : String} (h : IsIdentifier key)
include h

theorem isNameChar_of_mem {c : Char} (hc : c ∈ key.toList) : isNameChar c = true :=
  List.all_eq_true.mp h.2 c hc

theorem not_mem {c : Char} (hc : isNameChar c = false) : c ∉ key.toList := by
  intro hmem
  rw [h.isNameChar_of_mem hmem] at hc
  cases hc

theorem trims : Trims key.toList key.toList := by
  apply Trims.self
  · rw [Option.any_eq_false]
    intro c hc
    rw [isBlank_of_isNameChar (h.isNameChar_of_mem (List.mem_of_head? hc))]
  · rw [Option.any_eq_false]
    intro c hc
    rw [isBlank_of_isNameChar (h.isNameChar_of_mem (List.mem_of_getLast? hc))]

/-- no name has the blank behind `export` in it -/
theorem not_exported (more : List Char) : ¬ "export ".toList <+: key.toList ++ '=' :: more := by
  rintro ⟨body, hbody⟩
  rcases List.append_eq_append_iff.mp hbody with ⟨a, hkey, -⟩ | ⟨a, hexport, hmore⟩
  · exact h.not_mem (c := ' ') rfl (hkey ▸ List.mem_append_left a (by decide))
  · cases a with
    | nil =>
      rw [List.append_nil] at hexport
      exact h.not_mem (c := ' ') rfl (hexport ▸ (by decide : ' ' ∈ "export ".toList))
    | cons c a =>
      rw [List.cons_append, List.cons_eq_cons] at hmore
      have hmem : '=' ∈ "export ".toList := by
        rw [hexport, hmore.1]
        exact List.mem_append_right _ List.mem_cons_self
      exact absurd hmem (by decide)

/-- a value between double quotes is the one that is assigned -/
theorem reads_quoted (value : String) :
    EnvLine.Reads (key ++ "=\"" ++ value ++ "\"") (.assignment key value) := by
  have hchars : (key ++ "=\"" ++ value ++ "\"").toList =
      key.toList ++ '=' :: '"' :: (value.toList ++ ['"']) := by
    simp [String.toList_append]
  have hexport := h.not_exported ('"' :: (value.toList ++ ['"']))
  obtain ⟨c, cs, hcs⟩ := List.exists_cons_of_ne_nil (String.toList_eq_nil_iff.not.mpr h.1)
  have hc : isNameChar c = true := h.isNameChar_of_mem (hcs ▸ List.mem_cons_self)
  have hbody : EnvLine.Body (key ++ "=\"" ++ value ++ "\"")
      (key.toList ++ '=' :: '"' :: (value.toList ++ ['"'])) := by
    rw [hcs, List.cons_append] at hchars hexport ⊢
    refine .plain ?_ ?_ hexport
    · have htrims := trims_quote (isBlank_of_isNameChar hc) (cs ++ '=' :: '"' :: value.toList)
      rw [hchars]
      rwa [List.append_assoc] at htrims
    · rintro rfl
      cases hc
  exact .assignment hbody (h.not_mem rfl) h.trims h.1 (trims_quote rfl value.toList)
    (.quoted (.inl rfl))

end

end IsIdentifier

namespace Environment

/-- a variable that is not there yet gets the value between the quotes of its first line, whatever
follows that line -/
theorem get?_load_quoted {env : Environment} {before after key value : String}
    (hkey : IsIdentifier key) (hvalue : '\n' ∉ value.toList)
    (hbefore : Text.EndsWhole before.toList) (hafter : Text.ContinuesLine after.toList)
    (hproper : ∀ line ∈ Text.lines before, EnvLine.IsProper line) (hfree : env.get? key = none)
    (hfirst : ∀ line ∈ Text.lines before, ∀ v, ¬ EnvLine.Reads line (.assignment key v)) :
    (env.load (before ++ (key ++ "=\"" ++ value ++ "\"") ++ after)).1.get? key = some value := by
  have hchars : (key ++ "=\"" ++ value ++ "\"").toList =
      (key.toList ++ '=' :: '"' :: value.toList) ++ ['"'] := by
    simp [String.toList_append]
  have hfeed : '\n' ∉ (key ++ "=\"" ++ value ++ "\"").toList := by
    rw [hchars]
    simp [hkey.not_mem (c := '\n') rfl, hvalue]
  have hlast : (key ++ "=\"" ++ value ++ "\"").toList.getLast? = some '"' := by
    rw [hchars, List.getLast?_concat]
  obtain ⟨more, hlines⟩ := Text.exists_lines hbefore hfeed hlast (by decide) hafter
  have hread : (env.loadLines 1 (Text.lines before)).2 = none := loadLines_eq_none.mpr hproper
  have hnone : (env.loadLines 1 (Text.lines before)).1.get? key = none := by
    rw [get?_loadLines hread, hfree, findSome?_assigned?_eq_none.mpr hfirst]
    rfl
  unfold load
  rw [hlines, loadLines_append hread, loadLines, (hkey.reads_quoted value).ofText_eq]
  apply get?_loadLines_of_some
  rw [get?_add, hnone]
  exact if_pos rfl

end Environment

/-- **What an env file does.**  It is read as a whole exactly if each of its lines is passed over or assigns
a variable; otherwise the error is that of the first bad line, which its text tells.  Then a variable that
was there keeps its value and any other one has that of the first line that assigns it, if there is one.  A
value between double quotes is assigned as it is. -/
theorem Environment.load_lines (env : Environment) (content : String) :
    ((env.load content).2 = none ↔ ∀ line ∈ Text.lines content, EnvLine.IsProper line) ∧
    (∀ e, (env.load content).2 = some e ↔ FirstFails (Text.lines content) e) ∧
    (∀ e e' : EnvFileError, e.message = e'.message → e = e') ∧
    ((env.load content).2 = none → ∀ key,
      (∀ value, env.get? key = some value → (env.load content).1.get? key = some value) ∧
      (env.get? key = none →
        (∀ value, (env.load content).1.get? key = some value ↔
          FirstAssigns (Text.lines content) key value) ∧
        ((env.load content).1.get? key = none ↔
          ∀ line ∈ Text.lines content, ∀ value, ¬ EnvLine.Reads line (.assignment key value)))) ∧
    ∀ before key value after : String,
      content = before ++ (key ++ "=\"" ++ value ++ "\"") ++ after →
      Text.EndsWhole before.toList → Text.ContinuesLine after.toList → IsIdentifier key →
      '\n' ∉ value.toList → (∀ line ∈ Text.lines before, EnvLine.IsProper line) →
      env.get? key = none →
      (∀ line ∈ Text.lines before, ∀ v, ¬ EnvLine.Reads line (.assignment key v)) →
      (env.load content).1.get? key = some value := by
  refine ⟨loadLines_eq_none, fun e => loadLines_eq_some, fun e e' => EnvFileError.message_inj, ?_, ?_⟩
  · intro hread key
    have hget := get?_loadLines hread key
    refine ⟨fun value hvalue => get?_loadLines_of_some hvalue 1 _, fun hfree => ?_⟩
    rw [hfree, Option.none_or] at hget
    show (∀ value, (env.loadLines 1 (Text.lines content)).1.get? key = some value ↔ _) ∧
      ((env.loadLines 1 (Text.lines content)).1.get? key = none ↔ _)
    rw [hget]
    exact ⟨fun value => findSome?_assigned?, findSome?_assigned?_eq_none⟩
  · rintro before key value after rfl hbefore hafter hkey hvalue hproper hfree hfirst
    exact get?_load_quoted hkey hvalue hbefore hafter hproper hfree hfirst

/-- a comment, a variable that is there, two values for one that is not, and quotes inside quotes -/
theorem Environment.load_lines_mixed :
    load [("A", "0")] "# note\nexport A=2\r\nB=\" it's = \"so\" # \"\nB=late" =
        ([("A", "0"), ("B", " it's = \"so\" # ")], none) ∧
      (load [("A", "0")] "# note\nexport A=2\r\nB=\" it's = \"so\" # \"\nB=late").1.get? "B" =
        some " it's = \"so\" # " ∧
      (load [("A", "0")] "# note\nexport A=2\r\nB=\" it's = \"so\" # \"\nB=late").1.get? "A" =
        some "0" := by
  have hload : load [("A", "0")] "# note\nexport A=2\r\nB=\" it's = \"so\" # \"\nB=late" =
    ([("A", "0"), ("B", " it's = \"so\" # ")], none) := by decide +kernel
  have hbefore : (load [("A", "0")] "# note\nexport A=2\r\n").2 = none := by decide +kernel
  have hfree : (load [("A", "0")] "# note\nexport A=2\r\n").1.get? "B" = none := by decide +kernel
  obtain ⟨-, -, -, hkeep, hquoted⟩ := load_lines [("A", "0")]
    "# note\nexport A=2\r\nB=\" it's = \"so\" # \"\nB=late"
  obtain ⟨hproper, -, -, hvalues, -⟩ := load_lines [("A", "0")] "# note\nexport A=2\r\n"
  refine ⟨hload, ?_, ?_⟩
  · refine hquoted "# note\nexport A=2\r\n" "B" " it's = \"so\" # " "\nB=late" rfl
      (.inr ⟨"# note\nexport A=2\r".toList, rfl⟩) (.inr (.inl ⟨"B=late".toList, rfl⟩))
      ⟨by decide, by decide⟩ (by decide) (hproper.mp hbefore) rfl ?_
    exact ((hvalues hbefore "B").2 rfl).2.mp hfree
  · exact (hkeep (congrArg Prod.snd hload) "A").1 "0" rfl

end FilterSql
