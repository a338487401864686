import FilterSql.Proofs.Parameter
import FilterSql.Proofs.Placeholder
import FilterSql.Proofs.Reader

/-!
# Fragments as tokens

A fragment `Spells` tokens if its text is read as these tokens in every style, wherever it stands and
whatever parameters are around it, as long as no name character follows.  A `Separator` is a text
that is read as its tokens whatever follows it, and may follow any fragment; joins and brackets spell
by it (`Spells.join`, `Spells.bracket`).
-/

namespace FilterSql

/-! ## cutting texts -/

/-- a text does not go on with a word if no name character comes next -/
theorem lexemes_ne_word {cs : List Char} (h : Stops cs) (w : List Char) (ls : List Lexeme) :
    lexemes cs ≠ .word w :: ls := by
  cases cs with
  | nil => exact fun hnil => by cases hnil
  | cons c cs =>
    show Lexeme.push c (lexemes cs) ≠ _
    rw [Lexeme.push, if_neg (h c rfl)]
    unfold Lexeme.pushSign
    split <;> exact fun heq => by cases heq

theorem lexemes_word {w rest : List Char} (hne : w ≠ []) (hw : ∀ c ∈ w, isNameChar c)
    (hrest : Stops rest) : lexemes (w ++ rest) = .word w :: lexemes rest := by
  induction w with
  | nil => exact absurd rfl hne
  | cons c w ih =>
    show Lexeme.push c (lexemes (w ++ rest)) = _
    rw [Lexeme.push, if_pos (hw c List.mem_cons_self)]
    cases w with
    | nil =>
      have hnone := lexemes_ne_word hrest
      rw [List.nil_append]
      unfold Lexeme.pushName
      split
      · rename_i heq
        exact absurd heq (hnone _ _)
      · rfl
    | cons d w =>
      rw [ih (List.cons_ne_nil d w) fun e he => hw e (List.mem_cons_of_mem c he)]
      rfl

theorem BindStyle.body_ne_nil {style : BindStyle} (h : style ≠ .question) (n : Nat)
    (field : String) : style.body n (paramName n field) ≠ [] := by
  have hname : (paramName n field).toList ≠ [] := by
    rw [toList_paramName]
    exact List.cons_ne_nil _ _
  cases style with
  | question => exact absurd rfl h
  | dollar => exact Nat.toDigits_ne_nil
  | _ => exact hname

theorem lexemes_placeholder (style : BindStyle) (n : Nat) (field : String) {rest : List Char}
    (hrest : Stops rest) : lexemes ((style.placeholder n (paramName n field)).toList ++ rest) =
      .mark style.signChar (style.body n (paramName n field)) :: lexemes rest := by
  rw [style.toList_placeholder, List.cons_append]
  show Lexeme.push style.signChar (lexemes (style.body n (paramName n field) ++ rest)) = _
  by_cases hstyle : style = .question
  · subst hstyle
    rfl
  · rw [lexemes_word (BindStyle.body_ne_nil hstyle n field)
      (fun _ => BindStyle.isNameChar_of_mem_body) hrest]
    cases style with
    | question => exact absurd rfl hstyle
    | _ => rfl

/-! ## the values of marks -/

/-- the mark of a value that is bound under number `n` for a field is the value, in every style -/
def Resolves (params : List Param) (n : Nat) (field : String) (value : Value) : Prop :=
  ∀ style : BindStyle,
    Param.ofMark? params n style.signChar (style.body n (paramName n field)) = some value

/-- the marks of values, the first one bound under number `next`, are the values -/
def Provides (params : List Param) (next : Nat) : List (String × Value) → Prop
  | [] => True
  | (field, value) :: bs => Resolves params next field value ∧ Provides params (next + 1) bs

theorem provides_append {params : List Param} {next : Nat} {bs cs : List (String × Value)}
    (h : Provides params next (bs ++ cs)) :
    Provides params next bs ∧ Provides params (next + bs.length) cs := by
  induction bs generalizing next with
  | nil => exact ⟨trivial, h⟩
  | cons b bs ih =>
    obtain ⟨hfirst, hrest⟩ := h
    have hboth := ih hrest
    rw [Nat.add_assoc, Nat.add_comm 1] at hboth
    exact ⟨⟨hfirst, hboth.1⟩, hboth.2⟩

/-- a mark finds the parameter of its number, whether it is read by place, number or name -/
theorem resolves_of_eq_append {params before after : List Param} {field : String} {value : Value}
    (hnodup : (params.map Param.name).Nodup)
    (h : params = before ++ ⟨paramName (before.length + 1) field, value⟩ :: after) :
    Resolves params (before.length + 1) field value := by
  have hget : params[before.length]? = some ⟨paramName (before.length + 1) field, value⟩ := by
    rw [h, List.getElem?_append_right (Nat.le_refl _), Nat.sub_self]
    rfl
  have hfind : Param.find? params (paramName (before.length + 1) field) = some value := by
    refine Param.find?_of_mem (p := ⟨paramName (before.length + 1) field, value⟩) hnodup ?_
    rw [h]
    exact List.mem_append_right before List.mem_cons_self
  intro style
  cases style with
  | question =>
    show (params[before.length + 1 - 1]?).map Param.value = _
    rw [Nat.add_sub_cancel, hget]
    rfl
  | dollar =>
    have hdigits : (Nat.toDigits 10 (before.length + 1)).all Char.isDigit = true :=
      List.all_eq_true.mpr fun _ => Nat.isDigit_of_mem_toDigits (by decide) (by decide)
    have hnumber : Nat.ofDigitChars 10 (Nat.toDigits 10 (before.length + 1)) 0 =
        before.length + 1 := Nat.ofDigitChars_ten_toDigits
    simp only [BindStyle.signChar, BindStyle.body, Param.ofMark?, hdigits, hnumber, hget]
    rfl
  | _ =>
    show Param.find? params (String.ofList (paramName _ field).toList) = _
    rw [String.ofList_toList, hfind]

theorem provides_number {params before : List Param} {bs : List (String × Value)}
    (hnodup : (params.map Param.name).Nodup)
    (h : params = before ++ Param.number (before.length + 1) bs) :
    Provides params (before.length + 1) bs := by
  induction bs generalizing before with
  | nil => trivial
  | cons b bs ih =>
    have hnext : (before ++ [(⟨paramName (before.length + 1) b.1, b.2⟩ : Param)]).length =
        before.length + 1 := List.length_append
    refine ⟨resolves_of_eq_append hnodup h, ?_⟩
    have hrest := @ih (before ++ [⟨paramName (before.length + 1) b.1, b.2⟩])
    rw [hnext] at hrest
    refine hrest ?_
    rw [h, List.append_assoc]
    rfl

/-! ## reading tokens -/

/-- the tokens of a text whose first mark has the number `next` -/
def scan (params : List Param) (next : Nat) (cs : List Char) : Option (List Token) :=
  tokens? params next (lexemes cs)

section
variable {params : List Param} {next : Nat} {rest : List Char} {ts : List Token}

theorem scan_word {w : List Char} (hne : w ≠ []) (hw : ∀ c ∈ w, isNameChar c) (hrest : Stops rest)
    (h : scan params next rest = some ts) :
    scan params next (w ++ rest) = some (.ofWord w :: ts) := by
  rw [scan, lexemes_word hne hw hrest, tokens?]
  rw [scan] at h
  rw [h]
  rfl

theorem scan_placeholder {field : String} {value : Value} (style : BindStyle)
    (hvalue : Resolves params next field value) (hrest : Stops rest)
    (h : scan params (next + 1) rest = some ts) :
    scan params next ((style.placeholder next (paramName next field)).toList ++ rest) =
      some (.value value :: ts) := by
  rw [scan, lexemes_placeholder style next field hrest, tokens?, hvalue style]
  rw [scan] at h
  show (tokens? params (next + 1) (lexemes rest)).map _ = _
  rw [h]
  rfl

end

/-! ## separators -/

/-- a text that is read as these tokens, whatever follows -/
def ReadsAs (s : String) (ts : List Token) : Prop :=
  ∀ params next rest us, scan params next rest = some us →
    scan params next (s.toList ++ rest) = some (ts ++ us)

/-- a text that is read as these tokens, whatever stands around it -/
structure Separator (s : String) (ts : List Token) : Prop where
  stops : ∃ c cs, s.toList = c :: cs ∧ ¬ isNameChar c
  reads : ReadsAs s ts

theorem readsAs_of_map {s : String} {t : Token} (h : ∀ params next rest,
    scan params next (s.toList ++ rest) = (scan params next rest).map (t :: ·)) :
    ReadsAs s [t] := by
  intro params next rest us hrest
  rw [h, hrest]
  rfl

theorem readsAs_of_map_map {s : String} {t u : Token} (h : ∀ params next rest,
    scan params next (s.toList ++ rest) = ((scan params next rest).map (u :: ·)).map (t :: ·)) :
    ReadsAs s [t, u] := by
  intro params next rest us hrest
  rw [h, hrest]
  rfl

theorem separator_and : Separator " AND " [.keyword .and] :=
  ⟨⟨' ', _, rfl, by decide⟩, readsAs_of_map fun _ _ _ => rfl⟩

theorem separator_or : Separator " OR " [.keyword .or] :=
  ⟨⟨' ', _, rfl, by decide⟩, readsAs_of_map fun _ _ _ => rfl⟩

theorem separator_comma : Separator ", " [.comma] :=
  ⟨⟨',', _, rfl, by decide⟩, readsAs_of_map fun _ _ _ => rfl⟩

theorem separator_open : Separator "(" [.open] :=
  ⟨⟨'(', _, rfl, by decide⟩, readsAs_of_map fun _ _ _ => rfl⟩

theorem separator_close : Separator ")" [.close] :=
  ⟨⟨')', _, rfl, by decide⟩, readsAs_of_map fun _ _ _ => rfl⟩

theorem readsAs_not : ReadsAs "NOT " [.keyword .not] := readsAs_of_map fun _ _ _ => rfl

theorem readsAs_lower : ReadsAs "LOWER(" [.keyword .lower, .open] :=
  readsAs_of_map_map fun _ _ _ => rfl

/-! ## fragments -/

/-- the text of the fragment is read as these tokens, in every style, with its values provided -/
def Spells (F : Fragment) (ts : List Token) : Prop :=
  ∀ (style : BindStyle) (params : List Param) (next : Nat) (rest : List Char) (us : List Token),
    Provides params next F.bindings → Stops rest →
      scan params (next + F.bindings.length) rest = some us →
        scan params next ((F.textFrom style next).toList ++ rest) = some (ts ++ us)

theorem spells_nil : Spells [] [] := fun _ _ _ _ _ _ _ h => h

theorem spells_hole (field : String) (value : Value) : Spells [.hole field value] [.value value] := by
  intro style params next rest us hvalues hrest h
  have htext : Fragment.textFrom style next [.hole field value] =
      style.placeholder next (paramName next field) := String.append_empty
  rw [htext]
  exact scan_placeholder style hvalues.1 hrest h

def Token.join (separator : Token) : List (List Token) → List Token
  | [] => []
  | [ts] => ts
  | ts :: us :: tss => ts ++ separator :: join separator (us :: tss)

namespace Spells

variable {F G : Fragment} {s : String} {ts us vs : List Token}

theorem text_cons (hs : ReadsAs s ts) (hF : Spells F us) : Spells (.text s :: F) (ts ++ us) := by
  intro style params next rest vs hvalues hrest h
  rw [Fragment.textFrom, String.toList_append, List.append_assoc, List.append_assoc]
  exact hs _ _ _ _ (hF style params next rest vs hvalues hrest h)

theorem append_text (hF : Spells F ts) (hs : Separator s us) (hG : Spells G vs) :
    Spells (F ++ .text s :: G) (ts ++ (us ++ vs)) := by
  intro style params next rest ws hvalues hrest h
  rw [Fragment.bindings_append] at hvalues h
  obtain ⟨hvaluesF, hvaluesG⟩ := provides_append hvalues
  rw [List.length_append, ← Nat.add_assoc] at h
  have hbehind := text_cons hs.reads hG style params _ rest ws hvaluesG hrest h
  have hstops : Stops ((Fragment.textFrom style (next + F.bindings.length) (.text s :: G)).toList ++
      rest) := by
    obtain ⟨c, cs, hcs, hc⟩ := hs.stops
    rw [Fragment.textFrom, String.toList_append, hcs]
    exact stops_cons hc
  rw [Fragment.textFrom_append, String.toList_append, List.append_assoc, List.append_assoc]
  exact hF style params next _ _ hvaluesF hstops hbehind

theorem bracket (hF : Spells F ts) : Spells F.bracket (.open :: (ts ++ [.close])) :=
  text_cons separator_open.reads (append_text hF separator_close spells_nil)

theorem join {t : Token} (hs : Separator s [t]) {fs : List Fragment} {tss : List (List Token)}
    (h : List.Forall₂ Spells fs tss) : Spells (Fragment.join s fs) (Token.join t tss) := by
  induction h with
  | nil => exact spells_nil
  | cons hfirst hrest ih =>
    cases hrest with
    | nil => exact hfirst
    | cons _ _ => exact append_text hfirst hs ih

end Spells

end FilterSql
