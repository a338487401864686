import FilterSql.Proofs.Fragment
import FilterSql.Proofs.Name
import FilterSql.Sql.Column

/-!
# Brackets

What the bracket scan makes of texts put together from parts.  `Balanced` texts leave the scan as
they found it, and brackets around one make a single group (`isGroup_bracket`).  Placeholders have
no brackets, so a fragment is a single group in all styles or in none
(`Fragment.isSingleGroup_textFrom`).
-/

namespace FilterSql

/-- a text without brackets -/
def Bare (cs : List Char) : Prop := ∀ c ∈ cs, c ≠ '(' ∧ c ≠ ')'

theorem bare_of_all {cs : List Char} (h : cs.all (fun c => c ≠ '(' ∧ c ≠ ')') = true) : Bare cs :=
  fun c hc => of_decide_eq_true (List.all_eq_true.mp h c hc)

instance (cs : List Char) : Decidable (Bare cs) :=
  decidable_of_iff (cs.all (fun c => c ≠ '(' ∧ c ≠ ')') = true)
    ⟨bare_of_all, fun h => List.all_eq_true.mpr fun c hc => decide_eq_true (h c hc)⟩

theorem Bare.append {cs ds : List Char} (hc : Bare cs) (hd : Bare ds) : Bare (cs ++ ds) := by
  intro c h
  rcases List.mem_append.mp h with h | h
  · exact hc c h
  · exact hd c h

theorem Bare.closesAtEnd_append {cs : List Char} (h : Bare cs) (depth : Nat) (rest : List Char) :
    closesAtEnd depth (cs ++ rest) = closesAtEnd depth rest := by
  induction cs with
  | nil => rfl
  | cons c cs ih =>
    obtain ⟨hopen, hclose⟩ := h c List.mem_cons_self
    rw [List.cons_append, closesAtEnd, if_neg hopen, if_neg hclose]
    exact ih fun d hd => h d (List.mem_cons_of_mem c hd)

theorem bare_of_isNameChar {cs : List Char} (h : ∀ c ∈ cs, isNameChar c) : Bare cs := by
  intro c hc
  have hname := h c hc
  constructor <;> rintro rfl <;> exact absurd hname (by decide)

/-- names without brackets make a column without brackets -/
theorem Column.bare_text {c : Column} (hfield : Bare c.field.toList)
    (hcollection : ∀ s ∈ c.collection, Bare s.toList) : Bare c.text.toList := by
  obtain ⟨field, collection⟩ := c
  cases collection with
  | none => exact hfield
  | some s =>
    have hdot : Bare ".".toList := bare_of_all (by decide)
    show Bare (s ++ "." ++ field).toList
    rw [String.toList_append, String.toList_append]
    exact ((hcollection s rfl).append hdot).append hfield

theorem BindStyle.bare_placeholder (style : BindStyle) (n : Nat) (field : String) :
    Bare (style.placeholder n (paramName n field)).toList := by
  rw [style.toList_placeholder]
  intro c hc
  rcases List.mem_cons.mp hc with rfl | hc
  · cases style <;> decide
  · exact bare_of_isNameChar (fun _ => isNameChar_of_mem_body) c hc

/-- a text without brackets is not inside `LOWER(...)` yet -/
theorem lower_of_bare {s : String} (h : Bare s.toList) : lower s = "LOWER(" ++ s ++ ")" := by
  have hgroup : isGroup (s.toList.drop lowerWord.length) = false := by
    unfold isGroup
    cases hrest : s.toList.drop lowerWord.length with
    | nil => rfl
    | cons c cs =>
      have hc : c ∈ s.toList := List.mem_of_mem_drop (hrest ▸ List.mem_cons_self)
      simp [(h c hc).1]
  have hlowered : isLowered s.toList = false := by
    rw [isLowered, hgroup, Bool.and_false]
  rw [lower, hlowered]
  rfl

/-! ## balanced texts -/

/-- inside of brackets the scan passes over the text -/
def Balanced (cs : List Char) : Prop :=
  ∀ depth rest, closesAtEnd (depth + 1) (cs ++ rest) = closesAtEnd (depth + 1) rest

theorem Bare.balanced {cs : List Char} (h : Bare cs) : Balanced cs := fun depth rest =>
  h.closesAtEnd_append (depth + 1) rest

theorem Balanced.append {cs ds : List Char} (hc : Balanced cs) (hd : Balanced ds) :
    Balanced (cs ++ ds) := by
  intro depth rest
  rw [List.append_assoc, hc, hd]

theorem Balanced.bracket {cs : List Char} (h : Balanced cs) : Balanced ('(' :: (cs ++ [')'])) := by
  intro depth rest
  have hopen : closesAtEnd (depth + 1) ('(' :: (cs ++ [')']) ++ rest) =
      closesAtEnd (depth + 1 + 1) (cs ++ (')' :: rest)) := by
    rw [List.cons_append, closesAtEnd, if_pos rfl, List.append_assoc]
    rfl
  rw [hopen, h, closesAtEnd, if_neg (by decide), if_pos rfl, if_neg (by omega)]
  rfl

theorem isGroup_bracket {cs : List Char} (h : Balanced cs) : isGroup ('(' :: (cs ++ [')'])) := by
  have hscan : closesAtEnd 0 ('(' :: (cs ++ [')'])) = closesAtEnd 1 (cs ++ [')']) := by
    rw [closesAtEnd, if_pos rfl]
  have hlast : ('(' :: (cs ++ [')'])).getLast? = some ')' := by
    rw [← List.cons_append, List.getLast?_concat]
  simp only [isGroup, hscan, h 0 [')'], hlast]
  rfl

/-! ## the style does not matter -/

/-- texts that the bracket scan cannot tell apart -/
structure ScansAs (a b : List Char) : Prop where
  empty : a = [] ↔ b = []
  first : a.head? = some '(' ↔ b.head? = some '('
  last : a.getLast? = some ')' ↔ b.getLast? = some ')'
  scan : ∀ depth, closesAtEnd depth a = closesAtEnd depth b

namespace ScansAs

theorem refl (a : List Char) : ScansAs a a := ⟨.rfl, .rfl, .rfl, fun _ => rfl⟩

theorem isGroup_eq {a b : List Char} (h : ScansAs a b) : isGroup a = isGroup b := by
  unfold isGroup
  rw [h.scan, decide_eq_decide.mpr h.first, decide_eq_decide.mpr h.last]

theorem cons {a b : List Char} (h : ScansAs a b) (c : Char) : ScansAs (c :: a) (c :: b) where
  empty := by simp
  first := .rfl
  last := by
    rw [List.getLast?_cons, List.getLast?_cons]
    cases a with
    | nil => rw [h.empty.mp rfl]
    | cons x a =>
      cases b with
      | nil => exact absurd (h.empty.mpr rfl) (by simp)
      | cons y b => simpa [List.getLast?_cons] using h.last
  scan depth := by
    have hnil : a.isEmpty = b.isEmpty := by
      rw [Bool.eq_iff_iff, List.isEmpty_iff, List.isEmpty_iff, h.empty]
    simp only [closesAtEnd, h.scan, hnil]

theorem append {a b : List Char} (h : ScansAs a b) (cs : List Char) :
    ScansAs (cs ++ a) (cs ++ b) := by
  induction cs with
  | nil => exact h
  | cons c cs ih => exact ih.cons c

/-- texts without brackets may stand for one another, if neither is empty -/
theorem replace {a b p q : List Char} (h : ScansAs a b) (hp : Bare p) (hq : Bare q) (hp' : p ≠ [])
    (hq' : q ≠ []) : ScansAs (p ++ a) (q ++ b) where
  empty := by simp [hp', hq']
  first := by
    obtain ⟨c, p, rfl⟩ := List.exists_cons_of_ne_nil hp'
    obtain ⟨d, q, rfl⟩ := List.exists_cons_of_ne_nil hq'
    have hc := (hp c List.mem_cons_self).1
    have hd := (hq d List.mem_cons_self).1
    simp [hc, hd]
  last := by
    have hlast : ∀ {r : List Char}, Bare r → r.getLast? ≠ some ')' := fun hr hget =>
      (hr ')' (List.mem_of_getLast? hget)).2 rfl
    rw [List.getLast?_append, List.getLast?_append]
    cases ha : a.getLast? with
    | none =>
      have hb : b.getLast? = none := by
        rw [List.getLast?_eq_none_iff] at ha ⊢
        exact h.empty.mp ha
      simp [hb, hlast hp, hlast hq]
    | some x =>
      have hb : b ≠ [] := fun hnil => by simp [h.empty.mpr hnil] at ha
      obtain ⟨y, hy⟩ := Option.ne_none_iff_exists'.mp (mt List.getLast?_eq_none_iff.mp hb)
      have hxy := h.last
      rw [ha, hy] at hxy
      simpa [hy] using hxy
  scan depth := by rw [hp.closesAtEnd_append, hq.closesAtEnd_append, h.scan]

end ScansAs

theorem Fragment.scansAs (style style' : BindStyle) (next next' : Nat) (f : Fragment) :
    ScansAs (textFrom style next f).toList (textFrom style' next' f).toList := by
  induction f generalizing next next' with
  | nil => exact .refl _
  | cons piece f ih =>
    cases piece with
    | text s =>
      simp only [textFrom, String.toList_append]
      exact (ih next next').append s.toList
    | hole field value =>
      simp only [textFrom, String.toList_append]
      refine (ih (next + 1) (next' + 1)).replace (style.bare_placeholder next field)
        (style'.bare_placeholder next' field) ?_ ?_
      · simp [BindStyle.toList_placeholder]
      · simp [BindStyle.toList_placeholder]

theorem Fragment.isSingleGroup_textFrom (style : BindStyle) (next : Nat) (f : Fragment) :
    FilterSql.isSingleGroup (textFrom style next f) = f.isSingleGroup :=
  (scansAs style .question next 1 f).isGroup_eq

end FilterSql
