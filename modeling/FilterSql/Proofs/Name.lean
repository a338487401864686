import FilterSql.Sql.BindStyle

/-!
# Names of parameters

A parameter name is an underscore, a number, an underscore and a sanitized field.  It has name
characters only, and the number can be read off it, whatever the field (`paramName_inj`).
-/

namespace FilterSql

theorem isNameChar_of_isDigit {c : Char} (h : c.isDigit) : isNameChar c := by
  simp [isNameChar, Char.isAlphanum, h]

/-- name characters are ASCII -/
theorem toNat_of_isNameChar {c : Char} (h : isNameChar c = true) :
    48 ≤ c.toNat ∧ c.toNat ≤ 122 := by
  unfold isNameChar Char.isAlphanum Char.isAlpha Char.isUpper Char.isLower Char.isDigit at h
  simp only [Bool.or_eq_true, Bool.and_eq_true, decide_eq_true_eq, ge_iff_le,
    UInt32.le_iff_toNat_le] at h
  rcases h with h | rfl
  · simp only [Char.reduceVal, UInt32.reduceToNat] at h
    have hval : c.val.toNat = c.toNat := rfl
    omega
  · decide

theorem isNameChar_of_mem_sanitize {c : Char} {field : String} (h : c ∈ (sanitize field).toList) :
    isNameChar c := by
  rw [sanitize, String.toList_ofList] at h
  obtain ⟨d, -, rfl⟩ := List.mem_map.mp h
  split
  · assumption
  · rfl

theorem isNameChar_of_mem_digits {c : Char} {n : Nat} (h : c ∈ Nat.toDigits 10 n) :
    isNameChar c :=
  isNameChar_of_isDigit (Nat.isDigit_of_mem_toDigits (by decide) (by decide) h)

theorem toList_paramName (n : Nat) (field : String) : (paramName n field).toList =
    '_' :: (Nat.toDigits 10 n ++ '_' :: (sanitize field).toList) := by
  simp [paramName, String.toList_append]

theorem isNameChar_of_mem_paramName {c : Char} {n : Nat} {field : String}
    (h : c ∈ (paramName n field).toList) : isNameChar c := by
  rw [toList_paramName] at h
  rcases List.mem_cons.mp h with rfl | h
  · rfl
  rcases List.mem_append.mp h with h | h
  · exact isNameChar_of_mem_digits h
  rcases List.mem_cons.mp h with rfl | h
  · rfl
  · exact isNameChar_of_mem_sanitize h

/-! ## placeholders -/

/-- what a placeholder has behind its sign -/
def BindStyle.body (style : BindStyle) (n : Nat) (name : String) : List Char :=
  match style with
  | .question => []
  | .dollar => Nat.toDigits 10 n
  | .colon => name.toList
  | .at => name.toList

def BindStyle.signChar : BindStyle → Char
  | .question => '?'
  | .dollar => '$'
  | .colon => ':'
  | .at => '@'

theorem BindStyle.toList_placeholder (style : BindStyle) (n : Nat) (name : String) :
    (style.placeholder n name).toList = style.signChar :: style.body n name := by
  cases style <;> simp [placeholder, signChar, body]

theorem BindStyle.isNameChar_of_mem_body {style : BindStyle} {c : Char} {n : Nat} {field : String}
    (h : c ∈ style.body n (paramName n field)) : isNameChar c := by
  cases style with
  | question => cases h
  | dollar => exact isNameChar_of_mem_digits h
  | _ => exact isNameChar_of_mem_paramName h

/-! ## numbers in texts -/

theorem toDigits_inj {m n : Nat} (h : Nat.toDigits 10 m = Nat.toDigits 10 n) : m = n := by
  have hvalue := congrArg (Nat.ofDigitChars 10 · 0) h
  simpa [Nat.ofDigitChars_ten_toDigits] using hvalue

theorem toString_nat_inj {m n : Nat} (h : toString m = toString n) : m = n := by
  rw [Nat.toString_eq_ofList_toDigits, Nat.toString_eq_ofList_toDigits] at h
  exact toDigits_inj (String.ofList_injective h)

/-- the digits of a number end at the first underscore -/
theorem takeWhile_digits (n : Nat) (rest : List Char) :
    (Nat.toDigits 10 n ++ '_' :: rest).takeWhile Char.isDigit = Nat.toDigits 10 n := by
  rw [List.takeWhile_append_of_pos]
  · simp
  · intro c h
    exact Nat.isDigit_of_mem_toDigits (by decide) (by decide) h

/-- names of parameters with different numbers differ, whatever their fields -/
theorem paramName_inj {m n : Nat} {field field' : String}
    (h : paramName m field = paramName n field') : m = n := by
  have hlist := congrArg String.toList h
  rw [toList_paramName, toList_paramName, List.cons_eq_cons] at hlist
  have hdigits := congrArg (List.takeWhile Char.isDigit) hlist.2
  rw [takeWhile_digits, takeWhile_digits] at hdigits
  exact toDigits_inj hdigits

end FilterSql
