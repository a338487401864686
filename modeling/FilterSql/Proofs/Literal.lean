import FilterSql.Json.Basic
import FilterSql.Json.Token

/-!
# Reading literals back

The token of a written whole number is that number, if it has at most 64 bits and what follows does not
go on with the numeral (`numberToken_natural`, `numberToken_negative`); the token of a written string is
that string, whatever follows (`stringToken_quote`).
-/

namespace FilterSql

/-! ## hexadecimal digits -/

theorem Text.hexValue?_digitChar : ∀ d < 16, Text.hexValue? (Nat.digitChar d) = some d := by
  decide

/-- a digit behind others -/
theorem Text.hexNumber?_concat (cs : List Char) {d : Nat} (h : d < 16) :
    Text.hexNumber? (cs ++ [Nat.digitChar d]) = (Text.hexNumber? cs).map (16 * · + d) := by
  rw [Text.hexNumber?, List.foldlM_append]
  cases hcs : Text.hexNumber? cs with
  | none =>
    rw [Text.hexNumber?] at hcs
    rw [hcs]
    rfl
  | some n =>
    rw [Text.hexNumber?] at hcs
    rw [hcs]
    simp [Text.hexValue?_digitChar d h]

theorem Text.hexNumber?_hexDigits {count value : Nat} (h : value < Nat.pow 16 count) :
    Text.hexNumber? (Text.hexDigits count value) = some value := by
  induction count generalizing value with
  | zero =>
    have hzero : value = 0 := Nat.lt_one_iff.mp h
    rw [hzero]
    rfl
  | succ count ih =>
    have hleading : value / 16 < Nat.pow 16 count := Nat.div_lt_of_lt_mul (by
      rw [Nat.mul_comm]; exact h)
    rw [Text.hexDigits, Text.hexNumber?_concat _ (Nat.mod_lt value (by decide)), ih hleading]
    exact congrArg some (Nat.div_add_mod value 16)

namespace Json

/-! ## whole numbers -/

theorem digit?_of_isDigit {c : Char} (h : c.isDigit = true) :
    digit? c = some (c.toNat - '0'.toNat) := by
  have hrange : '0' ≤ c ∧ c ≤ '9' := by simpa [Char.isDigit, Char.le_def] using h
  rw [digit?, if_pos hrange]

/-- the text does not go on with a digit, a point or an exponent -/
def EndsNumeral (rest : List Char) : Prop :=
  ∀ c ∈ rest.head?, digit? c = none ∧ c ≠ '.' ∧ c ≠ 'e' ∧ c ≠ 'E'

theorem EndsNumeral.digits_eq {rest : List Char} (h : EndsNumeral rest) :
    digits rest = ([], rest) := by
  cases rest with
  | nil => rfl
  | cons c rest => rw [digits, (h c rfl).1]

theorem scanFraction_of_ne {cs : List Char} (h : ∀ t, cs ≠ '.' :: t) :
    scanFraction cs = .ok (none, cs) := by
  unfold scanFraction
  split
  · exact absurd rfl (h _)
  · rfl

theorem EndsNumeral.scanFraction_eq {rest : List Char} (h : EndsNumeral rest) :
    scanFraction rest = .ok (none, rest) := by
  refine scanFraction_of_ne fun t heq => ?_
  subst heq
  exact (h '.' rfl).2.1 rfl

theorem EndsNumeral.scanExponent_eq {rest : List Char} (h : EndsNumeral rest) :
    scanExponent rest = .ok (none, rest) := by
  cases rest with
  | nil => rfl
  | cons c cs => rw [scanExponent, if_neg (not_or.mpr (h c rfl).2.2)]

theorem digits_append {ds rest : List Char} (hds : ∀ c ∈ ds, c.isDigit = true)
    (hrest : EndsNumeral rest) :
    digits (ds ++ rest) = (ds.map fun c => c.toNat - '0'.toNat, rest) := by
  induction ds with
  | nil => exact hrest.digits_eq
  | cons c ds ih =>
    obtain ⟨hc, hds⟩ := List.forall_mem_cons.mp hds
    rw [List.cons_append, digits, digit?_of_isDigit hc, ih hds]
    rfl

def decimalDigits (n : Nat) : List Nat := (Nat.toDigits 10 n).map fun c => c.toNat - '0'.toNat

theorem ofDigits_decimalDigits (n : Nat) : ofDigits (decimalDigits n) = n := by
  rw [ofDigits, decimalDigits, List.foldl_map, ← Nat.ofDigitChars_eq_foldl,
    Nat.ofDigitChars_ten_toDigits]

/-- only zero is written with a leading zero -/
theorem eq_zero_of_toDigits {n : Nat} {cs : List Char} (h : Nat.toDigits 10 n = '0' :: cs) :
    n = 0 := by
  induction n using Nat.strongRecOn generalizing cs with
  | ind n ih =>
    rw [Nat.toDigits_eq_if (by decide)] at h
    by_cases hn : n < 10
    · have hzero : ∀ d < 10, Nat.digitChar d = '0' → d = 0 := by decide
      rw [if_pos hn] at h
      exact hzero n hn (List.cons_eq_cons.mp h).1
    · -- the leading digit is that of `n / 10`, which is not zero
      rw [if_neg hn] at h
      obtain ⟨c, ds, hds⟩ := List.exists_cons_of_ne_nil (Nat.toDigits_ne_nil (n := n / 10) (b := 10))
      rw [hds, List.cons_append, List.cons_eq_cons] at h
      have htens : n / 10 = 0 := ih (n / 10) (by omega) (hds.trans (by rw [h.1]))
      omega

section
variable (n : Nat) {rest : List Char} (hrest : EndsNumeral rest)
include hrest

theorem scanWhole_toDigits : scanWhole (Nat.toDigits 10 n ++ rest) = .ok (decimalDigits n, rest) := by
  have hdigit : ∀ c ∈ Nat.toDigits 10 n, c.isDigit = true := fun c hc =>
    Nat.isDigit_of_mem_toDigits (by decide) (by decide) hc
  have hscan := digits_append hdigit hrest
  obtain ⟨c, cs, hcs⟩ := List.exists_cons_of_ne_nil (Nat.toDigits_ne_nil (n := n) (b := 10))
  have hsome : someDigits (Nat.toDigits 10 n ++ rest) = .ok (decimalDigits n, rest) := by
    rw [someDigits, hscan, decimalDigits, hcs]
    rfl
  unfold scanWhole
  rw [hsome]
  split
  · -- several digits, the first of them zero
    rename_i d ds rest' heq
    have hmap := congrArg Prod.fst (Except.ok.inj heq)
    rw [decimalDigits, hcs, List.map_cons, List.cons_eq_cons] at hmap
    have hc : '0' ≤ c := by
      have h := hdigit c (hcs ▸ List.mem_cons_self)
      simp only [Char.isDigit, Bool.and_eq_true, decide_eq_true_eq] at h
      exact h.1
    have hzero : c = '0' := Char.le_antisymm (Nat.le_of_sub_eq_zero hmap.1) hc
    have hn : n = 0 := eq_zero_of_toDigits (hcs.trans (by rw [hzero]))
    rw [hn, Nat.toDigits_zero, List.cons_eq_cons] at hcs
    rw [← hcs.2] at hmap
    cases hmap.2
  · rfl

theorem Numeral.scan_toDigits (negative : Bool) :
    Numeral.scan negative (Nat.toDigits 10 n ++ rest) =
      .ok (⟨negative, decimalDigits n, none, none⟩, rest) := by
  rw [Numeral.scan, scanWhole_toDigits n hrest]
  show (scanFraction rest >>= _) = _
  rw [hrest.scanFraction_eq]
  show (scanExponent rest >>= _) = _
  rw [hrest.scanExponent_eq]
  rfl

theorem numberToken_natural (h : n < UInt64.size) :
    numberToken false (Nat.toDigits 10 n ++ rest) = (.number (some (.int n)), rest) := by
  rw [numberToken, Numeral.scan_toDigits n hrest]
  simp [Numeral.value?, ofDigits_decimalDigits, h]

theorem numberToken_negative (hpos : 0 < n) (h : Int64.minValue.toInt ≤ -n) :
    numberToken true (Nat.toDigits 10 n ++ rest) = (.number (some (.int (-n))), rest) := by
  rw [numberToken, Numeral.scan_toDigits n hrest]
  have hvalue : Numeral.value? ⟨true, decimalDigits n, none, none⟩ = some (.int (-n)) := by
    simp only [Numeral.value?, ofDigits_decimalDigits, Option.isSome_none, Bool.or_self,
      Bool.false_eq_true, if_false, Bool.not_true]
    exact if_pos ⟨hpos, h⟩
  exact congrArg (fun v => (Token.number v, rest)) hvalue

end

theorem ne_of_isDigit {c d : Char} (h : c.isDigit = true) (hd : d.isDigit = false) : c ≠ d := by
  rintro rfl
  rw [hd] at h
  cases h

theorem isSpace_of_isDigit {c : Char} (h : c.isDigit = true) : isSpace c = false := by
  simp [isSpace, ne_of_isDigit h]

/-- a character that is a digit starts a numeral -/
theorem token_of_isDigit {c : Char} (h : c.isDigit = true) (cs : List Char) :
    token c cs = numberToken false (c :: cs) := by
  have hne : ∀ d : Char, d.isDigit = false → c ≠ d := fun d => ne_of_isDigit h
  have hdigit : (digit? c).isSome = true := by rw [digit?_of_isDigit h]; rfl
  unfold token
  rw [if_neg (hne '[' rfl), if_neg (hne ']' rfl), if_neg (hne '{' rfl), if_neg (hne '}' rfl),
    if_neg (hne ',' rfl), if_neg (hne ':' rfl), if_neg (hne '"' rfl), if_neg (hne 'n' rfl),
    if_neg (hne 't' rfl), if_neg (hne 'f' rfl), if_neg (hne '-' rfl), if_pos hdigit]

/-- whole numbers of at most 64 bits -/
def IsWhole (n : Int) : Prop := Int64.minValue.toInt ≤ n ∧ n < UInt64.size

instance (n : Int) : Decidable (IsWhole n) := inferInstanceAs (Decidable (_ ∧ _))

theorem isWhole_natCast {n : Nat} (h : n < UInt64.size) : IsWhole n :=
  ⟨Int.le_trans (by decide) (Int.natCast_nonneg n), Int.ofNat_lt.mpr h⟩

theorem toList_toString_int (n : Int) : (toString n).toList =
    if n < 0 then '-' :: Nat.toDigits 10 n.natAbs else Nat.toDigits 10 n.natAbs := by
  cases n with
  | ofNat m => simp [toString, Int.repr, Nat.repr_eq_ofList_toDigits]
  | negSucc m => simp [toString, Int.repr, Nat.repr_eq_ofList_toDigits]

/-! ## strings -/

/-- what a character of a string becomes in a literal: a control character without a short escape is
written by its number -/
def StringUnit.ofChar (c : Char) : StringUnit :=
  if c.toNat < 0x20 ∧ c ∉ ['\x08', '\t', '\n', '\x0c', '\r'] then .code c.toNat else .char c

theorem scanString_code {ds : List Char} (hlength : ds.length = 4) {n : Nat}
    (h : Text.hexNumber? ds = some n) (cs : List Char) :
    scanString ('\\' :: 'u' :: (ds ++ cs)) = (scanString cs).push (.code n) := by
  match ds, hlength with
  | [a, b, c, d], _ =>
    rw [List.cons_append, List.cons_append, List.cons_append, List.cons_append, List.nil_append,
      scanString, h]

theorem scanString_char {c : Char} (hquote : c ≠ '"') (hslash : c ≠ '\\') (hlow : ¬ c.toNat < 0x20)
    (cs : List Char) : scanString (c :: cs) = (scanString cs).push (.char c) := by
  rw [scanString, if_neg hlow]
  · exact hquote
  · exact fun h _ => hslash h
  · exact fun _ _ _ _ _ h _ => hslash h
  · exact fun _ _ h _ => hslash h

/-- a literal is scanned unit by unit -/
theorem scanString_escape (c : Char) (cs : List Char) :
    scanString (escape c ++ cs) = (scanString cs).push (.ofChar c) := by
  by_cases hshort : c ∈ ['"', '\\', '\x08', '\t', '\n', '\x0c', '\r']
  · simp only [List.mem_cons, List.not_mem_nil, or_false] at hshort
    rcases hshort with rfl | rfl | rfl | rfl | rfl | rfl | rfl <;> rfl
  · simp only [List.mem_cons, List.not_mem_nil, or_false, not_or] at hshort
    have hescape : escape c =
        if c.toNat < 0x20 then '\\' :: 'u' :: Text.hexDigits 4 c.toNat else [c] := by
      simp only [escape, hshort, if_false]
    rw [hescape]
    by_cases hlow : c.toNat < 0x20
    · have hhex : Text.hexNumber? (Text.hexDigits 4 c.toNat) = some c.toNat :=
        Text.hexNumber?_hexDigits (Nat.lt_of_lt_of_le hlow (by decide))
      have hunit : StringUnit.ofChar c = .code c.toNat := by
        simp [StringUnit.ofChar, hshort, hlow]
      rw [if_pos hlow, hunit]
      exact scanString_code (Text.length_hexDigits 4 c.toNat) hhex cs
    · have hunit : StringUnit.ofChar c = .char c := by
        simp [StringUnit.ofChar, hlow]
      rw [if_neg hlow, hunit]
      exact scanString_char hshort.1 hshort.2.1 hlow cs

theorem scanString_flatMap (s rest : List Char) :
    scanString (s.flatMap escape ++ '"' :: rest) = ⟨s.map .ofChar, none, rest⟩ := by
  induction s with
  | nil => rfl
  | cons c s ih =>
    rw [List.flatMap_cons, List.append_assoc, scanString_escape, ih]
    rfl

/-- no control character is half of a pair, so the units join to the characters they come from -/
theorem join_ofChar (s : List Char) : join none (s.map .ofChar) = .ok s := by
  induction s with
  | nil => rfl
  | cons c s ih =>
    rw [List.map_cons, StringUnit.ofChar]
    split
    · rename_i hcode
      have htrail : isTrail c.toNat = false := by
        simp [isTrail]
        omega
      have hlead : isLead c.toNat = false := by
        simp [isLead]
        omega
      unfold join
      simp [htrail, hlead, ih, Except.map]
    · simp [join, ih, Except.map]

/-- a written string is read back, whatever stands behind it -/
theorem stringToken_quote (s : String) (rest : List Char) :
    stringToken (s.toList.flatMap escape ++ '"' :: rest) = (.string (some s), rest) := by
  simp [stringToken, scanString_flatMap, join_ofChar]

end Json

end FilterSql
