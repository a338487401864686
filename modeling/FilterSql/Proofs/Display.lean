import Mathlib.Tactic.SplitIfs
import FilterSql.Proofs.Name
import FilterSql.Proofs.Printing
import FilterSql.Query

/-!
# How values are shown

The text that people see of a value has printable characters only (`Value.isPrintable_of_mem_display`),
so no value breaks a line.  A quoted text is read back character by character (`unquoteChar?_quoteChar`),
and values of one type that show no calendar, no float and no identifier are told apart by their texts
(`Value.eq_of_display_eq`).  The text of an identifier is read back as well (`Uuid.ofText?_text`).
-/

namespace FilterSql

/-! ## quoted texts -/

namespace Text

/-- the character that a backslash stands for with what is behind it, and the rest -/
def unescape? : List Char → Option (Char × List Char)
  | '"' :: cs => some ('"', cs)
  | '\\' :: cs => some ('\\', cs)
  | 't' :: cs => some ('\t', cs)
  | 'n' :: cs => some ('\n', cs)
  | 'r' :: cs => some ('\r', cs)
  | '0' :: cs => some ('\x00', cs)
  | 'u' :: '{' :: cs =>
    (hexNumber? (cs.takeWhile (· ≠ '}'))).map fun n =>
      (Char.ofNat n, (cs.dropWhile (· ≠ '}')).tail)
  | _ => none

/-- the first character of a text inside quotes, and the rest -/
def unquoteChar? : List Char → Option (Char × List Char)
  | [] => none
  | c :: cs => if c = '\\' then unescape? cs else some (c, cs)

theorem hexNumber?_hexNumber (n : Nat) : hexNumber? (hexNumber n) = some n := by
  unfold hexNumber
  induction n using Nat.strongRecOn with
  | ind n ih =>
    rw [Nat.toDigits_eq_if (by decide)]
    split
    · rename_i h
      exact (hexNumber?_concat [] h).trans (by simp [hexNumber?])
    · rename_i h
      rw [hexNumber?_concat _ (Nat.mod_lt n (by decide)),
        ih _ (Nat.div_lt_self (by omega) (by decide))]
      exact congrArg some (Nat.div_add_mod n 16)

theorem exists_digitChar_of_mem_hexNumber {c : Char} {n : Nat} (h : c ∈ hexNumber n) :
    ∃ d < 16, c = Nat.digitChar d := by
  unfold hexNumber at h
  induction n using Nat.strongRecOn with
  | ind n ih =>
    rw [Nat.toDigits_eq_if (by decide)] at h
    split at h
    · rename_i hn
      exact ⟨n, hn, List.mem_singleton.mp h⟩
    · rename_i hn
      rcases List.mem_append.mp h with h | h
      · exact ih _ (Nat.div_lt_self (by omega) (by decide)) h
      · exact ⟨n % 16, Nat.mod_lt n (by decide), List.mem_singleton.mp h⟩

theorem exists_digitChar_of_mem_hexDigits {c : Char} {count value : Nat}
    (h : c ∈ hexDigits count value) : ∃ d < 16, c = Nat.digitChar d := by
  induction count generalizing value with
  | zero => cases h
  | succ count ih =>
    rcases List.mem_append.mp h with h | h
    · exact ih h
    · exact ⟨value % 16, Nat.mod_lt value (by decide), List.mem_singleton.mp h⟩

/-- a number in braces ends at the first brace that closes -/
theorem unescape?_hexNumber (c : Char) (rest : List Char) :
    unescape? ('u' :: '{' :: (hexNumber c.toNat ++ '}' :: rest)) = some (c, rest) := by
  have hdigits : ∀ d ∈ hexNumber c.toNat, decide (d ≠ '}') = true := by
    intro d hd
    obtain ⟨n, hn, rfl⟩ := exists_digitChar_of_mem_hexNumber hd
    exact (by decide : ∀ n < 16, decide (Nat.digitChar n ≠ '}') = true) n hn
  have htake : (hexNumber c.toNat ++ '}' :: rest).takeWhile (· ≠ '}') = hexNumber c.toNat := by
    rw [List.takeWhile_append_of_pos hdigits]
    simp
  have hdrop : (hexNumber c.toNat ++ '}' :: rest).dropWhile (· ≠ '}') = '}' :: rest := by
    rw [List.dropWhile_append_of_pos hdigits]
    simp
  rw [unescape?, htake, hdrop, hexNumber?_hexNumber]
  simp

/-- a quoted character is read back, whatever follows -/
theorem unquoteChar?_quoteChar (c : Char) (rest : List Char) :
    unquoteChar? (quoteChar c ++ rest) = some (c, rest) := by
  unfold quoteChar
  split_ifs with hquote hbackslash htab hfeed hreturn hnul
  · rw [hquote]
    rfl
  · rw [hbackslash]
    rfl
  · rw [htab]
    rfl
  · rw [hfeed]
    rfl
  · rw [hreturn]
    rfl
  · rw [hnul]
    rfl
  · exact if_neg hbackslash
  · show unescape? ('u' :: '{' :: (hexNumber c.toNat ++ ['}']) ++ rest) = _
    rw [List.cons_append, List.cons_append, List.append_assoc]
    exact unescape?_hexNumber c rest

theorem quoteChar_ne_nil (c : Char) : quoteChar c ≠ [] := by
  intro h
  have hread := unquoteChar?_quoteChar c []
  rw [h] at hread
  cases hread

theorem flatMap_quoteChar_inj {cs ds : List Char}
    (h : cs.flatMap quoteChar = ds.flatMap quoteChar) : cs = ds := by
  induction cs generalizing ds with
  | nil =>
    cases ds with
    | nil => rfl
    | cons d ds => exact absurd (List.append_eq_nil_iff.mp h.symm).1 (quoteChar_ne_nil d)
  | cons c cs ih =>
    cases ds with
    | nil => exact absurd (List.append_eq_nil_iff.mp h).1 (quoteChar_ne_nil c)
    | cons d ds =>
      have hread := congrArg unquoteChar? h
      rw [List.flatMap_cons, List.flatMap_cons, unquoteChar?_quoteChar, unquoteChar?_quoteChar,
        Option.some.injEq, Prod.mk.injEq] at hread
      rw [hread.1, ih hread.2]

/-- different texts stay different between quotes -/
theorem quoted_inj {s t : String} (h : quoted s = quoted t) : s = t := by
  have hchars : quotedChars s.toList = quotedChars t.toList := String.ofList_injective h
  have hbody := List.append_cancel_right (List.cons.inj hchars).2
  exact String.toList_inj.mp (flatMap_quoteChar_inj hbody)

/-! ## printable characters -/

/-- a character of ASCII that leaves a mark -/
def isVisible (c : Char) : Bool := 33 ≤ c.toNat && c.toNat ≤ 126

theorem isPrintable_of_isVisible {c : Char} (h : isVisible c = true) : isPrintable c = true := by
  -- the table as a list: the kernel is slow at going over an array
  have htable : unprintable.toList.all (fun r => r.2 < 33 || 126 < r.1) = true := by
    decide +kernel
  rw [isPrintable, Bool.not_eq_true', ← Array.any_toList, List.any_eq_false]
  intro r hr
  have hrange := List.all_eq_true.mp htable r hr
  simp [isVisible] at h hrange ⊢
  omega

theorem isPrintable_lineFeed : isPrintable '\n' = false := by
  rw [isPrintable, ← Array.any_toList]
  decide +kernel

theorem isVisible_digitChar : ∀ d < 16, isVisible (Nat.digitChar d) = true := by decide

theorem isVisible_of_mem_hexNumber {c : Char} {n : Nat} (h : c ∈ hexNumber n) :
    isVisible c = true := by
  obtain ⟨d, hd, rfl⟩ := exists_digitChar_of_mem_hexNumber h
  exact isVisible_digitChar d hd

/-- a character is quoted as itself or as characters that leave a mark -/
theorem quoteChar_printable (c : Char) :
    (quoteChar c).all isVisible = true ∨ (quoteChar c = [c] ∧ isPrintable c = true) := by
  unfold quoteChar
  split_ifs with hquote hbackslash htab hfeed hreturn hnul hprintable
  · exact .inl rfl
  · exact .inl rfl
  · exact .inl rfl
  · exact .inl rfl
  · exact .inl rfl
  · exact .inl rfl
  · exact .inr ⟨rfl, hprintable⟩
  · refine .inl (List.all_eq_true.mpr fun d hd => ?_)
    simp only [List.cons_append, List.mem_cons, List.mem_append, List.not_mem_nil, or_false] at hd
    rcases hd with rfl | rfl | rfl | hd | rfl
    · rfl
    · rfl
    · rfl
    · exact isVisible_of_mem_hexNumber hd
    · rfl

theorem isPrintable_of_mem_quoted {c : Char} {s : String} (h : c ∈ (quoted s).toList) :
    isPrintable c = true := by
  unfold quoted quotedChars at h
  rw [String.toList_ofList, List.cons_append, List.mem_cons, List.mem_append, List.mem_singleton,
    List.mem_flatMap] at h
  rcases h with rfl | ⟨d, -, hd⟩ | rfl
  · exact isPrintable_of_isVisible rfl
  · rcases quoteChar_printable d with hall | ⟨hself, hprintable⟩
    · exact isPrintable_of_isVisible (List.all_eq_true.mp hall c hd)
    · rw [hself, List.mem_singleton] at hd
      rw [hd]
      exact hprintable
  · exact isPrintable_of_isVisible rfl

def Visible (s : String) : Prop := s.toList.all isVisible = true

instance (s : String) : Decidable (Visible s) := inferInstanceAs (Decidable (_ = true))

@[simp] theorem visible_append {s t : String} : Visible (s ++ t) ↔ Visible s ∧ Visible t := by
  rw [Visible, String.toList_append, List.all_append, Bool.and_eq_true]
  rfl

theorem visible_ofList {cs : List Char} :
    Visible (String.ofList cs) ↔ ∀ c ∈ cs, isVisible c = true := by
  rw [Visible, String.toList_ofList, List.all_eq_true]

theorem isVisible_of_isDigit {c : Char} (h : c.isDigit = true) : isVisible c = true := by
  have hrange : 48 ≤ c.toNat ∧ c.toNat ≤ 57 := by
    simpa [Char.isDigit, UInt32.le_iff_toNat_le] using h
  simp [isVisible]
  omega

theorem isVisible_of_mem_toDigits {c : Char} {n : Nat} (h : c ∈ Nat.toDigits 10 n) :
    isVisible c = true :=
  isVisible_of_isDigit (Nat.isDigit_of_mem_toDigits (by decide) (by decide) h)

/-! ## texts of values -/

@[simp] theorem visible_toString_nat (n : Nat) : Visible (toString n) := by
  rw [Nat.toString_eq_ofList_toDigits]
  exact visible_ofList.mpr fun _ => isVisible_of_mem_toDigits

@[simp] theorem visible_toString_int (n : Int) : Visible (toString n) := by
  have hdigits : (Nat.toDigits 10 n.natAbs).all isVisible = true :=
    List.all_eq_true.mpr fun _ => isVisible_of_mem_toDigits
  rw [Visible, Json.toList_toString_int]
  split
  · rw [List.all_cons, hdigits]
    rfl
  · exact hdigits

@[simp] theorem visible_padded (width n : Nat) : Visible (padded width n) := by
  refine visible_ofList.mpr fun c hc => ?_
  rcases List.mem_append.mp hc with hc | hc
  · rw [List.eq_of_mem_replicate hc]
    rfl
  · exact isVisible_of_mem_toDigits hc

@[simp] theorem visible_yearText (y : Int) : Visible (yearText y) := by
  unfold yearText
  split_ifs <;> simp +decide

@[simp] theorem visible_dateText (d : Date) : Visible d.text := by simp +decide [Date.text]

@[simp] theorem visible_fractionText (nanos : Nat) : Visible (fractionText nanos) := by
  unfold fractionText
  split_ifs <;> simp +decide

@[simp] theorem visible_timestampText (t : Timestamp) : Visible t.text := by
  simp +decide [Timestamp.text]

@[simp] theorem visible_uuidText (u : Uuid) : Visible u.text := by
  have hgroup : ∀ skip count, ∀ c ∈ ((hexDigits 32 u.bits.toNat).drop skip).take count,
      isVisible c = true := by
    intro skip count c hc
    have hmem : c ∈ hexDigits 32 u.bits.toNat := List.mem_of_mem_drop (List.mem_of_mem_take hc)
    obtain ⟨d, hd, rfl⟩ := exists_digitChar_of_mem_hexDigits hmem
    exact isVisible_digitChar d hd
  refine visible_ofList.mpr ?_
  simp only [Uuid.hyphenated, List.forall_mem_append, List.forall_mem_cons]
  exact ⟨⟨⟨⟨hgroup 0 8, rfl, hgroup 8 4⟩, rfl, hgroup 12 4⟩, rfl, hgroup 16 4⟩, rfl, hgroup 20 12⟩

theorem visible_pointed {digits : List Char} (hdigits : ∀ c ∈ digits, isVisible c = true)
    (whole : Int) : Visible (Decimal.pointed .plain digits whole) := by
  have hzeros : ∀ n, ∀ c ∈ List.replicate n '0', isVisible c = true := by
    intro n c hc
    rw [List.eq_of_mem_replicate hc]
    rfl
  unfold Decimal.pointed
  split_ifs
  · refine visible_append.mpr ⟨by decide, visible_ofList.mpr ?_⟩
    exact List.forall_mem_append.mpr ⟨hzeros _, hdigits⟩
  · refine visible_append.mpr ⟨visible_ofList.mpr ?_, by decide⟩
    exact List.forall_mem_append.mpr ⟨hdigits, hzeros _⟩
  · simp only [visible_append, visible_ofList]
    exact ⟨⟨fun c hc => hdigits c (List.mem_of_mem_take hc), by decide⟩,
      fun c hc => hdigits c (List.mem_of_mem_drop hc)⟩

theorem mem_of_mem_dropZeros {c : Char} {digits : List Char}
    (h : c ∈ (Decimal.dropZeros digits).1) : c ∈ digits := by
  have hmem := (List.dropWhile_sublist _).subset (List.mem_reverse.mp h)
  exact List.mem_reverse.mp hmem

@[simp] theorem visible_float (x : Float) : Visible (Decimal.Style.plain.write x) := by
  have hmagnitude : Visible (Decimal.Style.plain.magnitude x) := by
    unfold Decimal.Style.magnitude
    split_ifs
    · decide
    · decide
    · exact visible_pointed (fun c hc => isVisible_of_mem_toDigits (mem_of_mem_dropZeros hc)) _
  unfold Decimal.Style.write
  split_ifs
  · decide
  · exact visible_append.mpr ⟨by decide, hmagnitude⟩
  · exact hmagnitude

end Text

namespace Value

open Text

/-- strings apart, what is shown of a value leaves a mark everywhere -/
theorem visible_display {v : Value} (h : v.isTextual = false) : Visible v.display := by
  cases v with
  | string s => cases h
  | bytes bs =>
    refine visible_append.mpr ⟨by decide, visible_ofList.mpr fun c hc => ?_⟩
    obtain ⟨b, -, hc⟩ := List.mem_flatMap.mp hc
    obtain ⟨d, hd, rfl⟩ := exists_digitChar_of_mem_hexDigits hc
    exact isVisible_digitChar d hd
  | null => decide
  | boolean b => cases b <;> decide
  | int n => exact visible_toString_int _
  | uint n => exact visible_toString_nat _
  | float x => exact visible_float x
  | uuid u => exact visible_uuidText u
  | date d => exact visible_dateText d
  | timestamp t => exact visible_timestampText t

/-- what is shown of a value is printable, whatever the value holds -/
theorem isPrintable_of_mem_display {v : Value} {c : Char} (h : c ∈ v.display.toList) :
    isPrintable c = true := by
  cases v with
  | string s => exact isPrintable_of_mem_quoted h
  | _ => exact isPrintable_of_isVisible (List.all_eq_true.mp (visible_display rfl) c h)

theorem isLower_of_mem_typeName {v : Value} {c : Char} (h : c ∈ v.typeName.toList) :
    c.isLower = true := by
  obtain ⟨names, hmem, hlower⟩ : ∃ names : List String, v.typeName ∈ names ∧
      (names.all fun name => name.toList.all Char.isLower) = true :=
    ⟨["int", "uint", "float", "string", "boolean", "uuid", "bytes", "date", "timestamp", "null"],
      by cases v <;> simp [typeName], by decide⟩
  exact List.all_eq_true.mp (List.all_eq_true.mp hlower _ hmem) c h

/-! ## values told apart -/

/-- the types of which what is shown tells the value -/
def isShown : Value → Bool
  | .int _ | .uint _ | .boolean _ | .string _ | .bytes _ | .null => true
  | _ => false

theorem toString_int_inj {m n : Int} (h : toString m = toString n) : m = n := by
  have hsign : ∀ a b : Nat, '-' :: Nat.toDigits 10 a ≠ Nat.toDigits 10 b := by
    intro a b heq
    have hminus : '-' ∈ Nat.toDigits 10 b := heq ▸ List.mem_cons_self
    exact absurd (Nat.isDigit_of_mem_toDigits (by decide) (by decide) hminus) (by decide)
  have hlist := congrArg String.toList h
  rw [Json.toList_toString_int, Json.toList_toString_int] at hlist
  by_cases hm : m < 0 <;> by_cases hn : n < 0
  · rw [if_pos hm, if_pos hn, List.cons_inj_right] at hlist
    have habs := toDigits_inj hlist
    omega
  · rw [if_pos hm, if_neg hn] at hlist
    exact absurd hlist (hsign _ _)
  · rw [if_neg hm, if_pos hn] at hlist
    exact absurd hlist.symm (hsign _ _)
  · rw [if_neg hm, if_neg hn] at hlist
    have habs := toDigits_inj hlist
    omega

theorem flatMap_hexDigits_inj {bs cs : List UInt8}
    (h : (bs.flatMap fun b => hexDigits 2 b.toNat) = cs.flatMap fun b => hexDigits 2 b.toNat) :
    bs = cs := by
  induction bs generalizing cs with
  | nil =>
    cases cs with
    | nil => rfl
    | cons c cs => cases h
  | cons b bs ih =>
    cases cs with
    | nil => cases h
    | cons c cs =>
      rw [List.flatMap_cons, List.flatMap_cons] at h
      obtain ⟨hbyte, hrest⟩ := List.append_inj h (by rw [length_hexDigits, length_hexDigits])
      have hread := congrArg hexNumber? hbyte
      rw [hexNumber?_hexDigits b.toNat_lt_size, hexNumber?_hexDigits c.toNat_lt_size,
        Option.some.injEq] at hread
      rw [UInt8.toNat_inj.mp hread, ih hrest]

/-- of these types the type and what is shown tell the value -/
theorem eq_of_display_eq {v w : Value} (hv : v.isShown = true) (htype : v.typeName = w.typeName)
    (h : v.display = w.display) : v = w := by
  cases v with
  | int n =>
    obtain ⟨m, rfl⟩ : ∃ m, w = .int m := by
      cases w <;> first | exact ⟨_, rfl⟩ | simp [typeName] at htype
    rw [Int64.toInt_inj.mp (toString_int_inj h)]
  | uint n =>
    obtain ⟨m, rfl⟩ : ∃ m, w = .uint m := by
      cases w <;> first | exact ⟨_, rfl⟩ | simp [typeName] at htype
    rw [UInt64.toNat_inj.mp (toString_nat_inj h)]
  | boolean a =>
    obtain ⟨b, rfl⟩ : ∃ b, w = .boolean b := by
      cases w <;> first | exact ⟨_, rfl⟩ | simp [typeName] at htype
    cases a <;> cases b <;> first | rfl | exact absurd h (by decide)
  | string s =>
    obtain ⟨t, rfl⟩ : ∃ t, w = .string t := by
      cases w <;> first | exact ⟨_, rfl⟩ | simp [typeName] at htype
    rw [quoted_inj h]
  | bytes bs =>
    obtain ⟨cs, rfl⟩ : ∃ cs, w = .bytes cs := by
      cases w <;> first | exact ⟨_, rfl⟩ | simp [typeName] at htype
    have hdigits := (String.append_right_inj _).mp h
    rw [flatMap_hexDigits_inj (String.ofList_injective hdigits)]
  | null => cases w <;> first | rfl | simp [typeName] at htype
  | float x => cases hv
  | uuid u => cases hv
  | date d => cases hv
  | timestamp t => cases hv

end Value

namespace Uuid

open Text

theorem filter_hyphenated {digits : List Char} (hlength : digits.length = 32) (h : '-' ∉ digits) :
    (hyphenated digits).filter (· ≠ '-') = digits := by
  have hgroup : ∀ skip count, ((digits.drop skip).take count).filter (· ≠ '-') =
      (digits.drop skip).take count := by
    intro skip count
    refine List.filter_eq_self.mpr fun c hc => decide_eq_true ?_
    rintro rfl
    exact h (List.mem_of_mem_drop (List.mem_of_mem_take hc))
  have hsplit : ∀ skip count, (digits.drop skip).take count ++ digits.drop (skip + count) =
      digits.drop skip := by
    intro skip count
    rw [← List.drop_drop, List.take_append_drop]
  have hlast : (digits.drop 20).take 12 = digits.drop 20 :=
    List.take_of_length_le (by rw [List.length_drop]; omega)
  have hhyphen : decide ('-' ≠ '-') = false := rfl
  simp only [hyphenated, List.filter_append, List.filter_cons, hgroup, hhyphen,
    Bool.false_eq_true, if_false, List.append_assoc]
  calc _ = (digits.drop 0).take 8 ++ ((digits.drop 8).take 4 ++ ((digits.drop 12).take 4 ++
        ((digits.drop 16).take 4 ++ digits.drop (16 + 4)))) := by rw [hlast]
    _ = (digits.drop 0).take 8 ++ ((digits.drop 8).take 4 ++ ((digits.drop 12).take 4 ++
        digits.drop (12 + 4))) := by rw [hsplit 16 4]
    _ = (digits.drop 0).take 8 ++ ((digits.drop 8).take 4 ++ digits.drop (8 + 4)) := by
      rw [hsplit 12 4]
    _ = (digits.drop 0).take 8 ++ digits.drop (0 + 8) := by rw [hsplit 8 4]
    _ = digits := by rw [hsplit 0 8, List.drop_zero]

/-- the text of a uuid is read back -/
theorem ofText?_text (u : Uuid) : ofText? u.text = some u := by
  have hlength := length_hexDigits 32 u.bits.toNat
  have hhyphen : '-' ∉ hexDigits 32 u.bits.toNat := by
    intro hmem
    obtain ⟨d, hd, heq⟩ := exists_digitChar_of_mem_hexDigits hmem
    exact absurd heq.symm ((by decide : ∀ d < 16, Nat.digitChar d ≠ '-') d hd)
  have hnumber : hexNumber? (hexDigits 32 u.bits.toNat) = some u.bits.toNat :=
    hexNumber?_hexDigits u.bits.isLt
  rw [ofText?, text, String.toList_ofList, filter_hyphenated hlength hhyphen, hnumber,
    if_pos ⟨hlength, .inr rfl⟩, Option.map_some, BitVec.ofNat_toNat, BitVec.setWidth_eq]

theorem text_inj {u v : Uuid} (h : u.text = v.text) : u = v :=
  Option.some.inj ((ofText?_text u).symm.trans ((congrArg ofText? h).trans (ofText?_text v)))

end Uuid

end FilterSql
