import FilterSql.Proofs.Lowering

/-!
# The counter of the bracket scan

`isSingleGroup?` is the bracket scan with bytes for positions and with a counter that cannot hold less
than zero: it gives nothing where the counter would have to.  Behind the opening bracket that a text
starts with, the counter is positive at every step (`scanBytes_eq`), so the scan always gives an answer,
and it is that of `isSingleGroup`.  What this answer is, in numbers of brackets, is `OneGroup`.
-/

namespace FilterSql

/-! ## the scan on bytes -/

def oneLess? : Nat → Option Nat
  | 0 => none
  | n + 1 => some n

/-- scans from the byte `position` on with `depth` brackets open, and tells whether the last of them is
closed by the last of `size` bytes; nothing if a bracket is closed while none is open -/
def scanBytes (size position depth : Nat) : List Char → Option Bool
  | [] => some false
  | c :: cs =>
    if c = '(' then scanBytes size (position + c.utf8Size) (depth + 1) cs
    else if c = ')' then do
      let depth ← oneLess? depth
      if depth = 0 then return position = size - 1
      else scanBytes size (position + c.utf8Size) depth cs
    else scanBytes size (position + c.utf8Size) depth cs

/-- one group in brackets; nothing if the counter of open brackets would fall below zero -/
def isSingleGroup? (s : String) : Option Bool :=
  if s.toList.head? = some '(' ∧ s.toList.getLast? = some ')' then
    scanBytes s.utf8ByteSize 0 0 s.toList
  else some false

/-- the bytes of a text are those of its first character and of the others -/
theorem utf8ByteSize_ofList_cons (c : Char) (cs : List Char) :
    (String.ofList (c :: cs)).utf8ByteSize = c.utf8Size + (String.ofList cs).utf8ByteSize := by
  rw [String.ofList_cons, String.utf8ByteSize_append, String.utf8ByteSize_singleton]

/-- with a bracket open the counter does not fall below zero, and a closing bracket is the last byte
exactly if it is the last character -/
theorem scanBytes_eq {size position depth : Nat} {cs : List Char}
    (h : size = position + (String.ofList cs).utf8ByteSize) :
    scanBytes size position (depth + 1) cs = some (closesAtEnd (depth + 1) cs) := by
  induction cs generalizing position depth with
  | nil => rfl
  | cons c cs ih =>
    rw [utf8ByteSize_ofList_cons, ← Nat.add_assoc] at h
    rw [scanBytes, closesAtEnd]
    by_cases hopen : c = '('
    · rw [if_pos hopen, if_pos hopen, ih h]
    · by_cases hclose : c = ')'
      · rw [if_neg hopen, if_neg hopen, if_pos hclose, if_pos hclose]
        cases depth with
        | zero =>
          have hbyte : c.utf8Size = 1 := by
            rw [hclose]
            rfl
          have hnil : (String.ofList cs).utf8ByteSize = 0 ↔ cs.isEmpty = true := by simp
          have hlast : position = size - 1 ↔ cs.isEmpty = true := by
            rw [← hnil]
            omega
          exact congrArg some (Bool.eq_iff_iff.mpr (decide_eq_true_iff.trans hlast))
        | succ depth =>
          rw [if_neg (by omega)]
          exact ih h
      · rw [if_neg hopen, if_neg hopen, if_neg hclose, if_neg hclose, ih h]

/-- the guard leaves texts only that open a bracket first -/
theorem isSingleGroup?_eq (s : String) : isSingleGroup? s = some (isSingleGroup s) := by
  unfold isSingleGroup? isSingleGroup isGroup
  by_cases hends : s.toList.head? = some '(' ∧ s.toList.getLast? = some ')'
  · obtain ⟨cs, hcs⟩ := List.head?_eq_some_iff.mp hends.1
    have hsize : s.utf8ByteSize = 1 + (String.ofList cs).utf8ByteSize := by
      rw [← String.ofList_toList (s := s), hcs]
      exact utf8ByteSize_ofList_cons '(' cs
    have hscan : scanBytes s.utf8ByteSize 0 0 s.toList = some (closesAtEnd 0 s.toList) := by
      rw [hcs]
      exact scanBytes_eq hsize
    rw [if_pos hends, hscan, decide_eq_true hends.1, decide_eq_true hends.2]
    rfl
  · have hguard : (decide (s.toList.head? = some '(') && decide (s.toList.getLast? = some ')')) =
        false := by simpa using hends
    rw [if_neg hends, hguard, Bool.false_and]

/-! ## the answer -/

/-- the first character opens a bracket and the last one closes one; before it some bracket is always
open, and with it none -/
structure OneGroup (cs : List Char) : Prop where
  head : cs.head? = some '('
  last : cs.getLast? = some ')'
  before : ∀ p, p <+: cs → p ≠ [] → p ≠ cs → closed p < opened p
  total : opened cs = closed cs

theorem isGroup_iff {cs : List Char} : isGroup cs = true ↔ OneGroup cs := by
  by_cases hhead : cs.head? = some '('
  · obtain ⟨cs, rfl⟩ := List.head?_eq_some_iff.mp hhead
    have hgroup : isGroup ('(' :: cs) = true ↔
        ('(' :: cs).getLast? = some ')' ∧ ClosesAll 1 cs := by
      rw [← closesAtEnd_iff, isGroup, closesAtEnd, if_pos rfl]
      simp
    rw [hgroup]
    constructor
    · rintro ⟨hlast, htotal, hbefore⟩
      refine ⟨rfl, hlast, fun p hp hnil hne => ?_, by simp; omega⟩
      obtain ⟨q, rfl, hq⟩ := (List.prefix_cons_iff.mp hp).resolve_left hnil
      have hlt := hbefore q hq fun heq => hne (by rw [heq])
      simp
      omega
    · rintro ⟨-, hlast, hbefore, htotal⟩
      refine ⟨hlast, by simp at htotal; omega, fun q hq hne => ?_⟩
      have hlt := hbefore ('(' :: q) ((List.prefix_cons_inj '(').mpr hq) (by simp) (by simpa using hne)
      simp at hlt
      omega
  · exact iff_of_false (by simp [isGroup, hhead]) fun h => hhead h.head

/-- **The bracket scan is exact, and its counter never falls below zero.**  It answers for every text, and
says yes exactly if the text is one group: it starts with an opening bracket and ends with a closing one,
every beginning of it opens more brackets than it closes, and the whole closes as many as it opens. -/
theorem isSingleGroup_exact (s : String) :
    isSingleGroup? s = some (isSingleGroup s) ∧
      (isSingleGroup s = true ↔ OneGroup s.toList) :=
  ⟨isSingleGroup?_eq s, isGroup_iff⟩

/-- a text that closes a bracket before it opens one is refused before the counter is asked -/
example : isSingleGroup? ")(" = some false ∧ scanBytes 2 0 0 [')', '('] = none := by decide

end FilterSql
