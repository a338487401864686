/-!
# Blanks, lines and hexadecimal digits

`trimChars` takes the blanks off both ends of a text, where `isBlank` is the Unicode property
`White_Space`.  `lines` cuts a text at line feeds, so that a carriage return right before a line feed
belongs to the line end.  `hexDigits` writes a number in a fixed count of lower-case digits, which
`length_hexDigits` confirms; `hexNumber?` reads digits of either case.
-/

namespace FilterSql.Text

/-! ## blanks -/

/-- the Unicode property `White_Space` -/
def isBlank (c : Char) : Bool :=
  (0x09 ≤ c.val && c.val ≤ 0x0D) || c.val = 0x20 || c.val = 0x85 || c.val = 0xA0 ||
    c.val = 0x1680 || (0x2000 ≤ c.val && c.val ≤ 0x200A) || c.val = 0x2028 || c.val = 0x2029 ||
    c.val = 0x202F || c.val = 0x205F || c.val = 0x3000

def trimChars (cs : List Char) : List Char :=
  ((cs.dropWhile isBlank).reverse.dropWhile isBlank).reverse

/-! ## lines -/

/-- the line without the carriage return of its line end -/
def dropReturn (line : List Char) : List Char :=
  if line.getLast? = some '\r' then line.dropLast else line

/-- the lines of a text; `done` holds the characters of the current line, newest first -/
def linesFrom (done : List Char) : List Char → List (List Char)
  | [] => if done = [] then [] else [done.reverse]
  | c :: cs =>
    if c = '\n' then dropReturn done.reverse :: linesFrom [] cs else linesFrom (c :: done) cs

/-- the lines of a text without their ends; a line feed at the very end opens no further line -/
def lines (s : String) : List String :=
  (linesFrom [] s.toList).map String.ofList

/-! ## hexadecimal digits -/

/-- the last `count` hexadecimal digits of a number, leading ones first -/
def hexDigits : Nat → Nat → List Char
  | 0, _ => []
  | count + 1, value => hexDigits count (value / 16) ++ [Nat.digitChar (value % 16)]

def hexValue? (c : Char) : Option Nat :=
  if '0' ≤ c ∧ c ≤ '9' then some (c.toNat - '0'.toNat)
  else if 'a' ≤ c ∧ c ≤ 'f' then some (c.toNat - 'a'.toNat + 10)
  else if 'A' ≤ c ∧ c ≤ 'F' then some (c.toNat - 'A'.toNat + 10)
  else none

def hexNumber? (digits : List Char) : Option Nat :=
  digits.foldlM (fun n c => (hexValue? c).map (16 * n + ·)) 0

theorem length_hexDigits (count value : Nat) : (hexDigits count value).length = count := by
  induction count generalizing value with
  | zero => rfl
  | succ count ih => rw [hexDigits, List.length_append, ih]; rfl

end FilterSql.Text
