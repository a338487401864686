/-!
# Columns

A `Column` is a field, perhaps with the collection that it belongs to.  `lower` puts an expression
inside `LOWER(...)` unless it stands inside one already, for which `isSingleGroup` scans the
brackets.
-/

namespace FilterSql

structure Column where
  field : String
  collection : Option String
  deriving DecidableEq

def Column.text (c : Column) : String :=
  match c.collection with
  | some collection => collection ++ "." ++ c.field
  | none => c.field

/-! ## bracket groups -/

/-- scans brackets with `depth` of them open and tells whether the first one closes at the last
character -/
def closesAtEnd (depth : Nat) : List Char → Bool
  | [] => false
  | c :: cs =>
    if c = '(' then closesAtEnd (depth + 1) cs
    else if c = ')' then if depth = 1 then cs.isEmpty else closesAtEnd (depth - 1) cs
    else closesAtEnd depth cs

/-- one group in brackets, such as `(a OR b)` but not `(a) AND (b)` -/
def isGroup (cs : List Char) : Bool :=
  cs.head? = some '(' && cs.getLast? = some ')' && closesAtEnd 0 cs

def isSingleGroup (s : String) : Bool := isGroup s.toList

/-! ## lower case -/

def lowerWord : List Char := ['L', 'O', 'W', 'E', 'R']

/-- the expression is `LOWER` and one group -/
def isLowered (expr : List Char) : Bool :=
  lowerWord.isPrefixOf expr && isGroup (expr.drop lowerWord.length)

/-- the expression inside `LOWER(...)`, unless it is so already -/
def lower (expr : String) : String :=
  if isLowered expr.toList then expr else "LOWER(" ++ expr ++ ")"

/-- the column, inside `LOWER(...)` if `fold` is set -/
def Column.expression (c : Column) (fold : Bool) : String :=
  if fold then lower c.text else c.text

end FilterSql
