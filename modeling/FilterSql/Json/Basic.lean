import FilterSql.Decimal.Style
import FilterSql.Text.Basic

/-!
# JSON values and their text

`Json` is a JSON value whose object members keep their order, repeated keys included.  Whole
numbers and floats are kept apart, as their texts are.

`Json.compact` writes a value without blanks, `Json.pretty` with one member or item a line, indented
by two spaces a level; an empty array or object stays on its line.  In a string only the quote, the
backslash and the characters below U+0020 are escaped.  A float that is no number is `null`.
-/

namespace FilterSql

inductive Json where
  | null
  | bool (b : Bool)
  | int (n : Int)
  | float (x : Float)
  | string (s : String)
  | array (items : List Json)
  | object (members : List (String × Json))

namespace Json

/-! ## strings -/

def escape (c : Char) : List Char :=
  if c = '"' then ['\\', '"']
  else if c = '\\' then ['\\', '\\']
  else if c = '\x08' then ['\\', 'b']
  else if c = '\t' then ['\\', 't']
  else if c = '\n' then ['\\', 'n']
  else if c = '\x0c' then ['\\', 'f']
  else if c = '\r' then ['\\', 'r']
  else if c.toNat < 0x20 then '\\' :: 'u' :: Text.hexDigits 4 c.toNat
  else [c]

def quote (s : String) : List Char :=
  '"' :: s.toList.flatMap escape ++ ['"']

/-! ## layout -/

/-- compact, or pretty with the level of indentation that has been reached -/
inductive Layout where
  | compact
  | pretty (level : Nat)

/-- one level further in -/
def Layout.deeper : Layout → Layout
  | .compact => .compact
  | .pretty level => .pretty (level + 1)

/-- what stands before an item, a member or a closing bracket -/
def Layout.lineBreak : Layout → List Char
  | .compact => []
  | .pretty level => '\n' :: List.replicate (2 * level) ' '

/-- what stands between a key and its value -/
def Layout.colon : Layout → List Char
  | .compact => [':']
  | .pretty _ => [':', ' ']

/-! ## values -/

/-- a float, or `null` if it is no number -/
def floatText (x : Float) : String :=
  if Decimal.isFinite x then Decimal.Style.json.write x else "null"

mutual

def write (layout : Layout) : Json → List Char
  | .null => "null".toList
  | .bool b => (if b then "true" else "false").toList
  | .int n => (toString n).toList
  | .float x => (floatText x).toList
  | .string s => quote s
  | .array [] => ['[', ']']
  | .array (item :: items) =>
    '[' :: layout.deeper.lineBreak ++ write layout.deeper item ++ writeItems layout.deeper items ++
      layout.lineBreak ++ [']']
  | .object [] => ['{', '}']
  | .object ((key, value) :: members) =>
    '{' :: layout.deeper.lineBreak ++ quote key ++ layout.colon ++ write layout.deeper value ++
      writeMembers layout.deeper members ++ layout.lineBreak ++ ['}']

/-- the items after the first -/
def writeItems (layout : Layout) : List Json → List Char
  | [] => []
  | item :: items => ',' :: layout.lineBreak ++ write layout item ++ writeItems layout items

/-- the members after the first -/
def writeMembers (layout : Layout) : List (String × Json) → List Char
  | [] => []
  | (key, value) :: members =>
    ',' :: layout.lineBreak ++ quote key ++ layout.colon ++ write layout value ++
      writeMembers layout members

end

def compact (j : Json) : String := String.ofList (j.write .compact)

def pretty (j : Json) : String := String.ofList (j.write (.pretty 0))

end Json

end FilterSql
