import FilterSql.Json.StringLiteral

/-!
# JSON tokens

`tokens` cuts a text into tokens and stops behind the first broken one.  A broken token tells the
two faults of the two ways to meet it: reading it for its value, or passing over it as part of a
value that nobody asks for.
-/

namespace FilterSql.Json

/-- what stands at the place of a broken token -/
inductive Start where
  /-- the end of the text -/
  | nothing
  /-- a quote -/
  | string
  /-- any other character -/
  | other
  deriving DecidableEq

inductive Token where
  | openArray
  | closeArray
  | openObject
  | closeObject
  | comma
  | colon
  | null
  | bool (b : Bool)
  /-- `none` if the numeral is too large for a number -/
  | number (n : Option Number)
  /-- `none` if a surrogate is not paired -/
  | string (s : Option String)
  | broken (start : Start) (read skip : Fault)

/-- the blanks of JSON -/
def isSpace (c : Char) : Bool := c = ' ' || c = '\n' || c = '\t' || c = '\r'

/-- the rest of a word whose first letter has been seen -/
def scanWord (token : Token) : List Char → List Char → Token × List Char
  | [], cs => (token, cs)
  | _ :: _, [] => (.broken .other .truncated .truncated, [])
  | w :: ws, c :: cs =>
    if c = w then scanWord token ws cs else (.broken .other .malformed .malformed, [])

def stringToken (cs : List Char) : Token × List Char :=
  let s := scanString cs
  match s.fault, join s.fault s.units with
  | none, .ok chars => (.string (some (String.ofList chars)), s.rest)
  | none, .error _ => (.string none, s.rest)
  | some f, .error g => (.broken .string g f, [])
  | some f, .ok _ => (.broken .string f f, [])

/-- a numeral; to one that is passed over, the end of the text is as bad as any other character -/
def numberToken (negative : Bool) (cs : List Char) : Token × List Char :=
  match Numeral.scan negative cs with
  | .ok (n, rest) => (.number n.value?, rest)
  | .error f => (.broken .other f .malformed, [])

def token (c : Char) (cs : List Char) : Token × List Char :=
  if c = '[' then (.openArray, cs)
  else if c = ']' then (.closeArray, cs)
  else if c = '{' then (.openObject, cs)
  else if c = '}' then (.closeObject, cs)
  else if c = ',' then (.comma, cs)
  else if c = ':' then (.colon, cs)
  else if c = '"' then stringToken cs
  else if c = 'n' then scanWord .null ['u', 'l', 'l'] cs
  else if c = 't' then scanWord (.bool true) ['r', 'u', 'e'] cs
  else if c = 'f' then scanWord (.bool false) ['a', 'l', 's', 'e'] cs
  else if c = '-' then numberToken true cs
  else if (digit? c).isSome then numberToken false (c :: cs)
  else (.broken .other .malformed .malformed, [])

/-- the tokens of a text, at most `fuel` characters and tokens far -/
def tokensWithin : Nat → List Char → List Token
  | 0, _ => []
  | _, [] => []
  | fuel + 1, c :: cs =>
    if isSpace c then tokensWithin fuel cs
    else
      let (t, rest) := token c cs
      t :: tokensWithin fuel rest

/-- the tokens of a text up to the first broken one -/
def tokens (cs : List Char) : List Token := tokensWithin cs.length cs

end FilterSql.Json
