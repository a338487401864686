import FilterSql.Json.Numeral
import FilterSql.Text.Basic

/-!
# JSON string literals

A literal is scanned into the units that it writes: characters, and 16-bit units where it escapes
one by number.  `join` turns units into characters; surrogates have to come in pairs.  A reader
that only passes over a literal does not join its units, so it accepts a lone surrogate.
-/

namespace FilterSql.Json

inductive StringUnit where
  | char (c : Char)
  | code (n : Nat)
  deriving DecidableEq

/-! ## scanning -/

/-- the character after a backslash, if it stands for one -/
def simpleEscape? (c : Char) : Option Char :=
  if c = '"' then some '"'
  else if c = '\\' then some '\\'
  else if c = '/' then some '/'
  else if c = 'b' then some '\x08'
  else if c = 'f' then some '\x0c'
  else if c = 'n' then some '\n'
  else if c = 'r' then some '\r'
  else if c = 't' then some '\t'
  else none

/-- the fault where four hexadecimal digits should stand but do not: the text counts as ended if
fewer than four bytes are left -/
def hexFault (cs : List Char) : Fault :=
  if (String.ofList cs).utf8ByteSize < 4 then .truncated else .malformed

/-- a scanned literal: its units, how it ends, and the rest of the text after its quote -/
structure Scanned where
  units : List StringUnit
  fault : Option Fault
  rest : List Char

def Scanned.push (u : StringUnit) (s : Scanned) : Scanned := { s with units := u :: s.units }

def Scanned.fail (f : Fault) : Scanned := ⟨[], some f, []⟩

/-- scans a literal from behind its opening quote -/
def scanString : List Char → Scanned
  | [] => .fail .truncated
  | '"' :: cs => ⟨[], none, cs⟩
  | ['\\'] => .fail .truncated
  | '\\' :: 'u' :: a :: b :: c :: d :: cs =>
    match Text.hexNumber? [a, b, c, d] with
    | some n => (scanString cs).push (.code n)
    | none => .fail .malformed
  | '\\' :: c :: cs =>
    if c = 'u' then .fail (hexFault cs)
    else match simpleEscape? c with
      | some e => (scanString cs).push (.char e)
      | none => .fail .malformed
  | c :: cs => if c.toNat < 0x20 then .fail .malformed else (scanString cs).push (.char c)

/-! ## joining -/

def isLead (n : Nat) : Bool := 0xD800 ≤ n && n < 0xDC00

def isTrail (n : Nat) : Bool := 0xDC00 ≤ n && n < 0xE000

def pairChar (lead trail : Nat) : Char :=
  Char.ofNat (0x10000 + (lead - 0xD800) * 0x400 + (trail - 0xDC00))

/-- the characters that units write; `fault` is how the literal ends -/
def join (fault : Option Fault) : List StringUnit → Except Fault (List Char)
  | [] => match fault with
    | none => .ok []
    | some f => .error f
  | .char c :: us => (join fault us).map (c :: ·)
  | .code n :: us =>
    if isTrail n then .error .malformed
    else if isLead n then
      match us with
      | .code m :: us =>
        if isTrail m then (join fault us).map (pairChar n m :: ·) else .error .malformed
      | .char _ :: _ => .error .malformed
      | [] => .error (fault.getD .malformed)
    else (join fault us).map (Char.ofNat n :: ·)

end FilterSql.Json
