import FilterSql.Json.Basic
import FilterSql.Text.Printable
import FilterSql.Value.Date

/-!
# Values

A `Value` is a scalar that can be bound to a placeholder.  `text?` is its plain text, the one that
patterns are built from; `display` is the form for people; `json` the form inside JSON.  Equality
compares floats as numbers, so it is not reflexive at NaN; `digest` is what a hash is computed from,
with a float taken bit by bit.

A `Uuid` is a word of 128 bits.  Its text has thirty-two lower-case hexadecimal digits with hyphens
behind the first 8, 12, 16 and 20 of them; `Uuid.ofText?` reads digits of either case, with these
hyphens or with none.
-/

namespace FilterSql

/-! ## universally unique identifiers -/

structure Uuid where
  bits : BitVec 128
  deriving DecidableEq

namespace Uuid

/-- digits in groups of 8, 4, 4, 4 and 12 -/
def hyphenated (digits : List Char) : List Char :=
  let group (skip count : Nat) := (digits.drop skip).take count
  group 0 8 ++ '-' :: group 8 4 ++ '-' :: group 12 4 ++ '-' :: group 16 4 ++ '-' :: group 20 12

def text (u : Uuid) : String := String.ofList (hyphenated (Text.hexDigits 32 u.bits.toNat))

def ofText? (s : String) : Option Uuid :=
  let digits := s.toList.filter (· ≠ '-')
  if digits.length = 32 ∧ (s.toList = digits ∨ s.toList = hyphenated digits) then
    (Text.hexNumber? digits).map fun n => ⟨BitVec.ofNat 128 n⟩
  else none

end Uuid

/-! ## scalars -/

inductive Value where
  | int (n : Int64)
  | uint (n : UInt64)
  | float (x : Float)
  | string (s : String)
  | boolean (b : Bool)
  | uuid (u : Uuid)
  | bytes (bs : List UInt8)
  | date (d : Date)
  | timestamp (t : Timestamp)
  | null

namespace Value

def isNull : Value → Bool
  | .null => true
  | _ => false

/-- only strings take part in case folding -/
def isTextual : Value → Bool
  | .string _ => true
  | _ => false

def string? : Value → Option String
  | .string s => some s
  | _ => none

def typeName : Value → String
  | .int _ => "int"
  | .uint _ => "uint"
  | .float _ => "float"
  | .string _ => "string"
  | .boolean _ => "boolean"
  | .uuid _ => "uuid"
  | .bytes _ => "bytes"
  | .date _ => "date"
  | .timestamp _ => "timestamp"
  | .null => "null"

/-! ## texts -/

/-- plain text; bytes and null have none -/
def text? : Value → Option String
  | .int n => some (toString n.toInt)
  | .uint n => some (toString n.toNat)
  | .float x => some (Decimal.Style.plain.write x)
  | .string s => some s
  | .boolean b => some (if b then "true" else "false")
  | .uuid u => some u.text
  | .date d => some d.text
  | .timestamp t => some t.text
  | .bytes _ => none
  | .null => none

/-- the form for people: strings quoted, bytes in hexadecimal digits -/
def display : Value → String
  | .bytes bs => "0x" ++ String.ofList (bs.flatMap fun b => Text.hexDigits 2 b.toNat)
  | .null => "NULL"
  | .string s => Text.quoted s
  | v => v.text?.getD ""

def json : Value → Json
  | .int n => .int n.toInt
  | .uint n => .int n.toNat
  | .float x => .float x
  | .string s => .string s
  | .boolean b => .bool b
  | .bytes bs => .array (bs.map fun b => .int b.toNat)
  | .null => .null
  | .uuid u => .string u.text
  | .date d => .string d.text
  | .timestamp t => .string t.text

/-! ## equality and hashing -/

/-- values of one type with one content; floats are compared as numbers -/
protected def beq : Value → Value → Bool
  | .int a, .int b => a = b
  | .uint a, .uint b => a = b
  | .float a, .float b => Decimal.sameNumber a b
  | .string a, .string b => a = b
  | .boolean a, .boolean b => a = b
  | .uuid a, .uuid b => a = b
  | .bytes a, .bytes b => a = b
  | .date a, .date b => a = b
  | .timestamp a, .timestamp b => a = b
  | .null, .null => true
  | _, _ => false

instance : BEq Value := ⟨Value.beq⟩

/-- what a hash of a value is computed from: a number for its type, and its content -/
inductive Digest where
  | word (tag : Nat) (content : Int)
  | text (content : String)
  | bytes (content : List UInt8)
  | date (content : Date)
  | timestamp (content : Timestamp)
  deriving DecidableEq

def digest : Value → Digest
  | .int n => .word 0 n.toInt
  | .uint n => .word 1 n.toNat
  | .float x => .word 2 x.toBits.toNat
  | .boolean b => .word 3 (if b then 1 else 0)
  | .uuid u => .word 4 u.bits.toNat
  | .null => .word 5 0
  | .string s => .text s
  | .bytes bs => .bytes bs
  | .date d => .date d
  | .timestamp t => .timestamp t

end Value

end FilterSql
