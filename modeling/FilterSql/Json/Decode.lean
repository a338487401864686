import FilterSql.Json.Doc
import FilterSql.Text.Printable

/-!
# Decoding JSON documents

A decoder takes a `Doc` to a value of a domain type or to the first problem of its text, which is a
fault of the text or a mismatch between the text and the type.  Scalars come first; `record` decodes
a type with named fields from an object, or from an array by position.
-/

namespace FilterSql.Json

/-! ## problems -/

inductive Found where
  | bool (b : Bool)
  | int (n : Int)
  | float (x : Float)
  | string (s : String)
  | null
  | sequence
  | map
  /-- an optional value, from an input that is no JSON text -/
  | optional
  /-- raw bytes, from an input that is no JSON text -/
  | bytes

inductive Expected where
  | scalar
  | constraint
  | filter
  | sort
  | string
  | bool
  | int64
  | word32
  | word64
  | size
  | unit
  | variant
  | record (name : String)

inductive Mismatch where
  | wrongType (found : Found) (expected : Expected)
  | outOfRange (n : Int) (expected : Expected)
  | notText (expected : Expected)
  | duplicateField (name : String)
  | missingField (name : String)
  | wrongLength (length : Nat) (record : String) (fields : Nat)
  | unknownVariant (name : String) (known : List String)
  | noForm (name : String)
  | unknownDirection (text : String)

/-- the first problem of a text -/
inductive DecodeError where
  | fault (f : Fault)
  | mismatch (m : Mismatch)

def Found.text : Found → String
  | .bool b => "boolean " ++ tick (if b then "true" else "false")
  | .int n => "integer " ++ tick (toString n)
  | .float x => "floating point " ++ tick (Decimal.Style.json.write x)
  | .string s => "string " ++ Text.quoted s
  | .null => "null"
  | .sequence => "sequence"
  | .map => "map"
  | .optional => "Option value"
  | .bytes => "byte array"
where
  tick (s : String) : String := "`" ++ s ++ "`"

def Expected.text : Expected → String
  | .scalar => "a scalar value (string, number, boolean or null)"
  | .constraint => "a scalar, a list of scalars or an operator object"
  | .filter => "a filter object"
  | .sort => "a map of field names to sort directions"
  | .string => "a string"
  | .bool => "a boolean"
  | .int64 => "i64"
  | .word32 => "u32"
  | .word64 => "u64"
  | .size => "usize"
  | .unit => "unit"
  | .variant => "variant identifier"
  | .record name => "struct " ++ name

/-- names in backquotes, with commas between -/
def listed (names : List String) : String :=
  ", ".intercalate (names.map fun n => "`" ++ n ++ "`")

def Mismatch.message : Mismatch → String
  | .wrongType found expected => "invalid type: " ++ found.text ++ ", expected " ++ expected.text
  | .outOfRange n expected =>
    "invalid value: integer `" ++ toString n ++ "`, expected " ++ expected.text
  | .notText expected => "invalid value: byte array, expected " ++ expected.text
  | .duplicateField name => "duplicate field `" ++ name ++ "`"
  | .missingField name => "missing field `" ++ name ++ "`"
  | .wrongLength length record fields =>
    "invalid length " ++ toString length ++ ", expected struct " ++ record ++ " with " ++
      toString fields ++ " elements"
  | .unknownVariant name known =>
    "unknown variant `" ++ name ++ "`, expected one of " ++ listed known
  | .noForm name => "data did not match any variant of untagged enum " ++ name
  | .unknownDirection text => "Invalid sort direction '" ++ text ++ "', expected ASC or DESC"

abbrev Decoded (α : Type) := Except DecodeError α

def fault {α : Type} (f : Fault) : Decoded α := .error (.fault f)

def mismatch {α : Type} (m : Mismatch) : Decoded α := .error (.mismatch m)

def noFault : Option Fault → Decoded Unit
  | none => .ok ()
  | some f => fault f

/-! ## scalars -/

/-- what stands there is not what is expected; a fault in the way is met first -/
def Doc.refuse {α : Type} (expected : Expected) : Doc → Decoded α
  | .null => mismatch (.wrongType .null expected)
  | .bool b => mismatch (.wrongType (.bool b) expected)
  | .number (some (.int n)) => mismatch (.wrongType (.int n) expected)
  | .number (some (.float x)) => mismatch (.wrongType (.float x) expected)
  | .string (some s) => mismatch (.wrongType (.string s) expected)
  | .number none => fault .malformed
  | .string none => fault .malformed
  | .array _ _ => mismatch (.wrongType .sequence expected)
  | .object _ _ => mismatch (.wrongType .map expected)
  | .broken _ read _ => fault read

def Doc.toBool : Doc → Decoded Bool
  | .bool b => .ok b
  | d => d.refuse .bool

def Doc.toText : Doc → Decoded String
  | .string (some s) => .ok s
  | d => d.refuse .string

/-- a whole number from `lo` up to `hi` -/
def Doc.toIntWithin (lo hi : Int) (expected : Expected) : Doc → Decoded Int
  | .number (some (.int n)) =>
    if lo ≤ n ∧ n ≤ hi then .ok n else mismatch (.outOfRange n expected)
  | d => d.refuse expected

def Doc.toInt64 (d : Doc) : Decoded Int64 :=
  (d.toIntWithin Int64.minValue.toInt Int64.maxValue.toInt .int64).map Int64.ofInt

def Doc.toWord32 (d : Doc) : Decoded UInt32 :=
  (d.toIntWithin 0 (UInt32.size - 1) .word32).map fun n => n.toNat.toUInt32

def Doc.toWord64 (expected : Expected) (d : Doc) : Decoded UInt64 :=
  (d.toIntWithin 0 (UInt64.size - 1) expected).map fun n => n.toNat.toUInt64

/-- `null` is no value -/
def Doc.optional {α : Type} (decode : Doc → Decoded α) : Doc → Decoded (Option α)
  | .null => .ok none
  | d => (decode d).map some

def Doc.skip (d : Doc) : Decoded Unit := noFault d.skipFault?

/-- the value is read as a whole, inside `depth` open brackets -/
def Doc.settle (depth : Nat) (d : Doc) : Decoded Unit := noFault (d.fault? depth)

def Key.read (value : Doc) : Key → Decoded String
  | .text s => .ok s
  | .unpaired => fault .malformed
  | .absent => fault (keyFault true value)

/-! ## records -/

/-- a named field of a record that is built up in a `σ` -/
structure FieldDecoder (σ : Type) where
  name : String
  read : Doc → σ → Decoded σ

/-- reads members into `s`; a field in `seen` must not come again -/
def readMembers {σ : Type} (fields : List (FieldDecoder σ)) (close : Option Fault) :
    List String → σ → List (Key × Doc) → Decoded (List String × σ)
  | seen, s, [] => (noFault close).map fun _ => (seen, s)
  | seen, s, (key, value) :: members => do
    let name ← key.read value
    match fields.find? (·.name = name) with
    | none =>
      value.skip
      readMembers fields close seen s members
    | some field =>
      if seen.contains name then mismatch (.duplicateField name)
      else
        let s ← field.read value s
        readMembers fields close (name :: seen) s members

/-- reads items into `s` by position -/
def readItems {σ : Type} (close : Option Fault) :
    List (FieldDecoder σ) → σ → List Doc → Decoded σ
  | _, s, [] => (noFault close).map fun _ => s
  | [], _, _ :: _ => fault .malformed
  | field :: fields, s, item :: items => do
    let s ← field.read item s
    readItems close fields s items

/-- a type with named fields, built up from `start`; if `required`, no field may be missing -/
structure Record (σ : Type) where
  name : String
  start : σ
  fields : List (FieldDecoder σ)
  required : Bool

def Record.decode {σ : Type} (r : Record σ) : Doc → Decoded σ
  | .object members close => do
    let (seen, s) ← readMembers r.fields close [] r.start members
    match if r.required then r.fields.find? fun f => !seen.contains f.name else none with
    | some field => mismatch (.missingField field.name)
    | none => return s
  | .array items close => do
    let s ← readItems close r.fields r.start items
    if r.required && items.length < r.fields.length then
      mismatch (.wrongLength items.length r.name r.fields.length)
    else return s
  | d => d.refuse (.record r.name)

/-! ## texts -/

def decodeText {α : Type} (decode : Doc → Decoded α) (s : String) : Decoded α := do
  let document := Document.ofText s
  let a ← decode document.root
  if document.trailing then fault .malformed else return a

end FilterSql.Json
