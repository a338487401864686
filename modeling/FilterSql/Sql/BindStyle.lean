import FilterSql.Json.Decode

/-!
# Placeholders

A `BindStyle` is the convention of an SQL engine for the places of bound values.  `placeholder`
writes the place of the value with a sequence number and a name, and `paramName` is that name.
-/

namespace FilterSql

open Json

inductive BindStyle where
  /-- `?` -/
  | question
  /-- `$1`, `$2`, … -/
  | dollar
  /-- `:_1_field` -/
  | colon
  /-- `@_1_field` -/
  | at
  deriving DecidableEq

namespace BindStyle

def name : BindStyle → String
  | .question => "question"
  | .dollar => "dollar"
  | .colon => "colon"
  | .at => "at"

def all : List BindStyle := [.question, .dollar, .colon, .at]

/-- the style of a name, exactly as it is spelled -/
def ofName? (s : String) : Option BindStyle := all.find? (·.name = s)

def sign : BindStyle → String
  | .question => "?"
  | .dollar => "$"
  | .colon => ":"
  | .at => "@"

/-- a text with its ASCII letters in lower case -/
def lowercase (s : String) : String := String.ofList (s.toList.map Char.toLower)

/-- the style of a name in any case, or of a sign -/
def ofText? (s : String) : Option BindStyle :=
  all.find? fun style => style.name = lowercase s || style.sign = lowercase s

def unknownMessage (s : String) : String :=
  "Unknown bind style '" ++ lowercase s ++ "', expected one of: question, dollar, colon, at"

def placeholder (style : BindStyle) (sequence : Nat) (name : String) : String :=
  match style with
  | .question => "?"
  | .dollar => "$" ++ toString sequence
  | .colon => ":" ++ name
  | .at => "@" ++ name

/-! ## documents -/

def ofVariant (s : String) : Decoded BindStyle :=
  match ofName? s with
  | some style => .ok style
  | none => mismatch (.unknownVariant s (all.map name))

/-- a name, or an object with that one key and the value null -/
def ofDoc : Doc → Decoded BindStyle
  | .string (some s) => ofVariant s
  | .object ((.text s, value) :: members) close => do
    let style ← ofVariant s
    match value with
    | .null => match members with
      | [] => (noFault close).map fun _ => style
      | _ :: _ => fault .malformed
    | d => d.refuse .unit
  | .object ((.absent, found) :: _) _ => found.refuse .variant
  | .broken .nothing read _ => fault read
  | .broken .string read _ => fault read
  | _ => fault .malformed

def json (style : BindStyle) : Json := .string style.name

end BindStyle

/-! ## parameter names -/

/-- letters and digits of ASCII and the underscore -/
def isNameChar (c : Char) : Bool := c.isAlphanum || c = '_'

/-- a field with every other character replaced by an underscore -/
def sanitize (field : String) : String :=
  String.ofList (field.toList.map fun c => if isNameChar c then c else '_')

def paramName (sequence : Nat) (field : String) : String :=
  "_" ++ toString sequence ++ "_" ++ sanitize field

end FilterSql
