import FilterSql.Json.Basic
import FilterSql.Json.Token

/-!
# What can be read of a JSON text

`Doc` is a JSON value of which the text may break off or be malformed somewhere.  Readers walk it in
the order of the text, so they meet a fault exactly where a reader of the text would, after all
problems before it and before all problems after it.  `Doc.ofText` never fails: it puts the fault
where it stands.

A value that is read for its content is *settled* when no fault is inside it; `Doc.fault?` finds the
first one.  A value that is passed over only has to have the outer form of JSON; `Doc.skipFault?`
finds the first fault of that kind.  For complete values `Doc.ofJson` and `Doc.json?` go between a
document and its `Json`.
-/

namespace FilterSql.Json

inductive Key where
  | text (s : String)
  /-- a string with an unpaired surrogate -/
  | unpaired
  /-- no key stands there; the member's value is what does stand there -/
  | absent

/-- what can be read of a JSON value; an array or object whose bracket does not close names the
fault that stands in its place -/
inductive Doc where
  | null
  | bool (b : Bool)
  | number (n : Option Number)
  | string (s : Option String)
  | array (items : List Doc) (close : Option Fault)
  | object (members : List (Key × Doc)) (close : Option Fault)
  | broken (start : Start) (read skip : Fault)

/-- a text: one value, and whether anything but blanks follows it -/
structure Document where
  root : Doc
  trailing : Bool

/-! ## building -/

/-- an array or object that is still open, with what has been read of it, newest first -/
inductive Frame where
  | array (items : List Doc)
  | object (members : List (Key × Doc)) (key : Key)

/-- what a reader finds that expects a value at a token -/
def Token.glimpse : Token → Doc
  | .null => .null
  | .bool b => .bool b
  | .number n => .number n
  | .string s => .string s
  | .openArray => .array [] (some .malformed)
  | .openObject => .object [] (some .malformed)
  | .broken start read skip => .broken start read skip
  | _ => .broken .other .malformed .malformed

/-- the fault of a text that goes on with these tokens where it should not -/
def faultAt : List Token → Fault
  | [] => .truncated
  | _ :: _ => .malformed

/-- nothing at all stands there -/
def Doc.ended : Doc := .broken .nothing .truncated .truncated

/-- puts `d` into all open frames and leaves them open -/
def abandon (d : Doc) : List Frame → Doc
  | [] => d
  | .array items :: up => abandon (.array (d :: items).reverse (some .malformed)) up
  | .object members key :: up =>
    abandon (.object ((key, d) :: members).reverse (some .malformed)) up

mutual

/-- a value is expected -/
def atValue (up : List Frame) : List Token → Document
  | [] => ⟨abandon .ended up, false⟩
  | .null :: ts => afterValue .null up ts
  | .bool b :: ts => afterValue (.bool b) up ts
  | .number n :: ts => afterValue (.number n) up ts
  | .string s :: ts => afterValue (.string s) up ts
  | .openArray :: .closeArray :: ts => afterValue (.array [] none) up ts
  | .openArray :: ts => atValue (.array [] :: up) ts
  | .openObject :: .closeObject :: ts => afterValue (.object [] none) up ts
  | .openObject :: ts => atKey [] up ts
  | t :: _ => ⟨abandon t.glimpse up, false⟩

/-- a key is expected, in an object with these members so far -/
def atKey (members : List (Key × Doc)) (up : List Frame) : List Token → Document
  | .string s :: .colon :: ts =>
    atValue (.object members ((s.map Key.text).getD .unpaired) :: up) ts
  | .string s :: ts =>
    let d := if ts.isEmpty then .ended else .broken .other .malformed .malformed
    ⟨abandon d (.object members ((s.map Key.text).getD .unpaired) :: up), false⟩
  | [] => ⟨abandon .ended (.object members .absent :: up), false⟩
  | t :: _ => ⟨abandon t.glimpse (.object members .absent :: up), false⟩

def afterValue (d : Doc) (up : List Frame) (ts : List Token) : Document :=
  match up, ts with
  | [], ts => ⟨d, !ts.isEmpty⟩
  | .array items :: up, .comma :: ts => atValue (.array (d :: items) :: up) ts
  | .array items :: up, .closeArray :: ts => afterValue (.array (d :: items).reverse none) up ts
  | .array items :: up, ts => ⟨abandon (.array (d :: items).reverse (some (faultAt ts))) up, false⟩
  | .object members key :: up, .comma :: ts => atKey ((key, d) :: members) up ts
  | .object members key :: up, .closeObject :: ts =>
    afterValue (.object ((key, d) :: members).reverse none) up ts
  | .object members key :: up, ts =>
    ⟨abandon (.object ((key, d) :: members).reverse (some (faultAt ts))) up, false⟩

end

def Document.ofText (s : String) : Document := atValue [] (tokens s.toList)

/-! ## faults -/

/-- the fault of a place where a key should stand: `read` tells whether it would have been read -/
def keyFault (read : Bool) : Doc → Fault
  | .broken .nothing _ _ => .truncated
  | .broken .string r s => if read then r else s
  | _ => .malformed

mutual

/-- the first fault of a value that is read as a whole inside `depth` open brackets -/
def Doc.fault? (depth : Nat) : Doc → Option Fault
  | .null => none
  | .bool _ => none
  | .number n => if n.isSome then none else some .malformed
  | .string s => if s.isSome then none else some .malformed
  | .array items close =>
    if 127 ≤ depth then some .malformed else (itemsFault? (depth + 1) items).or close
  | .object members close =>
    if 127 ≤ depth then some .malformed else (membersFault? (depth + 1) members).or close
  | .broken _ read _ => some read

def itemsFault? (depth : Nat) : List Doc → Option Fault
  | [] => none
  | item :: items => (item.fault? depth).or (itemsFault? depth items)

def membersFault? (depth : Nat) : List (Key × Doc) → Option Fault
  | [] => none
  | (key, value) :: members =>
    match key with
    | .text _ => (value.fault? depth).or (membersFault? depth members)
    | .unpaired => some .malformed
    | .absent => some (keyFault true value)

end

mutual

/-- the first fault of a value that is passed over -/
def Doc.skipFault? : Doc → Option Fault
  | .array items close => (itemsSkipFault? items).or close
  | .object members close => (membersSkipFault? members).or close
  | .broken _ _ skip => some skip
  | _ => none

def itemsSkipFault? : List Doc → Option Fault
  | [] => none
  | item :: items => item.skipFault?.or (itemsSkipFault? items)

def membersSkipFault? : List (Key × Doc) → Option Fault
  | [] => none
  | (key, value) :: members =>
    match key with
    | .absent => some (keyFault false value)
    | _ => value.skipFault?.or (membersSkipFault? members)

end

/-! ## complete values -/

mutual

def Doc.ofJson : Json → Doc
  | .null => .null
  | .bool b => .bool b
  | .int n => .number (some (.int n))
  | .float x => .number (some (.float x))
  | .string s => .string (some s)
  | .array items => .array (itemsOfJson items) none
  | .object members => .object (membersOfJson members) none

def itemsOfJson : List Json → List Doc
  | [] => []
  | item :: items => Doc.ofJson item :: itemsOfJson items

def membersOfJson : List (String × Json) → List (Key × Doc)
  | [] => []
  | (key, value) :: members => (.text key, Doc.ofJson value) :: membersOfJson members

end

mutual

/-- the value of a document without faults -/
def Doc.json? : Doc → Option Json
  | .null => some .null
  | .bool b => some (.bool b)
  | .number n => n.map fun
    | .int n => .int n
    | .float x => .float x
  | .string s => s.map .string
  | .array items close => if close.isSome then none else (itemsJson? items).map .array
  | .object members close => if close.isSome then none else (membersJson? members).map .object
  | .broken _ _ _ => none

def itemsJson? : List Doc → Option (List Json)
  | [] => some []
  | item :: items => do return (← item.json?) :: (← itemsJson? items)

def membersJson? : List (Key × Doc) → Option (List (String × Json))
  | [] => some []
  | (key, value) :: members =>
    match key with
    | .text s => do return (s, ← value.json?) :: (← membersJson? members)
    | _ => none

end

end Json

/-- the value of a JSON text, within 127 open brackets -/
def Json.ofText? (s : String) : Option Json :=
  let d := Json.Document.ofText s
  if d.trailing || (d.root.fault? 0).isSome then none else d.root.json?

end FilterSql
