import FilterSql.Json.Decode
import FilterSql.Value.Basic

/-!
# Decoding values

`Value.ofDoc` takes a JSON scalar to a value; a whole number is an `int` if it fits.  `Input` is a
value to decode that comes from elsewhere than a JSON text.
-/

namespace FilterSql

open Json

/-- a whole number of at most 64 bits: signed if it fits -/
def Value.ofInt (n : Int) : Value :=
  if n ≤ Int64.maxValue.toInt then .int (Int64.ofInt n) else .uint n.toNat.toUInt64

def Value.ofDoc : Doc → Decoded Value
  | .null => .ok .null
  | .bool b => .ok (.boolean b)
  | .number (some (.int n)) => .ok (.ofInt n)
  | .number (some (.float x)) => .ok (.float x)
  | .string (some s) => .ok (.string s)
  | d => d.refuse .scalar

def Value.listOfItems (close : Option Fault) : List Doc → Decoded (List Value)
  | [] => (noFault close).map fun _ => []
  | item :: items => do
    let v ← Value.ofDoc item
    return v :: (← Value.listOfItems close items)

/-- an input that is no JSON text -/
inductive Input where
  /-- an optional value that is absent -/
  | absent
  /-- an optional value that is present -/
  | present
  | bytes (bs : List UInt8)
  /-- a value that is read already -/
  | doc (d : Doc)

/-- an input where no optional value and no bytes can stand -/
def Input.decode {α : Type} (expected : Expected) (decode : Doc → Decoded α) : Input → Decoded α
  | .absent => mismatch (.wrongType .optional expected)
  | .present => mismatch (.wrongType .optional expected)
  | .bytes _ => mismatch (.wrongType .bytes expected)
  | .doc d => decode d

/-- an absent value is the null value -/
def Value.ofInput : Input → Decoded Value
  | .absent => .ok .null
  | input => input.decode .scalar Value.ofDoc

end FilterSql
