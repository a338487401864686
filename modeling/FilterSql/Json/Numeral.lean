import FilterSql.Decimal.Nearest

/-!
# JSON numerals

`Numeral.scan` reads the longest numeral at the start of a text, and `Numeral.value?` is the number
that it stands for: a whole number if it is written as one and fits into 64 bits, otherwise a float.
A numeral too large for a float stands for nothing.

The float of a numeral is found from at most 64 bits of its digits.  `Kept` collects digits while
the number that they form fits; further digits of the whole part only raise the exponent, further
ones of the fraction are dropped.  One multiplication or division by a power of ten follows.  So
the float may miss the one nearest to the numeral, which `Numeral.nearest` finds from all digits.
-/

namespace FilterSql.Json

/-- how a text stops being JSON -/
inductive Fault where
  /-- a character that cannot stand there -/
  | malformed
  /-- the text ends too early -/
  | truncated
  deriving DecidableEq

/-- a numeral taken apart; the first digit of `whole` is not zero unless it is the only one -/
structure Numeral where
  negative : Bool
  whole : List Nat
  fraction : Option (List Nat)
  exponent : Option (Bool × List Nat)
  deriving DecidableEq

def digit? (c : Char) : Option Nat :=
  if '0' ≤ c ∧ c ≤ '9' then some (c.toNat - '0'.toNat) else none

/-- the run of digits at the start of a text, and the rest -/
def digits : List Char → List Nat × List Char
  | [] => ([], [])
  | c :: cs =>
    match digit? c with
    | none => ([], c :: cs)
    | some d => ((digits cs).map (d :: ·) id)

/-! ## scanning -/

/-- digits have to stand here -/
def someDigits (cs : List Char) : Except Fault (List Nat × List Char) :=
  match digits cs with
  | ([], []) => .error .truncated
  | ([], _ :: _) => .error .malformed
  | found => .ok found

/-- the whole part: a zero that no digit follows, or digits that do not start with one -/
def scanWhole (cs : List Char) : Except Fault (List Nat × List Char) :=
  match someDigits cs with
  | .ok (0 :: _ :: _, _) => .error .malformed
  | found => found

/-- the digits after a point, if there is a point -/
def scanFraction : List Char → Except Fault (Option (List Nat) × List Char)
  | '.' :: cs => (someDigits cs).map fun (ds, rest) => (some ds, rest)
  | cs => .ok (none, cs)

/-- the sign of an exponent; `true` is minus -/
def scanSign : List Char → Bool × List Char
  | '-' :: cs => (true, cs)
  | '+' :: cs => (false, cs)
  | cs => (false, cs)

def scanExponent : List Char → Except Fault (Option (Bool × List Nat) × List Char)
  | [] => .ok (none, [])
  | c :: cs =>
    if c = 'e' ∨ c = 'E' then
      let (negative, cs) := scanSign cs
      (someDigits cs).map fun (ds, rest) => (some (negative, ds), rest)
    else .ok (none, c :: cs)

/-- the numeral at the start of a text, after its sign, and the rest -/
def Numeral.scan (negative : Bool) (cs : List Char) : Except Fault (Numeral × List Char) := do
  let (whole, cs) ← scanWhole cs
  let (fraction, cs) ← scanFraction cs
  let (exponent, cs) ← scanExponent cs
  return (⟨negative, whole, fraction, exponent⟩, cs)

/-! ## the number of a numeral -/

inductive Number where
  | int (n : Int)
  | float (x : Float)

def ofDigits (ds : List Nat) : Nat :=
  ds.foldl (fun n d => 10 * n + d) 0

/-- the digits that were kept of a numeral, as one number, and the power of ten to go with it -/
structure Kept where
  significand : Nat
  exponent : Int

/-- keeps the digits of the whole part that fit into 64 bits and counts the others -/
def Kept.whole (n : Nat) : List Nat → Kept
  | [] => ⟨n, 0⟩
  | d :: ds =>
    if 10 * n + d < UInt64.size then Kept.whole (10 * n + d) ds else ⟨n, ds.length + 1⟩

/-- keeps the digits of the fraction that fit into 64 bits -/
def Kept.fraction (k : Kept) : List Nat → Kept
  | [] => k
  | d :: ds =>
    if 10 * k.significand + d < UInt64.size then
      Kept.fraction ⟨10 * k.significand + d, k.exponent - 1⟩ ds
    else k

def powerOfTen (n : Nat) : Float := Decimal.nearest 1 n

/-- the significand times its power of ten, unless that is too large; below `10 ^ -308` in two
steps -/
def Kept.float? (k : Kept) : Option Float :=
  let f := k.significand.toUInt64.toFloat
  if k.significand = 0 then some f
  else if 308 < k.exponent then none
  else if 0 ≤ k.exponent then
    let x := f * powerOfTen k.exponent.toNat
    if x.isInf then none else some x
  else if -308 ≤ k.exponent then some (f / powerOfTen (-k.exponent).toNat)
  else if -616 ≤ k.exponent then some (f / powerOfTen 308 / powerOfTen (-k.exponent - 308).toNat)
  else some 0

/-- the float nearest to a numeral, from all of its digits -/
def Numeral.nearest (n : Numeral) : Float :=
  let fraction := n.fraction.getD []
  let exponent : Int := match n.exponent with
    | none => 0
    | some (negative, ds) => if negative then -ofDigits ds else ofDigits ds
  let x := Decimal.nearest (ofDigits (n.whole ++ fraction)) (exponent - fraction.length)
  if n.negative then -x else x

def Numeral.kept (n : Numeral) : Kept :=
  let k := (Kept.whole 0 n.whole).fraction (n.fraction.getD [])
  match n.exponent with
  | none => k
  | some (negative, ds) =>
    { k with exponent := if negative then k.exponent - ofDigits ds else k.exponent + ofDigits ds }

/-- the number of a numeral; minus zero is a float -/
def Numeral.value? (n : Numeral) : Option Number :=
  let value := ofDigits n.whole
  let float := n.kept.float?.map fun x => Number.float (if n.negative then -x else x)
  if n.fraction.isSome || n.exponent.isSome then float
  else if !n.negative then if value < UInt64.size then some (.int value) else float
  else if 0 < value ∧ Int64.minValue.toInt ≤ -value then some (.int (-value)) else float

end FilterSql.Json
