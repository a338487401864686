/-!
# The shortest decimal that reads back as a float

`Binary.ofFloat` takes a finite float apart into a whole number times a power of two.
`shortest` finds the decimal with the fewest digits inside the interval of reals that round to the
float: for `1, 2, …, 17` digits it tests the two neighbours of the value on the decimal grid, in
exact whole-number arithmetic.  The first grid with a hit wins, of two hits the nearer one.
-/

namespace FilterSql.Decimal

/-! ## the value of a float -/

/-- the magnitude `mantissa * 2 ^ exponent` of a finite float -/
structure Binary where
  mantissa : Nat
  exponent : Int

def isNegative (x : Float) : Bool := x.toBits >>> 63 = 1

def exponentBits (x : Float) : Nat := ((x.toBits >>> 52) &&& 0x7FF).toNat

def fractionBits (x : Float) : Nat := (x.toBits &&& 0xFFFFFFFFFFFFF).toNat

def isNaN (x : Float) : Bool := exponentBits x = 0x7FF && fractionBits x ≠ 0

def isInfinite (x : Float) : Bool := exponentBits x = 0x7FF && fractionBits x = 0

def isZero (x : Float) : Bool := exponentBits x = 0 && fractionBits x = 0

/-- two floats are equal as numbers: no NaN is, and both zeros are one number -/
def sameNumber (x y : Float) : Bool :=
  !isNaN x && !isNaN y && (x.toBits = y.toBits || (isZero x && isZero y))

/-- the least mantissa of 53 bits -/
def leadingBit : Nat := 0x10000000000000

def Binary.ofFloat (x : Float) : Binary :=
  if exponentBits x = 0 then ⟨fractionBits x, -1074⟩
  else ⟨leadingBit + fractionBits x, (exponentBits x : Int) - 1075⟩

/-! ## the interval that rounds to a float

All numbers of this section are multiples of a quarter of the float's last place. -/

/-- twice the distance to the upper end -/
def Binary.upper (b : Binary) : Nat := 4 * b.mantissa + 2

/-- the lower end is nearer below a power of two -/
def Binary.lower (b : Binary) : Nat :=
  if b.mantissa = leadingBit ∧ -1074 < b.exponent then 4 * b.mantissa - 1 else 4 * b.mantissa - 2

/-- the ends belong to the interval exactly for an even mantissa -/
def Binary.closed (b : Binary) : Bool := b.mantissa % 2 = 0

/-- a positive rational number -/
structure Ratio where
  num : Nat
  den : Nat

/-- `n` quarters of the last place of `b`, in units of `10 ^ scale` -/
def Binary.quarters (b : Binary) (scale : Int) (n : Nat) : Ratio :=
  let two := b.exponent - 2
  let num := n * Nat.pow 2 two.toNat * Nat.pow 10 (-scale).toNat
  let den := Nat.pow 2 (-two).toNat * Nat.pow 10 scale.toNat
  ⟨num, den⟩

/-- the grid point `n` at `scale` lies in the interval of `b` -/
def Binary.covers (b : Binary) (scale : Int) (n : Nat) : Bool :=
  let lo := b.quarters scale b.lower
  let hi := b.quarters scale b.upper
  if b.closed then lo.num ≤ n * lo.den && n * hi.den ≤ hi.num
  else lo.num < n * lo.den && n * hi.den < hi.num

/-! ## the search -/

/-- what to do with a value half-way between two decimals of the shortest length -/
inductive Tie where
  | up
  | even
  deriving DecidableEq

/-- a decimal `digits * 10 ^ scale` -/
structure Shortest where
  digits : Nat
  scale : Int

/-- the grid point of `b` at `scale`: the nearer of the two neighbours that `b` covers -/
def Binary.onGrid (b : Binary) (tie : Tie) (scale : Int) : Option Shortest :=
  let value := b.quarters scale (4 * b.mantissa)
  let below := value.num / value.den
  let twice := 2 * (value.num % value.den)
  match b.covers scale below, b.covers scale (below + 1) with
  | false, false => none
  | true, false => some ⟨below, scale⟩
  | false, true => some ⟨below + 1, scale⟩
  | true, true =>
    if twice < value.den then some ⟨below, scale⟩
    else if value.den < twice then some ⟨below + 1, scale⟩
    else match tie with
      | .up => some ⟨below + 1, scale⟩
      | .even => if below % 2 = 0 then some ⟨below, scale⟩ else some ⟨below + 1, scale⟩

/-- the exponent of the leading decimal digit, found by counting down from `guess` -/
def Binary.leading (b : Binary) (guess : Int) : Nat → Int
  | 0 => guess
  | fuel + 1 =>
    let value := b.quarters guess (4 * b.mantissa)
    if value.den ≤ value.num then guess else b.leading (guess - 1) fuel

/-- the first of the grids `scale, scale - 1, …` with a hit -/
def Binary.search (b : Binary) (tie : Tie) (scale : Int) : Nat → Shortest
  | 0 => ⟨4 * b.mantissa, scale⟩
  | fuel + 1 =>
    match b.onGrid tie scale with
    | some s => s
    | none => b.search tie (scale - 1) fuel

/-- an exponent of ten that is not below the leading one, from the length in bits -/
def Binary.guess (b : Binary) : Int :=
  (b.mantissa.log2 + 1 + b.exponent) * 30103 / 100000 + 1

/-- the shortest decimal of a finite float other than zero -/
def shortest (tie : Tie) (x : Float) : Shortest :=
  let b := Binary.ofFloat x
  b.search tie (b.leading b.guess 400) 20

end FilterSql.Decimal
