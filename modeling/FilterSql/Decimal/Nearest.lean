import FilterSql.Decimal.Shortest

/-!
# The float nearest to a decimal

`nearest` finds the float closest to `digits * 10 ^ scale`, in exact whole-number arithmetic: the
number is measured in units of the last place that a float of its size has, and rounded to a whole
number of them.  A tie goes to the even mantissa, a number beyond all floats to infinity.
-/

namespace FilterSql.Decimal

/-- the whole number nearest to a ratio; a tie goes to the even one -/
def Ratio.round (r : Ratio) : Nat :=
  let below := r.num / r.den
  let twice := 2 * (r.num % r.den)
  if twice < r.den then below
  else if r.den < twice then below + 1
  else below + below % 2

/-- the ratio in units of `2 ^ exponent` -/
def Ratio.inUnits (r : Ratio) (exponent : Int) : Ratio :=
  ⟨r.num * Nat.pow 2 (-exponent).toNat, r.den * Nat.pow 2 exponent.toNat⟩

/-- the exponent of the last place of a float of this size: with it the ratio has 53 bits, or fewer
next to zero -/
def Ratio.lastPlace (r : Ratio) : Int :=
  let guess := (r.num.log2 : Int) - r.den.log2 - 52
  let units := r.inUnits guess
  max (-1074) (if units.num < leadingBit * units.den then guess - 1 else guess)

def infinityBits : Nat := 0x7FF * leadingBit

def Ratio.nearestBits (r : Ratio) : Nat :=
  let exponent := r.lastPlace
  min infinityBits ((exponent + 1074).toNat * leadingBit + (r.inUnits exponent).round)

/-- the float nearest to `digits * 10 ^ scale` -/
def nearest (digits : Nat) (scale : Int) : Float :=
  if digits = 0 then 0
  else
    let r : Ratio := ⟨digits * Nat.pow 10 scale.toNat, Nat.pow 10 (-scale).toNat⟩
    Float.ofBits r.nearestBits.toUInt64

end FilterSql.Decimal
