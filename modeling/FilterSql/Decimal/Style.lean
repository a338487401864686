import FilterSql.Decimal.Shortest

/-!
# How a float is written

`Style` records the decisions of one written form of floats, and `Style.write` carries them out on
the shortest digits.  `Style.plain` never uses an exponent; `Style.json` is the form inside JSON
text.
-/

namespace FilterSql.Decimal

/-- the decisions of one written form of floats -/
structure Style where
  /-- the exponents of the leading digit that are written without an exponent part -/
  positional : Int → Bool
  /-- the text after the digits of a whole number -/
  wholeEnd : String
  /-- the sign of an exponent that is not negative -/
  plus : String
  tie : Tie
  nan : String
  infinity : String

/-- no exponent part ever, and no point in a whole number -/
def Style.plain : Style where
  positional _ := true
  wholeEnd := ""
  plus := ""
  tie := .up
  nan := "NaN"
  infinity := "inf"

/-- from `0.00001` up to sixteen whole digits a point is always written; beyond that an exponent
part follows, with a sign -/
def Style.json : Style where
  positional e := -5 ≤ e && e ≤ 15
  wholeEnd := ".0"
  plus := "+"
  tie := .even
  nan := "null"
  infinity := "null"

/-- the digits without the zeros at their end, and how many those are -/
def dropZeros (digits : List Char) : List Char × Nat :=
  let kept := (digits.reverse.dropWhile (· = '0')).reverse
  (kept, digits.length - kept.length)

/-- the digits with the point after the first `whole` of them -/
def pointed (style : Style) (digits : List Char) (whole : Int) : String :=
  if whole ≤ 0 then
    "0." ++ String.ofList (List.replicate (-whole).toNat '0' ++ digits)
  else if (digits.length : Int) ≤ whole then
    String.ofList (digits ++ List.replicate (whole.toNat - digits.length) '0') ++ style.wholeEnd
  else
    String.ofList (digits.take whole.toNat) ++ "." ++ String.ofList (digits.drop whole.toNat)

def scientific (style : Style) (digits : List Char) (exponent : Int) : String :=
  let fraction := match digits.tail with
    | [] => ""
    | rest => "." ++ String.ofList rest
  let sign := if exponent < 0 then "-" else style.plus
  String.ofList (digits.take 1) ++ fraction ++ "e" ++ sign ++ toString exponent.natAbs

def Style.magnitude (style : Style) (x : Float) : String :=
  if isInfinite x then style.infinity
  else if isZero x then "0" ++ style.wholeEnd
  else
    let s := shortest style.tie x
    let (digits, dropped) := dropZeros (Nat.toDigits 10 s.digits)
    let exponent := s.scale + dropped + digits.length - 1
    if style.positional exponent then pointed style digits (exponent + 1)
    else scientific style digits exponent

def Style.write (style : Style) (x : Float) : String :=
  if isNaN x then style.nan
  else if isNegative x then "-" ++ style.magnitude x
  else style.magnitude x

def isFinite (x : Float) : Bool := exponentBits x ≠ 0x7FF

end FilterSql.Decimal
