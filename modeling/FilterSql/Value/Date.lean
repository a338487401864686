/-!
# Calendar dates and points in time

`Date` is a day of the proleptic Gregorian calendar and `Timestamp` a point in coordinated universal
time, counted in seconds from the start of 1970.  Both are written as in RFC 3339: a year outside
`0000 … 9999` takes a sign, a fraction of a second has the fewest of 0, 3, 6 or 9 digits that lose
nothing, and a leap second is second 60.
-/

namespace FilterSql

/-- a day: year, month and day of the month, counted from one -/
structure Date where
  year : Int
  month : Nat
  day : Nat
  deriving DecidableEq

/-- a point in time: whole seconds since 1970 and nanoseconds; a second inside a leap second has
`10 ^ 9` nanoseconds or more -/
structure Timestamp where
  seconds : Int
  nanos : Nat
  deriving DecidableEq

/-- the decimal digits of `n`, with zeros in front up to `width` -/
def padded (width n : Nat) : String :=
  let digits := Nat.toDigits 10 n
  String.ofList (List.replicate (width - digits.length) '0' ++ digits)

/-- four digits, with a sign outside `0 … 9999` -/
def yearText (y : Int) : String :=
  if 0 ≤ y ∧ y ≤ 9999 then padded 4 y.toNat
  else (if y < 0 then "-" else "+") ++ padded 4 y.natAbs

def Date.text (d : Date) : String :=
  yearText d.year ++ "-" ++ padded 2 d.month ++ "-" ++ padded 2 d.day

/-- the day that lies `n` days after the first of January 1970, by eras of 400 years from the first
of March of year zero -/
def Date.ofDayNumber (n : Int) : Date :=
  let shifted := n + 719468
  let era := shifted / 146097
  let dayOfEra := (shifted % 146097).toNat
  let yearOfEra := (dayOfEra - dayOfEra / 1460 + dayOfEra / 36524 - dayOfEra / 146096) / 365
  let dayOfYear := dayOfEra - (365 * yearOfEra + yearOfEra / 4 - yearOfEra / 100)
  let marchMonth := (5 * dayOfYear + 2) / 153
  let day := dayOfYear - (153 * marchMonth + 2) / 5 + 1
  let month := if marchMonth < 10 then marchMonth + 3 else marchMonth - 9
  let year := (yearOfEra : Int) + era * 400
  ⟨if month ≤ 2 then year + 1 else year, month, day⟩

/-- the fraction of a second, with the fewest digits that lose nothing -/
def fractionText (nanos : Nat) : String :=
  if nanos = 0 then ""
  else if nanos % 1000000 = 0 then "." ++ padded 3 (nanos / 1000000)
  else if nanos % 1000 = 0 then "." ++ padded 6 (nanos / 1000)
  else "." ++ padded 9 nanos

def Timestamp.text (t : Timestamp) : String :=
  let ofDay := (t.seconds % 86400).toNat
  let leap := t.nanos / 1000000000
  (Date.ofDayNumber (t.seconds / 86400)).text ++ "T" ++ padded 2 (ofDay / 3600) ++ ":" ++
    padded 2 (ofDay / 60 % 60) ++ ":" ++ padded 2 (ofDay % 60 + leap) ++
    fractionText (t.nanos % 1000000000) ++ "Z"

end FilterSql
