import Surd.Binary64.Rounding
import Surd.Text.Integer

/-!
# Points in time

A time is a number of seconds since the start of 1970. It is written as a date and a time of day,
with microseconds if there are any.
-/

namespace Surd

structure Date where
  year : Int
  month : Nat
  day : Nat
deriving DecidableEq, Repr

namespace Date

/-- The date of a day, counted from the start of 1970. Years are counted from March on, so that the
day that is only in leap years comes last. -/
def ofDay (n : Int) : Date :=
  let shifted := n + 719468
  let era := shifted.fdiv 146097
  let dayOfEra := (shifted.fmod 146097).toNat
  let yearOfEra := (dayOfEra - dayOfEra / 1460 + dayOfEra / 36524 - dayOfEra / 146096) / 365
  let dayOfYear := dayOfEra - (365 * yearOfEra + yearOfEra / 4 - yearOfEra / 100)
  let monthFromMarch := (5 * dayOfYear + 2) / 153
  let day := dayOfYear - (153 * monthFromMarch + 2) / 5 + 1
  let month := if monthFromMarch < 10 then monthFromMarch + 3 else monthFromMarch - 9
  { year := yearOfEra + era * 400 + if month ≤ 2 then 1 else 0, month, day }

end Date

namespace Time

/-- Digits with zeros in front up to a width. -/
def padded (width n : Nat) : List Char :=
  let ds := Text.digits n
  List.replicate (width - ds.length) '0' ++ ds

def writeDate (d : Date) : List Char :=
  padded 4 d.year.toNat ++ '-' :: padded 2 d.month ++ '-' :: padded 2 d.day

def writeTimeOfDay (seconds : Nat) : List Char :=
  padded 2 (seconds / 3600) ++ ':' :: padded 2 (seconds / 60 % 60) ++ ':' :: padded 2 (seconds % 60)

/-- The text of a time in microseconds. -/
def write (microseconds : Int) : List Char :=
  let seconds := microseconds.fdiv 1000000
  let rest := (microseconds.fmod 1000000).toNat
  writeDate (.ofDay (seconds.fdiv 86400)) ++ 'T' :: writeTimeOfDay (seconds.fmod 86400).toNat
    ++ if rest = 0 then [] else '.' :: padded 6 rest

/-- A time in seconds, in microseconds. The part after the point is scaled as a double. -/
def ofSeconds (x : Rat) : Int :=
  let whole := if x < 0 then x.ceil else x.floor
  let scaled := Binary64.ofRat ((x - whole) * 1000000)
  whole * 1000000 + roundEven (scaled.value?.getD 0)

end Time

end Surd
