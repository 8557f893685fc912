import Surd.Binary64.Rounding
import Surd.Text.Integer

/-!
# Doubles as decimal text

Two forms: the shortest decimal that reads back as the same double, and the decimal with a given
number of significant digits. Both are positional for moderate exponents and scientific otherwise.
-/

namespace Surd

/-- The exponent of the leading decimal digit of a positive number. -/
def leadingExponent (x : Rat) : Int :=
  let n := x.num.natAbs
  let guess : Int := (Text.digits n).length - (Text.digits x.den).length
  let reached :=
    if guess < 0 then x.den ≤ n * Nat.pow 10 guess.natAbs else x.den * Nat.pow 10 guess.natAbs ≤ n
  if reached then guess else guess - 1

def powerOfTen (e : Int) : Rat :=
  if e < 0 then mkRat 1 (Nat.pow 10 e.natAbs) else (Nat.pow 10 e.natAbs : Nat)

namespace Binary64

/-! ## Shortest digits -/

/-- The interval of the numbers that round to a positive rank, in units of 2^-1075. -/
def roundingInterval (rank : Nat) : Nat × Nat :=
  (unitsOf (rank - 1) + unitsOf rank, unitsOf rank + unitsOf (rank + 1))

/-- Whether a number rounds to a positive rank. The ends round to the even neighbour. -/
def roundsTo (rank : Nat) (x : Rat) : Bool :=
  let (low, high) := roundingInterval rank
  let units := x * (Nat.pow 2 1075 : Nat)
  if rank % 2 = 0 then (low : Rat) ≤ units && units ≤ high else (low : Rat) < units && units < high

/-- The better of the two neighbours of a magnitude on a decimal grid, if one rounds to it. -/
def neighbour? (rank : Nat) (grid : Int) : Option Nat :=
  let x := magnitude rank
  let step := powerOfTen grid
  let below := (x / step).floor.natAbs
  let fits (d : Nat) : Bool := roundsTo rank (d * step)
  match fits below, fits (below + 1) with
  | true, true => some (roundEven (x / step)).natAbs
  | true, false => some below
  | false, true => some (below + 1)
  | false, false => none

/-- The fewest digits of a positive rank, and the exponent of the last of them. -/
def shortestDigits (rank : Nat) : Nat × Int :=
  let top := leadingExponent (magnitude rank)
  ((List.range 17).findSome? fun (k : Nat) =>
    let grid := top - (k : Int)
    (neighbour? rank grid).map fun d => (d, grid)).getD (0, 0)

/-! ## Layout -/

def withSign (negative : Bool) (s : List Char) : List Char := if negative then '-' :: s else s

/-- The exponent mark, a sign, and at least two digits. -/
def writeExponent (e : Int) : List Char :=
  let ds := Text.digits e.natAbs
  'e' :: (if e < 0 then '-' else '+') :: (List.replicate (2 - ds.length) '0' ++ ds)

/-- The digits without zeros at the end, but at least one digit. -/
def withoutZeros (ds : List Char) : List Char :=
  match Text.dropTrailing (· == '0') ds with
  | [] => ['0']
  | short => short

/-- Digits with a point after the first of them, if others follow. -/
def pointAfterFirst : List Char → List Char
  | [] => []
  | [d] => [d]
  | d :: ds => d :: '.' :: ds

def scientific (ds : List Char) (e : Int) : List Char := pointAfterFirst ds ++ writeExponent e

/-- Digits in their places, the first one at the power `e` of ten. -/
def positional (ds : List Char) (e : Int) : List Char :=
  if e < 0 then '0' :: '.' :: (List.replicate (e.natAbs - 1) '0' ++ ds)
  else
    let whole := e.natAbs + 1
    let padded := ds ++ List.replicate (whole - ds.length) '0'
    match padded.drop whole with
    | [] => padded
    | fraction => padded.take whole ++ '.' :: fraction

/-- The shortest text that reads back. It has a point or an exponent. -/
def write : Binary64 → List Char
  | .nan => "nan".toList
  | .infinite negative => withSign negative "inf".toList
  | .finite negative rank =>
    if rank.val = 0 then withSign negative "0.0".toList
    else
      let (d, grid) := shortestDigits rank
      let all := Text.digits d
      let e := grid + all.length - 1
      let ds := withoutZeros all
      withSign negative <|
        if e < -4 ∨ 16 ≤ e then scientific ds e
        else if ds.length ≤ e + 1 then positional ds e ++ ".0".toList
        else positional ds e

/-! ## Significant digits -/

/-- No double has more digits than this after its first one. -/
def maxDigits : Nat := 800

/-- A positive number with `n` digits: the digits and the exponent of the first one. -/
def roundDigits (n : Nat) (x : Rat) : List Char × Int :=
  let e := leadingExponent x
  let ds := Text.digits (roundEven (x / powerOfTen (e - n + 1))).natAbs
  (ds.take n, if n < ds.length then e + 1 else e)

/-- The text with a number of significant digits, zeros at the end left out. -/
def writeSignificant (precision : Nat) : Binary64 → List Char
  | .nan => "nan".toList
  | .infinite negative => withSign negative "inf".toList
  | .finite negative rank =>
    let n := max precision 1
    if rank.val = 0 then withSign negative ['0']
    else
      let (all, e) := roundDigits (min n maxDigits) (magnitude rank)
      let ds := withoutZeros all
      withSign negative (if e < -4 ∨ n ≤ e then scientific ds e else positional ds e)

end Binary64

end Surd
