import Surd.Display.Exact
import Surd.Number

/-!
# Decimal forms

A number is written with a number of significant digits that the reader chooses.
-/

namespace Surd

/-- The largest precision that a decimal form may ask for. -/
def maxPrecision : Int := 2147483647

namespace Number

/-- The double for a real number, if it is in range. -/
def toDouble? : Number → Option Binary64
  | .int n => (Binary64.ofFraction n).toOption
  | .fraction x => (Binary64.ofFraction x).toOption
  | .double x => some x
  | .complexDouble .. | .gaussian _ => none

/-- The text of a number by itself. -/
def write : Number → Except Failure (List Char)
  | .int n => Text.writeInt n
  | .fraction x => Rational.write x
  | .double x => pure x.write
  | .complexDouble x y => pure (writePair x y)
  | .gaussian z => z.write

end Number

namespace Display

/-- A double with a number of significant digits; zero has no sign. -/
def decimal? (precision : Int) (x : Binary64) : Option (List Char) :=
  if precision < 0 ∨ maxPrecision < precision then none
  else
    let s := x.writeSignificant precision.toNat
    some (if s = ['-', '0'] then ['0'] else s)

def double (precision : Int) (x : Binary64) : List Char := (decimal? precision x).getD x.write

/-- A real number in range as a double, anything else by itself. -/
def number (precision : Int) (x : Number) : Except Failure (List Char) :=
  match x.toDouble?.bind (decimal? precision) with
  | some s => pure s
  | none => x.write

/-- Text that reads as a double, in its decimal form. -/
def numeral (precision : Int) (s : List Char) : List Char :=
  ((Binary64.read s).toOption.bind (decimal? precision)).getD s

/-- The doubles for the parts of a complex number, if both are in range. -/
def doubles? (z : Gaussian) : Option (Binary64 × Binary64) := do
  let x ← (Binary64.ofFraction z.re).toOption
  let y ← (Binary64.ofFraction z.im).toOption
  pure (x, y)

/-- The decimal form of a complex number, for the doubles of its parts. -/
def decimals (f : Format) (z : Gaussian) (x y : Binary64) : List Char :=
  let re := double f.precision x
  let im := double f.precision y.abs ++ ['i']
  if z.im = 0 then re
  else if z.re = 0 then (if y.isNegative then '-' :: im else im)
  else re ++ [' ', if y.isNegative then '-' else '+', ' '] ++ im

/-- The decimal form of a complex number; beyond the range of doubles, the exact form. -/
def approximate (cfg : Settings) (f : Format) (z : Gaussian) : Except Failure (List Char) :=
  (doubles? z).elim (exact cfg f.style z) fun (x, y) => pure (decimals f z x y)

end Display

end Surd
