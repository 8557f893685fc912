import Surd.Gaussian

/-!
# Numbers of any kind

Coefficients come as integers, fractions, doubles, and complex numbers with parts of these kinds.
All of them stand for a complex number with rational parts.
-/

namespace Surd

inductive Number where
  | int (n : Int)
  | fraction (x : Rat)
  | double (x : Binary64)
  | complexDouble (re im : Binary64)
  | gaussian (z : Gaussian)
deriving DecidableEq, Repr

namespace Number

variable (cfg : Settings)

def toRat : Number → Except Failure Rat
  | .int n => pure n
  | .fraction x => pure x
  | .double x => Rational.ofDouble cfg x
  | .complexDouble .. => throw (.notRationalPart "complex")
  | .gaussian _ => throw (.notRationalPart "Complex")

def toGaussian : Number → Except Failure Gaussian
  | .gaussian z => pure z
  | .complexDouble x y => Gaussian.ofDoubles cfg x y
  | x => do
    let q ← x.toRat cfg
    pure (.ofRat q)

/-- The exact value of a number without doubles. -/
def withoutDoubles : Number → Option Gaussian
  | .int n => some n
  | .fraction x => some (.ofRat x)
  | .gaussian z => some z
  | .double _ | .complexDouble .. => none

/-! ## Text -/

/-- The shortest text of a double, without a point if there is no fraction. -/
def writePart (x : Binary64) : List Char :=
  let s := x.write
  if s.drop (s.length - 2) = ".0".toList then s.take (s.length - 2) else s

/-- The parts of a complex double in brackets; a positive zero real part is left out. -/
def writePair (x y : Binary64) : List Char :=
  let im := writePart y
  if x = 0 then im ++ ['j']
  else
    let sign := if im.head? = some '-' then [] else ['+']
    '(' :: writePart x ++ sign ++ im ++ ['j', ')']

/-- The text that shows the kind and all parts of a number. -/
def writeParts : Number → Except Failure (List Char)
  | .int n => Text.writeInt n
  | .fraction x => Rational.writeParts x
  | .double x => pure x.write
  | .complexDouble x y => pure (writePair x y)
  | .gaussian z => z.writeParts

end Number

end Surd
