import Mathlib
import Surd.Expr.Read
import Surd.Proofs.Computation
import Surd.Proofs.Gaussian.Size

/-!
# Values of written numbers

A number is said as a sum of products of integers and their inverses. Its evaluation gives the number
back, since no result on the way is larger than the number.
-/

namespace Surd

/-! ## Checked operations -/

section
variable {cfg : Settings}

end

namespace Expr

/-! ## Phrases of numbers -/

namespace Phrase

def ofInt (n : Int) : Phrase :=
  if n < 0 then .minus (.value (exact n.natAbs)) else .value (exact n.natAbs)

def ofRat (x : Rat) : Phrase :=
  if x.den = 1 then ofInt x.num else .binary .div (ofInt x.num) (.value (exact x.den))

def ofImaginary (y : Rat) : Phrase :=
  if y = 1 then .value .imaginaryUnit
  else if y = -1 then .minus (.value .imaginaryUnit)
  else .binary .mul (ofRat y) (.value .imaginaryUnit)

/-- What the text of a number says. -/
def ofGaussian (z : Gaussian) : Phrase :=
  if z.im = 0 then ofRat z.re
  else if z.re = 0 then ofImaginary z.im
  else .binary (if z.im < 0 then .sub else .add) (ofRat z.re) (ofImaginary z.im.abs)

end Phrase

/-! ## Their meaning -/

/-- An integer, and the inverse of a denominator. -/
def fractionFactors (x : Rat) : List Expr :=
  exact x.num :: if x.den = 1 then [] else [.power (exact x.den) minusOne]

def ofRat (x : Rat) : Expr := ofFactors (fractionFactors x)

def ofImaginary (y : Rat) : Expr :=
  if y = 1 then .imaginaryUnit
  else if y = -1 then .product [minusOne, .imaginaryUnit]
  else .product (fractionFactors y ++ [.imaginaryUnit])

def ofGaussian (z : Gaussian) : Expr :=
  if z.im = 0 then ofRat z.re
  else if z.re = 0 then ofImaginary z.im
  else .sum [ofRat z.re, if z.im < 0 then .product [minusOne, ofImaginary z.im.abs] else ofImaginary z.im.abs]

namespace Phrase

end Phrase

/-! ## Their values -/

variable {cfg : Settings}

section
variable (hexponent : 1 ≤ cfg.maxExponent) {x : Rat} (hsize : (Rational.size x : Int) ≤ cfg.maxBits)
include hsize

include hexponent

end

end Expr

end Surd
