import Surd.Rational.Functions

/-!
# Complex numbers with rational parts

The four operations and integer powers are exact. Roots, sines and cosines go through doubles.
-/

namespace Surd

structure Gaussian where
  re : Rat
  im : Rat
deriving DecidableEq, Repr

namespace Gaussian

/-! ## Ring operations -/

def ofRat (x : Rat) : Gaussian := ⟨x, 0⟩

def I : Gaussian := ⟨0, 1⟩

instance (n : Nat) : OfNat Gaussian n := ⟨ofRat n⟩
instance : Inhabited Gaussian := ⟨0⟩
instance : IntCast Gaussian := ⟨fun n => ofRat n⟩

instance : Neg Gaussian := ⟨fun z => ⟨-z.re, -z.im⟩⟩
instance : Add Gaussian := ⟨fun z w => ⟨z.re + w.re, z.im + w.im⟩⟩
instance : Sub Gaussian := ⟨fun z w => ⟨z.re - w.re, z.im - w.im⟩⟩
instance : Mul Gaussian :=
  ⟨fun z w => ⟨z.re * w.re - z.im * w.im, z.re * w.im + z.im * w.re⟩⟩

def conjugate (z : Gaussian) : Gaussian := ⟨z.re, -z.im⟩

def modulusSquared (z : Gaussian) : Rat := z.re * z.re + z.im * z.im

def isZero (z : Gaussian) : Bool := z.re == 0 && z.im == 0

def isReal (z : Gaussian) : Bool := z.im == 0

/-- The size in bits of the largest numerator or denominator. -/
def size (z : Gaussian) : Nat := max (Rational.size z.re) (Rational.size z.im)

/-! ## Text -/

/-- The text of an imaginary part. A unit is not written. -/
def writeImaginary (y : Rat) : Except Failure (List Char) :=
  if y = 1 then pure ['i']
  else if y = -1 then pure ['-', 'i']
  else do
    let s ← Rational.write y
    pure (s ++ ['i'])

def write (z : Gaussian) : Except Failure (List Char) :=
  if z.im = 0 then Rational.write z.re
  else if z.re = 0 then writeImaginary z.im
  else do
    let re ← Rational.write z.re
    let im ← writeImaginary z.im.abs
    pure (re ++ ' ' :: (if z.im < 0 then '-' else '+') :: ' ' :: im)

/-- The text that shows all four integers. -/
def writeParts (z : Gaussian) : Except Failure (List Char) := do
  let re ← Rational.writeParts z.re
  let im ← Rational.writeParts z.im
  pure ("Complex(".toList ++ re ++ ", ".toList ++ im ++ [')'])

/-! ## Division and powers -/

/-- The quotient by a number that is not zero. -/
def quotient (z w : Gaussian) : Gaussian :=
  let m := w.modulusSquared
  ⟨(z.re * w.re + z.im * w.im) / m, (z.im * w.re - z.re * w.im) / m⟩

def div (z w : Gaussian) : Except Failure Gaussian := do
  if w.modulusSquared = 0 then
    let dividend ← z.write
    throw (.divisionByZero (String.ofList dividend))
  else pure (z.quotient w)

def inverse (z : Gaussian) : Except Failure Gaussian :=
  let m := z.modulusSquared
  if m = 0 then throw .inverseOfZero else pure ⟨z.re / m, -z.im / m⟩

/-- `result * base ^ n` by repeated squaring. -/
def powLoop (result base : Gaussian) (n : Nat) : Gaussian :=
  if n = 0 then result
  else powLoop (if n % 2 = 1 then result * base else result) (base * base) (n / 2)

def powNat (z : Gaussian) (n : Nat) : Gaussian := powLoop 1 z n

def pow (z : Gaussian) (n : Int) : Except Failure Gaussian :=
  if n < 0 then (z.powNat n.natAbs).inverse else pure (z.powNat n.natAbs)

/-! ## Functions through doubles -/

variable (cfg : Settings)

def ofDoubles (x y : Binary64) : Except Failure Gaussian := do
  let re ← Rational.ofDouble cfg x
  let im ← Rational.ofDouble cfg y
  pure ⟨re, im⟩

def abs (z : Gaussian) : Except Failure Rat := Rational.sqrt cfg z.modulusSquared

/-- An approximate modulus may be a little below the real part. -/
def clamp (x : Rat) : Rat := if 0 < x then x else 0

/-- The principal square root. -/
def sqrt (z : Gaussian) : Except Failure Gaussian :=
  if z.im = 0 then
    if 0 ≤ z.re then do
      let x ← Rational.sqrt cfg z.re
      pure ⟨x, 0⟩
    else do
      let y ← Rational.sqrt cfg (-z.re)
      pure ⟨0, y⟩
  else do
    let m ← z.abs cfg
    let x ← Rational.sqrt cfg (clamp ((m + z.re) / 2))
    let y ← Rational.sqrt cfg (clamp ((m - z.re) / 2))
    pure ⟨x, if z.im < 0 then -y else y⟩

def sin (z : Gaussian) : Except Failure Gaussian := do
  let sa ← Rational.sin cfg z.re
  let cb ← Rational.cosh cfg z.im
  let ca ← Rational.cos cfg z.re
  let sb ← Rational.sinh cfg z.im
  pure ⟨sa * cb, ca * sb⟩

def cos (z : Gaussian) : Except Failure Gaussian := do
  let ca ← Rational.cos cfg z.re
  let cb ← Rational.cosh cfg z.im
  let sa ← Rational.sin cfg z.re
  let sb ← Rational.sinh cfg z.im
  pure ⟨ca * cb, -(sa * sb)⟩

end Gaussian

end Surd
