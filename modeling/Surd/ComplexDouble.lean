import Surd.Gaussian

/-!
# Complex numbers with doubles as parts

The quotient scales by the larger part of the divisor, so that its square does not overflow.
-/

namespace Surd

structure ComplexDouble where
  re : Float
  im : Float
deriving Repr

namespace ComplexDouble

instance : OfNat ComplexDouble 0 := ⟨⟨0, 0⟩⟩
instance : OfNat ComplexDouble 1 := ⟨⟨1, 0⟩⟩
instance : Inhabited ComplexDouble := ⟨0⟩

instance : Add ComplexDouble := ⟨fun z w => ⟨z.re + w.re, z.im + w.im⟩⟩
instance : Sub ComplexDouble := ⟨fun z w => ⟨z.re - w.re, z.im - w.im⟩⟩
instance : Mul ComplexDouble :=
  ⟨fun z w => ⟨z.re * w.re - z.im * w.im, z.re * w.im + z.im * w.re⟩⟩

def quotient (z w : ComplexDouble) : ComplexDouble :=
  if w.re.abs ≥ w.im.abs then
    let ratio := w.im / w.re
    let scale := 1 / (w.re + w.im * ratio)
    ⟨(z.re + z.im * ratio) * scale, (z.im - z.re * ratio) * scale⟩
  else
    let ratio := w.re / w.im
    let scale := 1 / (w.im + w.re * ratio)
    ⟨(z.re * ratio + z.im) * scale, (z.im * ratio - z.re) * scale⟩

def isZero (z : ComplexDouble) : Bool := z.re == 0 && z.im == 0

def isFinite (z : ComplexDouble) : Bool :=
  (Binary64.ofFloat z.re).isFinite && (Binary64.ofFloat z.im).isFinite

/-- The sum of the distances of the parts. -/
def distance (z w : ComplexDouble) : Float := (z.re - w.re).abs + (z.im - w.im).abs

/-! ## Exchange with fractions -/

def ofGaussian (z : Gaussian) : Except Failure ComplexDouble := do
  let x ← Binary64.ofFraction z.re
  let y ← Binary64.ofFraction z.im
  pure ⟨x.toFloat, y.toFloat⟩

def toGaussian (cfg : Settings) (z : ComplexDouble) : Except Failure Gaussian :=
  Gaussian.ofDoubles cfg (.ofFloat z.re) (.ofFloat z.im)

end ComplexDouble

end Surd
