import Surd.Polynomial.Cubic
import Surd.Polynomial.Quadratic

/-!
# Quartic equations

The substitution `x = y - b / 4a` leaves `y⁴ + p y² + q y + r`. A root `m` of the resolvent cubic
`m³ + 2p m² + (p² - 4r) m - q²` splits it into two quadratics, whose roots are exact up to their
square roots.
-/

namespace Surd.Quartic

structure Depressed where
  p : Gaussian
  q : Gaussian
  r : Gaussian
  shift : Gaussian
deriving DecidableEq, Repr

def depress (a b c d e : Gaussian) : Depressed where
  p := (8 * a * c - 3 * (b * b)).quotient (8 * (a * a))
  q := (b * b * b - 4 * a * b * c + 8 * (a * a) * d).quotient (8 * (a * a * a))
  r := (-3 * (b * b) * (b * b) + 256 * (a * a * a) * e - 64 * (a * a) * b * d
      + 16 * a * (b * b) * c).quotient (256 * (a * a * a * a))
  shift := b.quotient (4 * a)

/-- The first positive root, else the first that is not zero, else the first. -/
def pickRoot (roots : List Gaussian) : Gaussian :=
  match roots.find? fun m => m.isReal && decide (0 < m.re) with
  | some m => m
  | none => (roots.find? fun m => !m.isZero).getD (roots.headD 0)

namespace Depressed

/-- The coefficients of the resolvent cubic after the first, which is one. -/
def resolvent (t : Depressed) : Gaussian × Gaussian × Gaussian :=
  (2 * t.p, t.p * t.p - 4 * t.r, -(t.q * t.q))

/-- The constants of the quadratics `y² + s y + u` and `y² - s y + v`, for a square root `s` of a
root `m` of the resolvent cubic. -/
def split (t : Depressed) (m s : Gaussian) : Gaussian × Gaussian :=
  let half := (t.p + m).quotient 2
  let correction := if s.isZero then 0 else t.q.quotient (2 * s)
  (half - correction, half + correction)

variable (cfg : Settings)

def resolventRoot (t : Depressed) : Except Failure Gaussian := do
  let (b, c, d) := t.resolvent
  let roots ← Cubic.solve cfg 1 b c d
  pure (pickRoot roots)

/-- The four roots of the quartic, for a root of the resolvent cubic. -/
def roots (t : Depressed) (m : Gaussian) : Except Failure (List Gaussian) := do
  let s ← m.sqrt cfg
  let (u, v) := t.split m s
  let ys ← Quadratic.solveBoth cfg 1 s u
  let zs ← Quadratic.solveBoth cfg 1 (-s) v
  pure ((ys ++ zs).map (· - t.shift))

end Depressed

/-- The four roots of `a x⁴ + b x³ + c x² + d x + e`. -/
def solve (cfg : Settings) (a b c d e : Gaussian) : Except Failure (List Gaussian) := do
  let t := depress a b c d e
  let m ← t.resolventRoot cfg
  t.roots cfg m

end Surd.Quartic
