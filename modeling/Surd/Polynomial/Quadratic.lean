import Surd.Number

/-!
# Quadratic equations

All but the square root of the discriminant is exact.
-/

namespace Surd.Quadratic

/-- The discriminant of `a x² + b x + c`. -/
def discriminant (a b c : Gaussian) : Gaussian := b * b - 4 * a * c

/-- The roots that a square root `s` of the discriminant gives. -/
def roots (a b s : Gaussian) : Gaussian × Gaussian :=
  ((-b + s).quotient (2 * a), (-b - s).quotient (2 * a))

def collapse (x y : Gaussian) : List Gaussian := if x = y then [x] else [x, y]

variable (cfg : Settings)

def pair (a b c : Gaussian) : Except Failure (Gaussian × Gaussian) := do
  let s ← (discriminant a b c).sqrt cfg
  pure (roots a b s)

/-- Both roots, also where they are equal. -/
def solveBoth (a b c : Gaussian) : Except Failure (List Gaussian) := do
  let (x, y) ← pair cfg a b c
  pure [x, y]

/-- The different roots. -/
def solve (a b c : Gaussian) : Except Failure (List Gaussian) := do
  let (x, y) ← pair cfg a b c
  pure (collapse x y)

end Surd.Quadratic
