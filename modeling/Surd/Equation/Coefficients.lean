import Surd.Equation.Monomial
import Surd.Gaussian

/-!
# Coefficients of an equation

The degree is the highest power that is written, whatever its coefficient. The coefficients are
given from the highest power down; like terms are summed.
-/

namespace Surd.Equation

variable (cfg : Settings)

def monomials (s : List Char) : Except Failure (List Monomial) := do
  let ts ← terms cfg s
  ts.mapM (monomial cfg)

def degree (s : List Char) : Except Failure Nat := do
  let ms ← monomials cfg s
  pure ((ms.map Monomial.power).foldl max 0)

/-- The sum of the coefficients of a power. -/
def coefficientOf (ms : List Monomial) (k : Nat) : Rat :=
  ms.foldl (fun total m => if m.power = k then total + m.coefficient else total) 0

/-- The coefficients of the powers from `n - 1` down to zero. -/
def vector (ms : List Monomial) : Nat → List Rat
  | 0 => []
  | n + 1 => coefficientOf ms n :: vector ms n

/-- A monomial whose power is not above the degree. -/
def monomialWithin (degree : Int) (term : List Char) : Except Failure Monomial := do
  let m ← monomial cfg term
  if degree < m.power then throw (.termAboveDegree (String.ofList term) (quote term) degree)
  else pure m

def coefficients (s : List Char) (degree : Int) : Except Failure (List Gaussian) := do
  if cfg.maxDegree < degree then throw (.degreeTooHigh degree cfg.maxDegree)
  else
    let ts ← terms cfg s
    let ms ← ts.mapM (monomialWithin cfg degree)
    pure ((vector ms (degree + 1).toNat).map .ofRat)

end Surd.Equation
