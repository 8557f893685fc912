import Surd.ComplexDouble
import Surd.Number
import Surd.Polynomial.Iteration
import Surd.Polynomial.Sweep

/-!
# Roots of polynomials of any degree

The polynomial is divided by its leading coefficient, exactly. Sweeps over complex doubles then
improve estimates that start on a circle, until no estimate moves by more than a tolerance.
-/

namespace Surd.Simultaneous

/-- Roots that an iteration found, and how it ended. -/
structure Solution where
  roots : List Gaussian
  converged : Bool
  iterations : Nat
deriving Repr

abbrev Estimates := List ComplexDouble

/-- The coefficients over the first one. -/
def normalize (coefficients : List Gaussian) : List Gaussian :=
  coefficients.map (·.quotient (coefficients.headD 0))

/-! ## Estimates -/

section
variable (cfg : Settings)

/-- Points at equal angles on the circle of a radius. -/
def circle (radius : Float) (n : Nat) : Estimates :=
  (List.range n).map fun k =>
    let angle := Binary64.ofFloat <|
      2 * Binary64.pi.toFloat * k.toFloat / n.toFloat + cfg.initialPhase.toFloat
    (⟨radius, 0⟩ : ComplexDouble)
      * ⟨(cfg.elementary.cos angle).toFloat, (cfg.elementary.sin angle).toFloat⟩

def initialEstimates (normalized : List ComplexDouble) : Estimates :=
  let others := normalized.drop 1
  circle cfg (Sweep.radius Float.abs (others.map (·.re))) others.length

end

/-- The largest of the distances between two lists of estimates, not-a-number if one is. -/
def change (zs ws : Estimates) : Binary64 :=
  .ofFloat <| (zs.zipWith ComplexDouble.distance ws).foldl
    (fun x y => if x.isNaN then x else if y.isNaN then y else max x y) 0

def step (normalized : List ComplexDouble) (zs : Estimates) : Option (Estimates × Binary64) :=
  (Sweep.sweep ComplexDouble.quotient ComplexDouble.isZero normalized zs).map
    fun ws => (ws, change ws zs)

/-! ## Solving -/

variable (cfg : Settings)

def checkCount (n : Nat) : Except Failure Unit :=
  if n < 2 then throw (.wrongShape .iterative n)
  else if cfg.maxDegree < (n : Int) - 1 then throw (.wrongShape (.iterativeLimit cfg.maxDegree) n)
  else pure ()

/-- The coefficients as doubles, the first of them one. -/
def normalizedDoubles (coefficients : List Number) : Except Failure (List ComplexDouble) := do
  checkCount cfg coefficients.length
  let values ← coefficients.mapM (Number.toGaussian cfg)
  if (values.headD 0).isZero then throw (.zeroLeading none)
  else (normalize values).mapM ComplexDouble.ofGaussian

/-- How the iteration ends, for any step. -/
def finish (step : Estimates → Option (Estimates × Binary64)) (limit : Int) (tolerance : Binary64)
    (start : Estimates) : Except Failure (Run Estimates) :=
  match iterate step (·.lt tolerance) limit.toNat 0 start with
  | none => throw .coincidingEstimates
  | some run => if run.estimate.all ComplexDouble.isFinite then pure run else throw .diverged

def encode (run : Run Estimates) : Except Failure Solution := do
  let roots ← run.estimate.mapM (ComplexDouble.toGaussian cfg)
  pure ⟨roots, run.converged, run.iterations⟩

def run (coefficients : List Number) (limit : Int) (tolerance : Binary64) :
    Except Failure (Run Estimates) := do
  let normalized ← normalizedDoubles cfg coefficients
  finish (step normalized) limit tolerance (initialEstimates cfg normalized)

def solveWithin (limit : Int) (tolerance : Binary64) (coefficients : List Number) :
    Except Failure Solution := do
  let run ← run cfg coefficients limit tolerance
  encode cfg run

def solve : List Number → Except Failure Solution :=
  solveWithin cfg cfg.maxSweeps cfg.sweepTolerance

end Surd.Simultaneous
