import Surd.Number

/-!
# Linear equations
-/

namespace Surd.Linear

/-- The root of `a x + b`. -/
def solve (a b : Gaussian) : Except Failure (List Gaussian) :=
  if a.isZero then
    if b.isZero then throw .infiniteSolutions
    else do
      let constant ← b.write
      throw (.noSolution (String.ofList constant))
  else pure [(-b).quotient a]

end Surd.Linear
