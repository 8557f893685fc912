/-!
# All roots at once

A sweep improves estimates of all roots of a monic polynomial together: it moves each estimate by
the value of the polynomial there over the product of the differences to the other estimates. It may
be taken over any numbers.
-/

namespace Surd.Sweep

variable {α : Type} [Add α] [Sub α] [Mul α] [OfNat α 0] [OfNat α 1]

/-- The value of a polynomial, by its coefficients from the highest power down. -/
@[specialize]
def horner (coefficients : List α) (z : α) : α :=
  coefficients.foldl (fun y c => y * z + c) 0

/-- The product of the differences between the `i`-th estimate and the others. -/
@[specialize]
def separation (estimates : List α) (i : Nat) (z : α) : α :=
  (estimates.zipIdx.map fun (w, j) => if i = j then 1 else z - w).foldl (· * ·) 1

/-- The next estimates, none if two of the estimates coincide. -/
@[specialize]
def sweep (div : α → α → α) (isZero : α → Bool) (coefficients estimates : List α) :
    Option (List α) :=
  let separations := estimates.zipIdx.map fun (z, i) => separation estimates i z
  if separations.any isZero then none
  else some <| estimates.zipWith (fun z d => z - div (horner coefficients z) d) separations

/-- The radius of a circle around zero that the estimates start from, for the parts of the
coefficients after the first. -/
def radius [Max α] (abs : α → α) (parts : List α) : α := 1 + (parts.map abs).foldl max 0

end Surd.Sweep
