import Surd.Equation.SystemRow
import Surd.Number

/-!
# Linear systems

Two or three linear equations in as many unknowns are solved exactly by elimination. In each column
the equation whose coefficient has the largest real part becomes the pivot; that comparison is made
on doubles.
-/

namespace Surd.LinearSystem

/-- An equation: the sum of the unknowns times their coefficients is the constant. -/
structure Row where
  coefficients : List Gaussian
  constant : Gaussian
deriving DecidableEq, Repr

namespace Row

/-- The coefficient of the first unknown. -/
def lead (r : Row) : Gaussian := r.coefficients.headD 0

/-- The equation without its first unknown, of which a multiple of the pivot is taken away. -/
def reduce (pivot r : Row) : Except Failure Row := do
  let factor ← r.lead.div pivot.lead
  pure
    { coefficients := r.coefficients.tail.zipWith (fun x p => x - factor * p) pivot.coefficients.tail
      constant := r.constant - factor * pivot.constant }

/-- The first unknown, where the others are known. -/
def solveFirst (r : Row) (others : List Gaussian) : Except Failure Gaussian :=
  let total := (r.coefficients.tail.zip others).foldl (fun t (a, x) => t - a * x) r.constant
  total.div r.lead

end Row

/-! ## Pivots -/

/-- The size by which pivots are chosen. -/
def weight (r : Row) : Except Failure Binary64 := (Binary64.ofFraction r.lead.re).map Binary64.abs

/-- The place of the first of the largest weights, which are numbered from a place on, where a best
one has been found. -/
def heaviest (best : Binary64) (bestPlace place : Nat) : List Binary64 → Nat
  | [] => bestPlace
  | w :: rest =>
    if best.lt w then heaviest w place (place + 1) rest
    else heaviest best bestPlace (place + 1) rest

/-- The rows with the first one and the one at a place exchanged. -/
def bringToFront (first : Row) (rest : List Row) : Nat → Row × List Row
  | 0 => (first, rest)
  | i + 1 => (rest.getD i first, rest.set i first)

/-- The pivot and the other rows. -/
def choosePivot (first : Row) (rest : List Row) : Except Failure (Row × List Row) := do
  let best ← weight first
  let weights ← rest.mapM weight
  pure (bringToFront first rest (heaviest best 0 1 weights))

/-! ## Elimination -/

/-- The unknowns from a column on, as many as there are rows. -/
def eliminate (column : Nat) : Nat → List Row → Except Failure (List Gaussian)
  | n + 1, first :: rest => do
    let (pivot, others) ← choosePivot first rest
    if pivot.lead.isZero then throw (.singular column)
    else
      let reduced ← others.mapM pivot.reduce
      let xs ← eliminate (column + 1) n reduced
      let x ← pivot.solveFirst xs
      pure (x :: xs)
  | _, _ => pure []

/-- Only two or three equations are solved. -/
def isSupported (n : Nat) : Bool := n == 2 || n == 3

variable (cfg : Settings)

/-- A row of an augmented matrix of a size. -/
def readRow (size : Nat) (entries : List Number) : Except Failure Row := do
  if entries.length ≠ size + 1 then throw (.wrongShape (.row size) entries.length)
  else
    let values ← entries.mapM (Number.toGaussian cfg)
    pure ⟨values.take size, values.getD size 0⟩

/-- The unknowns with their names. -/
def named (xs : List Gaussian) : List (String × Gaussian) :=
  xs.zipIdx.map fun (x, i) => (s!"x{i + 1}", x)

/-- The solution of an augmented matrix. -/
def solve (matrix : List (List Number)) : Except Failure (List (String × Gaussian)) := do
  let n := matrix.length
  if !isSupported n then throw (.wrongShape .matrix n)
  else
    let rows ← matrix.mapM (readRow cfg n)
    let xs ← eliminate 0 n rows
    pure (named xs)

/-! ## Equations -/

def equationRow (size : Nat) (s : List Char) : Except Failure (List Number) := do
  let row ← Equation.systemRow cfg s size
  pure (row.map .gaussian)

def solveEquations (equations : List (List Char)) : Except Failure (List (String × Gaussian)) := do
  let n := equations.length
  if !isSupported n then throw (.wrongShape .equations n)
  else
    let matrix ← equations.mapM (equationRow cfg n)
    solve cfg matrix

/-- The solution of exactly as many equations. -/
def solveSquare (size : Nat) (equations : List (List Char)) :
    Except Failure (List (String × Gaussian)) :=
  if equations.length ≠ size then throw (.wrongShape (.square size) equations.length)
  else solveEquations cfg equations

end Surd.LinearSystem
