import Surd.Equation.Coefficients
import Surd.Polynomial.Linear
import Surd.Polynomial.Quartic
import Surd.Polynomial.Simultaneous

/-!
# Solving polynomials and equations

Up to degree four there are formulas. Coefficients are given from the highest power down; above
degree one the first of them has to be different from zero.
-/

namespace Surd

variable (cfg : Settings)

/-! ## Coefficients -/

def nonzero (order : Order) (a : Gaussian) : Except Failure Unit :=
  if a.isZero then throw (.zeroLeading order) else pure ()

def wrongCount (order : Order) (cs : List Number) : Except Failure α :=
  throw (.wrongShape (.closedForm order) cs.length)

def linearCoefficients : List Number → Except Failure (Gaussian × Gaussian)
  | [a, b] => do
    let a ← a.toGaussian cfg
    let b ← b.toGaussian cfg
    pure (a, b)
  | cs => wrongCount .linear cs

def quadraticCoefficients : List Number → Except Failure (Gaussian × Gaussian × Gaussian)
  | [a, b, c] => do
    let a ← a.toGaussian cfg
    let b ← b.toGaussian cfg
    let c ← c.toGaussian cfg
    nonzero .quadratic a
    pure (a, b, c)
  | cs => wrongCount .quadratic cs

def cubicCoefficients :
    List Number → Except Failure (Gaussian × Gaussian × Gaussian × Gaussian)
  | [a, b, c, d] => do
    let a ← a.toGaussian cfg
    let b ← b.toGaussian cfg
    let c ← c.toGaussian cfg
    let d ← d.toGaussian cfg
    nonzero .cubic a
    pure (a, b, c, d)
  | cs => wrongCount .cubic cs

def quarticCoefficients :
    List Number → Except Failure (Gaussian × Gaussian × Gaussian × Gaussian × Gaussian)
  | [a, b, c, d, e] => do
    let a ← a.toGaussian cfg
    let b ← b.toGaussian cfg
    let c ← c.toGaussian cfg
    let d ← d.toGaussian cfg
    let e ← e.toGaussian cfg
    nonzero .quartic a
    pure (a, b, c, d, e)
  | cs => wrongCount .quartic cs

/-! ## By degree -/

def solveLinear (cs : List Number) : Except Failure (List Gaussian) := do
  let (a, b) ← linearCoefficients cfg cs
  Linear.solve a b

def solveQuadratic (cs : List Number) : Except Failure (List Gaussian) := do
  let (a, b, c) ← quadraticCoefficients cfg cs
  Quadratic.solve cfg a b c

/-- Both roots of a quadratic, also where they are equal. -/
def solveQuadraticBoth (cs : List Number) : Except Failure (List Gaussian) := do
  let (a, b, c) ← quadraticCoefficients cfg cs
  Quadratic.solveBoth cfg a b c

def solveCubic (cs : List Number) : Except Failure (List Gaussian) := do
  let (a, b, c, d) ← cubicCoefficients cfg cs
  Cubic.solve cfg a b c d

def solveQuartic (cs : List Number) : Except Failure (List Gaussian) := do
  let (a, b, c, d, e) ← quarticCoefficients cfg cs
  Quartic.solve cfg a b c d e

/-- From degree five up. -/
def solveQuintic (cs : List Number) : Except Failure (List Gaussian) :=
  if cs.length < 6 then throw (.wrongShape .quintic cs.length)
  else do
    let solution ← Simultaneous.solve cfg cs
    pure solution.roots

def solvePolynomial (cs : List Number) : Except Failure (List Gaussian) :=
  match cs.length with
  | 0 | 1 => throw (.wrongShape .polynomial cs.length)
  | 2 => solveLinear cfg cs
  | 3 => solveQuadratic cfg cs
  | 4 => solveCubic cfg cs
  | 5 => solveQuartic cfg cs
  | _ => solveQuintic cfg cs

/-! ## Equations -/

/-- The coefficients of an equation, as numbers. -/
def equationNumbers (s : List Char) (degree : Int) : Except Failure (List Number) := do
  let cs ← Equation.coefficients cfg s degree
  pure (cs.map .gaussian)

/-- The coefficients of an equation of its own degree, but at least of a degree. -/
def equationOf (least : Nat) (s : List Char) : Except Failure (List Number) := do
  let degree ← Equation.degree cfg s
  equationNumbers cfg s (max least degree)

def solveLinearEquation (s : List Char) : Except Failure (List Gaussian) := do
  let cs ← equationNumbers cfg s 1
  solveLinear cfg cs

def solveQuadraticEquation (s : List Char) : Except Failure (List Gaussian) := do
  let cs ← equationNumbers cfg s 2
  solveQuadratic cfg cs

def solveCubicEquation (s : List Char) : Except Failure (List Gaussian) := do
  let cs ← equationNumbers cfg s 3
  solveCubic cfg cs

def solveQuarticEquation (s : List Char) : Except Failure (List Gaussian) := do
  let cs ← equationNumbers cfg s 4
  solveQuartic cfg cs

def solveQuinticEquation (s : List Char) : Except Failure (List Gaussian) := do
  let cs ← equationOf cfg 5 s
  solveQuintic cfg cs

/-- An equation without `x` counts as linear. -/
def solveEquation (s : List Char) : Except Failure (List Gaussian) := do
  let cs ← equationOf cfg 1 s
  solvePolynomial cfg cs

end Surd
