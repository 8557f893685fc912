import Surd.Display.Decimal
import Surd.Expr.Read
import Surd.LinearSystem
import Surd.Polynomial.Solve
import Surd.Result

/-!
# The calculator

Evaluates expressions and solves equations, polynomials and systems. Failures of the calculation are
part of the result; only misuse and divisions of doubles by zero are passed on.
-/

namespace Surd.Calculator

variable (cfg : Settings) (f : Format)

/-! ## Forms of values -/

def exactForm (z : Gaussian) : Except Failure String := do
  let s ← Display.exact cfg f.style z
  pure (String.ofList s)

def decimalForm (z : Gaussian) : Except Failure String := do
  let s ← Display.approximate cfg f z
  pure (String.ofList s)

def solutionForm (x : String × Gaussian) : Except Failure String := do
  let s ← Display.solution cfg f.style x.1.toList x.2
  pure (String.ofList s)

/-! ## Expressions -/

def value (z : Gaussian) : Except Failure EvalResult := do
  let result ← exactForm cfg f z
  let approx ← decimalForm cfg f z
  pure { ok := true, result, approx }

def evaluated (s : List Char) : Except Failure EvalResult := do
  let z ← Surd.evaluate cfg s
  value cfg f z

def evaluate (s : List Char) : Except Failure EvalResult :=
  match evaluated cfg f s with
  | .ok r => pure r
  | .error e => if e.kind.isCaught then pure (.ofFailure e) else throw e

/-- Why an expression is not accepted, if it is not. -/
def rejection? (s : List Char) : Option String :=
  match Input.prepare cfg s with
  | .ok _ => none
  | .error e => some e.message

/-! ## Polynomials and equations -/

def rootsResult (roots : List Gaussian) (degree : Int) : Except Failure SolveResult := do
  let exact ← roots.mapM (exactForm cfg f)
  let approx ← roots.mapM (decimalForm cfg f)
  pure { ok := true, type := "equation", exact, approx, degree }

/-- Found by iteration from degree five on. -/
def solved (cs : List Number) : Except Failure SolveResult := do
  let degree := (cs.length : Int) - 1
  if 5 ≤ degree then
    let s ← Simultaneous.solve cfg cs
    let r ← rootsResult cfg f s.roots degree
    pure { r with converged := s.converged, iterations := (s.iterations : Int) }
  else
    let roots ← Surd.solvePolynomial cfg cs
    rootsResult cfg f roots degree

/-- The list of coefficients as it is shown with a failure. -/
def showCoefficients (cs : List Number) : Except Failure String := do
  let parts ← cs.mapM Number.writeParts
  pure ("[" ++ ", ".intercalate (parts.map String.ofList) ++ "]")

def solvePolynomial (cs : List Number) : Except Failure SolveResult :=
  match solved cfg f cs with
  | .ok r => pure r
  | .error e =>
    if e.kind.isCaught then do
      let _ ← showCoefficients cs
      pure (.ofFailure "equation" e)
    else throw e

def solveEquation (s : List Char) : Except Failure SolveResult :=
  match equationOf cfg 1 s with
  | .ok cs => solvePolynomial cfg f cs
  | .error e => if e.kind.isCoded then pure (.ofFailure "equation" e) else throw e

/-! ## Systems -/

/-- The equations of a system in one text, with commas between them. -/
def splitSystem (s : List Char) : List (List Char) :=
  ((s.splitOnP (· == ',')).map Text.trim).filter (!·.isEmpty)

def solvedSystem (equations : List (List Char)) : Except Failure SolveResult := do
  let xs ← LinearSystem.solveEquations cfg equations
  let exact ← xs.mapM (solutionForm cfg f)
  let approx ← xs.mapM fun x => decimalForm cfg f x.2
  let values ← xs.mapM fun x => exactForm cfg f x.2
  pure { ok := true, type := "system", exact, approx, solutions := (xs.map (·.1)).zip values }

def solveSystem (equations : List (List Char)) : Except Failure SolveResult :=
  match solvedSystem cfg f equations with
  | .ok r => pure r
  | .error e => if e.kind.isCaught then pure (.ofFailure "system" e) else throw e

/-! ## Any input -/

/-- An input with an equals sign is an equation, or a system if it has commas as well; any other is
an expression. -/
def process (s : List Char) : Except Failure Json :=
  if s.contains '=' then
    if s.contains ',' then (solveSystem cfg f (splitSystem s)).map SolveResult.toJson
    else (solveEquation cfg f s).map SolveResult.toJson
  else (evaluate cfg f s).map fun r =>
    .object (r.fields ++ if r.ok then [("type", .text "value")] else [])

end Surd.Calculator
