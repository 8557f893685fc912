import Surd.Calculator
import Surd.Journal.Entry

/-!
# What a calculation writes into the journal

The entries of a calculation are given apart from its result. They follow its steps as far as those
succeed.
-/

namespace Surd.Trace

/-- The entries for a step, if it succeeds. -/
def onSuccess (step : Except Failure α) (entries : α → List Entry) : List Entry :=
  match step with
  | .ok x => entries x
  | .error _ => []

/-- The entries for the failure of a step, if it fails. -/
def onFailure (step : Except Failure α) (entries : Failure → List Entry) : List Entry :=
  match step with
  | .ok _ => []
  | .error e => entries e

variable (cfg : Settings)

/-! ## Expressions -/

def quote (s : List Char) : String := String.ofList (Text.quoted s)

def expression (s : List Char) : List Entry :=
  onFailure (Input.prepare cfg s) fun
    | .forbiddenToken t =>
      [.warning "expression" <|
        "Blocked input containing forbidden token " ++ quote t.toList
          ++ s!" (length {(Text.trim s).length})"]
    | _ => []

/-! ## Polynomials -/

def describeCase : Cubic.Case → String
  | .tripleRoot => "triple root"
  | .doubleRoot => "double root"
  | .oneReal => "one real root and a complex pair"
  | .threeReal => "three real roots"

def cubic (a b c d : Gaussian) : List Entry :=
  onSuccess (Cubic.depressReal cfg a b c d) fun t =>
    [.debug "solver" ("Cubic: " ++ describeCase (t.case (Cubic.doubles cfg) cfg.caseThreshold))]

def quartic (a b c d e : Gaussian) : List Entry :=
  let t := Quartic.depress a b c d e
  let (b, c, d) := t.resolvent
  cubic cfg 1 b c d ++ onSuccess (t.resolventRoot cfg >>= Gaussian.write) fun m =>
    [.debug "solver" ("Quartic: resolvent root m = " ++ String.ofList m)]

def iteration (cs : List Number) (limit : Int) (tolerance : Binary64) : List Entry :=
  onSuccess (Simultaneous.run cfg cs limit tolerance) fun r =>
    [.debug "iterative" <|
      s!"Durand-Kerner degree {r.estimate.length}: converged=" ++ Fields.truth r.converged
        ++ s!" after {r.iterations} iterations"]

/-- A warning, if the iteration has not converged. -/
def unfinished (part rest : String) (cs : List Number) : List Entry :=
  onSuccess (Simultaneous.solve cfg cs) fun s =>
    if s.converged then []
    else
      [.warning part (s!"Durand-Kerner did not converge within {s.iterations} iterations" ++ rest)]

def simultaneous (cs : List Number) : List Entry :=
  iteration cfg cs cfg.maxSweeps cfg.sweepTolerance

def solveCubic (cs : List Number) : List Entry :=
  onSuccess (cubicCoefficients cfg cs) fun (a, b, c, d) => cubic cfg a b c d

def solveQuartic (cs : List Number) : List Entry :=
  onSuccess (quarticCoefficients cfg cs) fun (a, b, c, d, e) => quartic cfg a b c d e

def solveQuintic (cs : List Number) : List Entry :=
  if cs.length < 6 then []
  else simultaneous cfg cs ++ unfinished cfg "iterative" "; roots are approximate" cs

def solvePolynomial (cs : List Number) : List Entry :=
  if cs.length < 2 then []
  else .debug "solver" s!"Solving degree {cs.length - 1} polynomial" ::
    match cs.length with
    | 4 => solveCubic cfg cs
    | 5 => solveQuartic cfg cs
    | 2 | 3 => []
    | _ => solveQuintic cfg cs

/-! ## Systems -/

def system (size : Nat) (solution : Except Failure (List (String × Gaussian))) : List Entry :=
  onSuccess solution fun _ => [.debug "linear_system" s!"Solved {size}x{size} system"]

/-! ## The calculator -/

variable (f : Format)

/-- An entry for a failure that becomes part of the result. -/
def failed (what : String) (step : Except Failure α) : List Entry :=
  onFailure step fun e =>
    if e.kind.isCaught then [.debug "api" (what ++ " failed: " ++ e.message)] else []

/-- A missing expression is evaluated as an empty one. -/
def evaluate (s : Option (List Char)) : List Entry :=
  let text := s.getD []
  expression cfg text
    ++ failed ("Evaluation of " ++ (s.map quote).getD "None") (Calculator.evaluated cfg f text)

def calculatePolynomial (cs : List Number) : List Entry :=
  let own :=
    if 6 ≤ cs.length then simultaneous cfg cs ++ unfinished cfg "api" "" cs
    else solvePolynomial cfg cs
  own ++ onSuccess (Calculator.showCoefficients cs) fun shown =>
    failed ("Solving " ++ shown) (Calculator.solved cfg f cs)

def calculateEquation (s : List Char) : List Entry :=
  onSuccess (equationOf cfg 1 s) fun cs => calculatePolynomial cfg f cs

def calculateSystem (equations : List (List Char)) : List Entry :=
  let shown := Fields.quoteList (equations.map String.ofList)
  system equations.length (LinearSystem.solveEquations cfg equations)
    ++ failed ("Solving system " ++ shown) (Calculator.solvedSystem cfg f equations)

def process (s : List Char) : List Entry :=
  if s.contains '=' then
    if s.contains ',' then calculateSystem cfg f (Calculator.splitSystem s)
    else calculateEquation cfg f s
  else evaluate cfg f (some s)

end Surd.Trace
