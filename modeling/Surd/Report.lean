import Surd.Failure

/-!
# Reports of failures

A report is what a caller sees of a failure: its kind, the wording, a code, and the details that the
kind has.
-/

namespace Surd

/-- How many were expected: a number, or a rule in words. -/
inductive Expectation where
  | count (n : Int)
  | words (text : String)
deriving DecidableEq, Repr

structure Report where
  kind : Kind
  message : String
  code : Option String := kind.defaultCode
  term : Option String := none
  expected : Option Expectation := none
  actual : Option Int := none
  index : Option Int := none
  column : Option Int := none
deriving DecidableEq, Repr

/-! ## Details -/

/-- A detail that a report may be given. -/
inductive Detail where
  | code (text : Option String)
  | term (text : Option String)
  | expected (n : Option Expectation)
  | actual (n : Option Int)
  | index (n : Option Int)
  | column (n : Option Int)
deriving DecidableEq, Repr

namespace Kind

/-- Failures to solve that are about the leading coefficient. -/
def isDegenerate : Kind → Bool
  | .leadingZero | .noSolution | .infiniteSolutions => true
  | _ => false

/-- Whether reports of a kind may be given a detail. -/
def takes (k : Kind) : Detail → Bool
  | .code _ =>
    k == .validation || k == .parse || k == .solver || k == .divisionByZero || k == .evaluation
  | .term _ => k == .parse
  | .expected _ | .actual _ => k == .coefficientCount
  | .index _ => k.isDegenerate
  | .column _ => k == .singular

end Kind

namespace Report

/-- The report of a kind without further details. -/
def plain (kind : Kind) (message : String) : Report :=
  { kind, message, index := if kind.isDegenerate then some 0 else none }

/-- The report with a detail. A failure to solve has the code of its kind instead of none. -/
def detailed (r : Report) : Detail → Report
  | .code none => { r with code := if r.kind.isSolver then r.kind.defaultCode else none }
  | .code (some s) =>
    { r with code := if r.kind.isSolver && s.isEmpty then r.kind.defaultCode else some s }
  | .term s => { r with term := s }
  | .expected n => { r with expected := n }
  | .actual n => { r with actual := n }
  | .index n => { r with index := n }
  | .column n => { r with column := n }

/-- The report with all of the details, if they are of its kind. -/
def build? (kind : Kind) (message : String) (details : List Detail) : Option Report :=
  if details.all kind.takes then some (details.foldl detailed (plain kind message)) else none

end Report

/-! ## Reports of failures -/

def Shape.expectation : Shape → Expectation
  | .closedForm o => .count o.coefficients
  | .polynomial | .iterative => .words "at least 2"
  | .iterativeLimit d => .words s!"at most {d + 1}"
  | .quintic => .words "at least 6"
  | .matrix | .equations => .words "2 or 3"
  | .row n => .count (n + 1)
  | .square n => .count n

namespace Failure

/-- The code of a failure where it is more precise than the code of its kind. -/
def code (f : Failure) : Option String :=
  match f with
  | .emptyInput => some "EMPTY_INPUT"
  | .inputTooLong _ => some "TOO_LONG"
  | .forbiddenToken _ => some "FORBIDDEN_TOKEN"
  | .unbalanced _ => some "UNBALANCED"
  | .notOneEquals _ | .emptySide _ => some "INVALID_FORMAT"
  | _ => f.kind.defaultCode

def term : Failure → Option String
  | .emptyTerm t | .unreadableTerm t _ | .exponentWithoutVariable t _ | .badCoefficient t _ _
  | .powerTooHigh _ t _ _ | .termAboveDegree t _ _ | .variableNotAllowed _ t _
  | .unparsable t _ | .notSingle t _ => some t
  | _ => none

def report (f : Failure) : Report :=
  let base : Report := { Report.plain f.kind f.message with code := f.code, term := f.term }
  match f with
  | .wrongShape need n => { base with expected := some need.expectation, actual := some n }
  | .singular c => { base with column := some c }
  | _ => base

/-- The code of an unsuccessful result: failures without one are outside the domain. -/
def resultCode (f : Failure) : String := f.code.getD "DOMAIN_ERROR"

end Failure

end Surd
