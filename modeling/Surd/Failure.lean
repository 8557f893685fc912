/-!
# Failures

Every way a calculation can fail, by cause. `Failure.message` words it, and `Failure.report` is the
record that a caller sees.
-/

namespace Surd

/-! ## Kinds -/

inductive Kind where
  | validation | parse
  | solver | coefficientCount | leadingZero | noSolution | infiniteSolutions | singular
  | divisionByZero | evaluation
  | value | overflow
  | type | zeroDivision | index | attribute
deriving DecidableEq, Repr

namespace Kind

/-- Failures of solving, with those that refine them. -/
def isSolver : Kind → Bool
  | .solver | .coefficientCount | .leadingZero | .noSolution | .infiniteSolutions | .singular
  | .divisionByZero | .evaluation => true
  | _ => false

/-- Kinds that carry a code of their own. -/
def isCoded (k : Kind) : Bool := k == .validation || k == .parse || k.isSolver

/-- Kinds that a calculator turns into an unsuccessful result. -/
def isCaught (k : Kind) : Bool := k.isCoded || k == .value || k == .overflow

def defaultCode : Kind → Option String
  | .validation => some "VALIDATION_ERROR"
  | .parse => some "PARSE_FAILURE"
  | .solver => some "SOLVER_ERROR"
  | .coefficientCount => some "INVALID_COEFFICIENT_COUNT"
  | .leadingZero => some "ZERO_LEADING_COEFFICIENT"
  | .noSolution => some "NO_SOLUTION"
  | .infiniteSolutions => some "INFINITE_SOLUTIONS"
  | .singular => some "SINGULAR"
  | .divisionByZero => some "DIVISION_BY_ZERO"
  | .evaluation => some "EVALUATION_ERROR"
  | .value | .overflow | .type | .zeroDivision | .index | .attribute => none

end Kind

/-! ## Causes -/

/-- The degrees with a solution in closed form. -/
inductive Order where
  | linear | quadratic | cubic | quartic
deriving DecidableEq, Repr

namespace Order

def name : Order → String
  | .linear => "Linear" | .quadratic => "Quadratic" | .cubic => "Cubic" | .quartic => "Quartic"

def adjective : Order → String
  | .linear => "linear" | .quadratic => "quadratic" | .cubic => "cubic" | .quartic => "quartic"

def coefficients : Order → Nat
  | .linear => 2 | .quadratic => 3 | .cubic => 4 | .quartic => 5

end Order

/-- A demand on how many coefficients, entries or equations there are. -/
inductive Shape where
  | closedForm (order : Order)
  | polynomial
  | iterative
  | iterativeLimit (degree : Int)
  | quintic
  | matrix
  | row (size : Nat)
  | equations
  | square (size : Nat)
deriving DecidableEq, Repr

inductive Failure where
  -- rejected input
  | emptyInput
  | inputTooLong (limit : Int)
  | forbiddenToken (token : String)
  | unbalanced (position : Nat)
  -- text that cannot be read
  | notOneEquals (quoted : String)
  | emptySide (quoted : String)
  | emptyTerm (term : String)
  | missingTerm
  | unreadableTerm (term quoted : String)
  | exponentWithoutVariable (term quoted : String)
  | badCoefficient (term quoted cause : String)
  | powerTooHigh (exponent term quoted : String) (limit : Int)
  | degreeTooHigh (degree limit : Int)
  | termAboveDegree (term quoted : String) (degree : Int)
  | variableNotAllowed (name term : String) (size : Nat)
  | unparsable (text quoted : String)
  | notSingle (text quoted : String)
  -- equations and systems
  | wrongShape (need : Shape) (actual : Nat)
  | zeroLeading (order : Option Order)
  | noSolution (constant : String)
  | infiniteSolutions
  | singular (column : Nat)
  | diverged
  -- exact division
  | zeroDenominator (numerator : String)
  | divisionByZero (dividend : String)
  | inverseOfZero
  | zeroToNegativePower
  | coincidingEstimates
  -- evaluation
  | unknownVariable (name : String)
  | unsupportedOperation (name : String)
  | unsupportedPower (exponent : String)
  | resultTooLarge (bits : Int)
  | exponentTooLarge (exponent : String)
  | powerTooLarge (exponent : String) (bits : Int)
  -- values outside a domain
  | nonFinite (value : String)
  | squareRootOfNegative
  | angleNotFinite
  | rootOrder (order : Int)
  | denominatorBound
  | negativeRadicand
  | notInteger (quoted : String)
  | notNumber (quoted : String)
  | tooManyDigits (digits : Nat)
  | tooLongToWrite
  | unknownStyle (quoted : String)
  | roundingNan
  -- values out of range
  | fractionTooLarge
  | powerOutOfRange
  | functionOutOfRange
  | roundingInfinity
  -- misuse
  | floatPart (numerator denominator : String)
  | notRationalPart (type : String)
  | unsupportedOperand
  | floatDivisionByZero
  | missingAttribute
deriving DecidableEq, Repr

/-- The number of digits beyond which an integer is neither read nor written. -/
def digitLimit : Nat := 4300

namespace Failure

def kind : Failure → Kind
  | .emptyInput | .inputTooLong _ | .forbiddenToken _ | .unbalanced _ => .validation
  | .notOneEquals _ | .emptySide _ | .emptyTerm _ | .unreadableTerm .. | .exponentWithoutVariable ..
  | .badCoefficient .. | .powerTooHigh .. | .degreeTooHigh .. | .termAboveDegree ..
  | .variableNotAllowed .. | .unparsable .. | .notSingle .. => .parse
  | .missingTerm => .index
  | .wrongShape .. => .coefficientCount
  | .zeroLeading _ => .leadingZero
  | .noSolution _ => .noSolution
  | .infiniteSolutions => .infiniteSolutions
  | .singular _ => .singular
  | .diverged => .solver
  | .zeroDenominator _ | .divisionByZero _ | .inverseOfZero | .zeroToNegativePower
  | .coincidingEstimates => .divisionByZero
  | .unknownVariable _ | .unsupportedOperation _ | .unsupportedPower _ | .resultTooLarge _
  | .exponentTooLarge _ | .powerTooLarge .. => .evaluation
  | .nonFinite _ | .squareRootOfNegative | .angleNotFinite | .rootOrder _ | .denominatorBound
  | .negativeRadicand | .notInteger _ | .notNumber _ | .tooManyDigits _ | .tooLongToWrite
  | .unknownStyle _ | .roundingNan => .value
  | .fractionTooLarge | .powerOutOfRange | .functionOutOfRange | .roundingInfinity => .overflow
  | .floatPart .. | .notRationalPart _ | .unsupportedOperand => .type
  | .floatDivisionByZero => .zeroDivision
  | .missingAttribute => .attribute

def shapeMessage (actual : Nat) : Shape → String
  | .closedForm o => s!"{o.name} equation needs {o.coefficients} coefficients, got {actual}"
  | .polynomial => s!"A polynomial equation needs at least 2 coefficients, got {actual}"
  | .iterative => s!"Need at least 2 coefficients, got {actual}"
  | .iterativeLimit d => s!"Degree {(actual : Int) - 1} exceeds the maximum of {d}"
  | .quintic => s!"Quintic equation needs at least 6 coefficients, got {actual}"
  | .matrix => s!"Only 2x2 and 3x3 systems are supported, got {actual} equations"
  | .row n => s!"Each row of a {n}x{n} system needs {n + 1} entries, got {actual}"
  | .equations => s!"Only systems of 2 or 3 equations are supported, got {actual}"
  | .square n => s!"A {n}x{n} system needs {n} equations, got {actual}"

/-- The wording of a failure. Misuse that only shows its kind has none. -/
def message : Failure → String
  | .emptyInput => "Input cannot be empty"
  | .inputTooLong n => s!"Input too long (>{n} characters)"
  | .forbiddenToken t => s!"Input contains forbidden token: {t}"
  | .unbalanced p => s!"Unbalanced parentheses or brackets at position {p}"
  | .notOneEquals q => "Equation must contain exactly one '=': " ++ q
  | .emptySide q => s!"Both sides of the equation must be non-empty: {q}"
  | .emptyTerm _ => "Empty term in equation"
  | .missingTerm => ""
  | .unreadableTerm _ q => s!"Cannot parse term {q}"
  | .exponentWithoutVariable _ q => s!"Exponent without variable in {q}"
  | .badCoefficient _ q cause => s!"Bad coefficient in {q}: {cause}"
  | .powerTooHigh e _ q n => s!"Power {e} in {q} exceeds the maximum degree {n}"
  | .degreeTooHigh d n => s!"Degree {d} exceeds the maximum of {n}"
  | .termAboveDegree _ q d => s!"Term {q} exceeds degree {d}"
  | .variableNotAllowed v _ n => s!"Variable '{v}' not allowed in a {n}x{n} system"
  | .unparsable _ q => s!"Could not parse expression {q}: unparsable"
  | .notSingle _ q => s!"Not a single expression: {q}"
  | .wrongShape need n => shapeMessage n need
  | .zeroLeading none => "Leading coefficient cannot be zero"
  | .zeroLeading (some o) => s!"Leading coefficient of a {o.adjective} equation must be non-zero"
  | .noSolution b => s!"No solution ({b} = 0)"
  | .infiniteSolutions => "Infinite solutions (0 = 0)"
  | .singular _ => "System has no unique solution (singular matrix)"
  | .diverged => "Durand-Kerner iteration diverged"
  | .zeroDenominator n => s!"Rational with zero denominator: {n}/0"
  | .divisionByZero z => s!"Division of {z} by zero"
  | .inverseOfZero => "Inverse of zero"
  | .zeroToNegativePower => "Zero raised to a negative power"
  | .coincidingEstimates => "Durand-Kerner estimates coincide"
  | .unknownVariable v => s!"Unknown variable: {v}"
  | .unsupportedOperation f => s!"Unsupported operation: {f}"
  | .unsupportedPower e => s!"Only integer powers and square roots are supported, got ^{e}"
  | .resultTooLarge n => s!"Result exceeds {n} bits"
  | .exponentTooLarge e => s!"Exponent {e} is too large"
  | .powerTooLarge e n => s!"Result of ^{e} would exceed {n} bits"
  | .nonFinite v => s!"Cannot approximate non-finite value {v}"
  | .squareRootOfNegative | .angleNotFinite => "math domain error"
  | .rootOrder n => s!"Root order must be positive, got {n}"
  | .denominatorBound => "max_denominator should be at least 1"
  | .negativeRadicand => "isqrt() argument must be nonnegative"
  | .notInteger q => s!"invalid literal for int() with base 10: {q}"
  | .notNumber q => s!"could not convert string to float: {q}"
  | .tooManyDigits n =>
    s!"Exceeds the limit ({digitLimit} digits) for integer string conversion: "
      ++ s!"value has {n} digits; use sys.set_int_max_str_digits() to increase the limit"
  | .tooLongToWrite =>
    s!"Exceeds the limit ({digitLimit} digits) for integer string conversion; "
      ++ "use sys.set_int_max_str_digits() to increase the limit"
  | .unknownStyle q => s!"Unknown output style {q} (expected ascii, unicode or latex)"
  | .roundingNan => "cannot convert float NaN to integer"
  | .fractionTooLarge => "integer division result too large for a float"
  | .powerOutOfRange => "(34, 'Numerical result out of range')"
  | .functionOutOfRange => "math range error"
  | .roundingInfinity => "cannot convert float infinity to integer"
  | .floatPart n d =>
    s!"Rational needs integer parts, got {n}/{d} (use Rational.from_double for floats)"
  | .notRationalPart t => s!"Cannot use {t} as a rational part"
  | .unsupportedOperand | .floatDivisionByZero | .missingAttribute => ""

end Failure

end Surd
