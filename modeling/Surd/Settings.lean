import Surd.Binary64.Constants
import Surd.Binary64.Decimal
import Surd.Binary64.Elementary

/-!
# Settings

The limits, tolerances and elementary functions that a calculation depends on. The environment may
replace the default of each limit and tolerance.
-/

namespace Surd

structure Settings where
  /-- How near a common fraction a double has to be to be taken for it. -/
  fractionTolerance : Binary64 := 1e-10
  /-- The largest denominator of a fraction that stands for a double. -/
  maxDenominator : Int := 10000
  /-- Below it the discriminant of a cubic counts as zero. -/
  caseThreshold : Binary64 := 1e-10
  maxSweeps : Int := 100
  /-- Estimates that move less than this have settled. -/
  sweepTolerance : Binary64 := 1e-10
  /-- The angle by which the first estimates are turned. -/
  initialPhase : Binary64 := 0.4
  precision : Int := 6
  style : List Char := "ascii".toList
  maxInputLength : Int := 10000
  maxExponent : Int := 10000
  maxBits : Int := 14000
  maxDegree : Int := 200
  /-- Fractions with a smaller denominator are not taken for radicals. -/
  radicalMinDenominator : Int := 100
  maxRadicand : Int := 200
  maxRadicalDivisor : Int := 6
  radicalTolerance : Binary64 := 1e-7
  elementary : Elementary := .native

namespace Settings

instance : Inhabited Settings := ⟨{}⟩

/-- The names of the variables in the environment, each after a common start. -/
def variableNames : List String :=
  ["SIMPLE_FRACTION_TOLERANCE", "MAX_APPROX_DENOMINATOR", "CASE_THRESHOLD", "DK_MAX_ITERATIONS",
   "DK_TOLERANCE", "DK_INITIAL_PHASE", "OUTPUT_PRECISION", "OUTPUT_STYLE", "MAX_INPUT_LENGTH",
   "MAX_INTEGER_EXPONENT", "MAX_RESULT_BITS", "MAX_DEGREE", "RADICAL_MIN_DENOMINATOR",
   "RADICAL_MAX_RADICAND", "RADICAL_MAX_DIVISOR", "RADICAL_TOLERANCE"]

def variableStart : String := "ROOTCALC_"

/-- The value of a variable in the environment, or the default. -/
def entry (environment : List (String × String)) (name : String) (default : α)
    (read : List Char → Except Failure α) : Except Failure α :=
  match environment.lookup (variableStart ++ name) with
  | none => pure default
  | some text => read text.toList

def ofEnvironment (environment : List (String × String)) : Except Failure Settings := do
  let d : Settings := {}
  let double name (default : Binary64) := entry environment name default Binary64.read
  let int name (default : Int) := entry environment name default Text.readInt
  let fractionTolerance ← double "SIMPLE_FRACTION_TOLERANCE" d.fractionTolerance
  let maxDenominator ← int "MAX_APPROX_DENOMINATOR" d.maxDenominator
  let caseThreshold ← double "CASE_THRESHOLD" d.caseThreshold
  let maxSweeps ← int "DK_MAX_ITERATIONS" d.maxSweeps
  let sweepTolerance ← double "DK_TOLERANCE" d.sweepTolerance
  let initialPhase ← double "DK_INITIAL_PHASE" d.initialPhase
  let precision ← int "OUTPUT_PRECISION" d.precision
  let style ← entry environment "OUTPUT_STYLE" d.style pure
  let maxInputLength ← int "MAX_INPUT_LENGTH" d.maxInputLength
  let maxExponent ← int "MAX_INTEGER_EXPONENT" d.maxExponent
  let maxBits ← int "MAX_RESULT_BITS" d.maxBits
  let maxDegree ← int "MAX_DEGREE" d.maxDegree
  let radicalMinDenominator ← int "RADICAL_MIN_DENOMINATOR" d.radicalMinDenominator
  let maxRadicand ← int "RADICAL_MAX_RADICAND" d.maxRadicand
  let maxRadicalDivisor ← int "RADICAL_MAX_DIVISOR" d.maxRadicalDivisor
  let radicalTolerance ← double "RADICAL_TOLERANCE" d.radicalTolerance
  return { fractionTolerance, maxDenominator, caseThreshold, maxSweeps, sweepTolerance,
           initialPhase, precision, style, maxInputLength, maxExponent, maxBits, maxDegree,
           radicalMinDenominator, maxRadicand, maxRadicalDivisor, radicalTolerance }

end Settings

end Surd
