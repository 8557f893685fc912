import Surd.Rational.Root
import Surd.Rational.Text

/-!
# Functions of fractions

Division and powers are exact. Square roots and angles go through doubles, and their results are the
fractions for the doubles.
-/

namespace Surd.Rational

/-- The size in bits of the larger of numerator and denominator. -/
def size (x : Rat) : Nat := max (bitLength x.num.natAbs) (bitLength x.den)

def signum (x : Rat) : Rat := if 0 < x then 1 else if x < 0 then -1 else 0

/-! ## Exact operations -/

def div (x y : Rat) : Except Failure Rat := do
  if y = 0 then
    let dividend ← write x
    throw (.divisionByZero (String.ofList dividend))
  else pure (x / y)

def power (x : Rat) (n : Int) : Except Failure Rat :=
  if n < 0 ∧ x = 0 then throw .zeroToNegativePower else pure (x ^ n)

/-! ## Operations through doubles -/

section
variable (cfg : Settings)

/-- The fraction for the image of a fraction. -/
def through (f : Binary64 → Except Failure Binary64) (x : Rat) : Except Failure Rat := do
  let d ← Binary64.ofFraction x
  let y ← f d
  ofDouble cfg y

def sqrt : Rat → Except Failure Rat := through cfg cfg.elementary.sqrt
def sin : Rat → Except Failure Rat := through cfg cfg.elementary.sine
def cos : Rat → Except Failure Rat := through cfg cfg.elementary.cosine
def sinh : Rat → Except Failure Rat := through cfg cfg.elementary.hyperbolicSine
def cosh : Rat → Except Failure Rat := through cfg cfg.elementary.hyperbolicCosine

/-- The exact square root if there is one, else an approximation. -/
def sqrtExact (x : Rat) : Except Failure (Bool × Rat) := do
  if ← isPerfectSquare x then pure (true, exactRoot x 2)
  else
    let y ← sqrt cfg x
    pure (false, y)

/-- The `n`-th root of a double: of a negative one, that of its magnitude with a minus sign if `n`
is odd. -/
def doubleRoot (n : Int) (x : Binary64) : Except Failure Binary64 := do
  let exponent ← Binary64.div 1 (Binary64.ofRat n)
  let y ← cfg.elementary.power exponent x.abs
  pure (if x.isNegative ∧ n % 2 = 1 then -y else y)

/-- The exact `n`-th root if there is one, else an approximation. -/
def rootExact (x : Rat) (n : Int) : Except Failure (Bool × Rat) := do
  if ← isPerfectPower x n then pure (true, exactRoot x n.natAbs)
  else
    let y ← through cfg (doubleRoot cfg n) x
    pure (false, y)

end

/-! ## Quotients of parts of any kind -/

/-- A part from which a fraction may be built: an integer, a fraction, one with a fraction inside it, a
ratio that no fraction was built from yet, or a double. -/
inductive Part where
  | int (n : Int)
  | fraction (x : Rat)
  | nested (x : Rat)
  | ratio (x : Rat)
  | double (x : Binary64)
deriving DecidableEq, Repr

/-- What building a fraction leaves: a fraction, a fraction with a fraction inside it, or a double that
took its place. -/
inductive Quotient where
  | exact (x : Rat)
  | nested (x : Rat)
  | inexact (x : Binary64)
deriving DecidableEq, Repr

namespace Quotient

/-- A double has no numerator and no denominator, and so no text as a fraction. -/
def fraction : Quotient → Except Failure Rat
  | .exact x | .nested x => pure x
  | .inexact _ => throw .missingAttribute

def numerator (q : Quotient) : Except Failure Int := do
  let x ← q.fraction
  pure x.num

def denominator (q : Quotient) : Except Failure Int := do
  let x ← q.fraction
  pure x.den

def write (q : Quotient) : Except Failure (List Char) := do
  let x ← q.fraction
  Rational.write x

end Quotient

namespace Part

def isZero : Part → Bool
  | .int n => n == 0
  | .fraction x | .nested x | .ratio x => x == 0
  | .double x => x.isZero

def isOne : Part → Bool
  | .int n => n == 1
  | .fraction x | .nested x | .ratio x => x == 1
  | .double x => x.value? == some 1

def typeName : Part → String
  | .int _ => "int"
  | .fraction _ | .nested _ => "Rational"
  | .ratio _ => "Fraction"
  | .double _ => "float"

def write : Part → Except Failure (List Char)
  | .int n => Text.writeInt n
  | .fraction x | .nested x | .ratio x => Rational.write x
  | .double x => pure x.write

/-- A fraction over a part that is not zero. Over another fraction it leaves one fraction inside
another. -/
def under (d : Part) (x : Rat) : Except Failure Quotient :=
  if d.isOne then pure (.exact x)
  else match d with
  | .int d => pure (.exact (x / d))
  | .ratio y => pure (.exact (x / y))
  | .fraction y | .nested y => pure (.nested (x / y))
  | .double y => do
    let z ← Binary64.ofFraction x
    let q ← z.div y
    pure (.inexact q)

/-- A fraction with a fraction inside it over a part that is not zero. The fraction inside refuses a
double as any operation on fractions does. -/
def underNested (d : Part) (x : Rat) : Except Failure Quotient :=
  if d.isOne then pure (.nested x)
  else match d with
  | .int d => pure (.nested (x / d))
  | .ratio y | .fraction y | .nested y => pure (.nested (x / y))
  | .double _ => throw .unsupportedOperand

/-- The quotient of two parts. The denominator has to be an integer if the numerator is one, while
a fraction may be divided by anything. -/
def quotient (n d : Part) : Except Failure Quotient := do
  if d.isZero then
    let dividend ← n.write
    throw (.zeroDenominator (String.ofList dividend))
  else match n, d with
  | .int n, .int d => pure (.exact (Rat.divInt n d))
  | .fraction x, d | .ratio x, d => d.under x
  | .nested x, d => d.underNested x
  | n, d => throw (.floatPart n.typeName d.typeName)

end Part

/-! ## Arithmetic with parts of any kind -/

/-- The value of a part as an operand, which a double may not be. -/
def Part.operand : Part → Except Failure Rat
  | .int n => pure n
  | .fraction x | .nested x | .ratio x => pure x
  | .double _ => throw .unsupportedOperand

inductive Operation where
  | add | sub | mul | div
deriving DecidableEq, Repr

def Operation.apply : Operation → Rat → Rat → Except Failure Rat
  | .add, x, y => pure (x + y)
  | .sub, x, y => pure (x - y)
  | .mul, x, y => pure (x * y)
  | .div, x, y => Rational.div x y

/-- A step of a calculation with a fraction, which may be the left or the right operand. -/
inductive Step where
  | left (op : Operation) (p : Part)
  | right (op : Operation) (p : Part)
  | neg | abs | signum
  | power (p : Part)
deriving DecidableEq, Repr

namespace Step

def value (x : Rat) : Step → Except Failure Rat
  | .left op p => do
    let y ← p.operand
    op.apply x y
  | .right op p => do
    let y ← p.operand
    op.apply y x
  | .neg => pure (-x)
  | .abs => pure x.abs
  | .signum => pure (Rational.signum x)
  | .power (.int n) => Rational.power x n
  | .power _ => throw .unsupportedOperand

/-- From the result of a step a fraction is built. -/
def run (step : Step) (x : Rat) : Except Failure Quotient := do
  let y ← step.value x
  Part.quotient (.ratio y) (.int 1)

end Step

end Surd.Rational
