import Surd.Expr.Order
import Surd.Gaussian

/-!
# Values of expressions

Arguments are evaluated from left to right. Every partial sum and product, and every integer power,
has to fit in the size limit.
-/

namespace Surd

variable (cfg : Settings)

/-- The value, if it is not too large. -/
def checked (z : Gaussian) : Except Failure Gaussian :=
  if cfg.maxBits < z.size then throw (.resultTooLarge cfg.maxBits) else pure z

/-- An integer power. Its size is bounded from below before it is computed. -/
def integerPower (base : Gaussian) (n : Int) : Except Failure Gaussian :=
  if cfg.maxExponent < n.natAbs then do
    let s ← Text.writeInt n
    throw (.exponentTooLarge (String.ofList s))
  else if cfg.maxBits < (n.natAbs : Int) * ((base.size : Int) - 1) then do
    let s ← Text.writeInt n
    throw (.powerTooLarge (String.ofList s) cfg.maxBits)
  else do
    let z ← base.pow n
    checked cfg z

/-- Exponents are integers, or one half for the square root. -/
def power (base exponent : Gaussian) : Except Failure Gaussian :=
  if exponent = ⟨1/2, 0⟩ then base.sqrt cfg
  else if exponent.isReal && exponent.re.den == 1 then integerPower cfg base exponent.re.num
  else do
    let s ← exponent.write
    throw (.unsupportedPower (String.ofList s))

/-- An angle in degrees, as an angle in radians. -/
def radians (z : Gaussian) : Except Failure Gaussian := do
  let x ← Binary64.ofFraction z.re
  let y ← Binary64.ofFraction z.im
  let degree ← Binary64.pi.div 180
  Gaussian.ofDoubles cfg (x * degree) (y * degree)

namespace Expr

mutual

def eval : Expr → Except Failure Gaussian
  | .number (.exact q) => pure (.ofRat q)
  | .number (.rounded x) => do
    let q ← Rational.ofDouble cfg x.toBinary64
    pure (.ofRat q)
  | .constant c => do
    let q ← Rational.ofDouble cfg c.toDouble
    pure (.ofRat q)
  | .imaginaryUnit => pure .I
  | .unknown name => throw (.unknownVariable (String.ofList name))
  | .infinite => throw (.unsupportedOperation "ComplexInfinity")
  | .undefined => throw (.unsupportedOperation "NaN")
  | .sum args => evalSum 0 args
  | .product args => evalProduct 1 args
  | .power base exponent => do
    let z ← base.eval
    let w ← exponent.eval
    Surd.power cfg z w
  | .apply f [arg] =>
    match f with
    | .exp => do
      let z ← Rational.ofDouble cfg Binary64.e
      let w ← arg.eval
      Surd.power cfg (.ofRat z) w
    | .abs => do
      let z ← arg.eval
      let q ← z.abs cfg
      pure (.ofRat q)
    | .sin => do
      let z ← arg.eval
      z.sin cfg
    | .cos => do
      let z ← arg.eval
      z.cos cfg
    | .sinDegrees => do
      let z ← arg.eval
      let w ← radians cfg z
      w.sin cfg
    | .cosDegrees => do
      let z ← arg.eval
      let w ← radians cfg z
      w.cos cfg
    | .other name => throw (.unsupportedOperation name)
  | .apply f _ => throw (.unsupportedOperation f.name)

/-- The sum of the values, each added to what comes before it. -/
def evalSum (total : Gaussian) : List Expr → Except Failure Gaussian
  | [] => pure total
  | x :: rest => do
    let z ← x.eval
    let next ← checked cfg (total + z)
    evalSum next rest

def evalProduct (total : Gaussian) : List Expr → Except Failure Gaussian
  | [] => pure total
  | x :: rest => do
    let z ← x.eval
    let next ← checked cfg (total * z)
    evalProduct next rest

end

end Expr

end Surd
