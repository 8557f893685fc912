import Surd.Expr.Basic

/-!
# Factorials

Factorials of integers are computed. Those of rounded numbers are values of the gamma function.
-/

namespace Surd

def factorialOf : Nat → Nat
  | 0 => 1
  | n + 1 => (n + 1) * factorialOf n

/-- The product of every second number. -/
def doubleFactorialOf : Nat → Nat
  | 0 => 1
  | 1 => 1
  | n + 2 => (n + 2) * doubleFactorialOf n

namespace Expr

/-- The largest number with a factorial that is computed. -/
def maxFactorial : Nat := 20000

/-- The gamma function of a number above minus the steps, by steps of one. -/
def gammaFrom (bits : Nat) : Nat → Rat → Rat
  | 0, x => Approximate.gamma bits x
  | steps + 1, x => if 1 < x then Approximate.gamma bits x else gammaFrom bits steps (x + 1) / x

/-- The gamma function of a rounded number, unless it is not defined or too large. -/
def roundedGamma? (bits : Nat) (x : Rat) : Option Expr :=
  if (maxFactorial : Rat) < x.abs ∨ (x.den = 1 ∧ x ≤ 0) then none
  else
    let w := bits + 40 + 2 * x.floor.natAbs
    some (.number (.ofRat bits (gammaFrom w (x.floor.natAbs + 2) x)))

/-- An integer has a factorial unless it is negative. -/
def factorialOfInt (n : Int) : Expr :=
  if n < 0 then .infinite else exact (factorialOf n.toNat : Nat)

def factorial (x : Expr) : Expr :=
  let value? :=
    match x with
    | .number (.rounded v) => roundedGamma? v.bits (v.value + 1)
    | x => x.integer?.bind fun n => if n < maxFactorial then some (factorialOfInt n) else none
  value?.getD (.apply (.other "factorial") [x])

/-- The gamma function of an integer is a factorial. -/
def gamma (x : Expr) : Expr :=
  let value? :=
    match x with
    | .number (.rounded v) => roundedGamma? v.bits v.value
    | x => x.integer?.bind fun n => if n < maxFactorial then some (factorialOfInt (n - 1)) else none
  value?.getD (.apply (.other "gamma") [x])

/-- The double factorial of a number, which has to be an odd integer or not negative. -/
def doubleFactorial (x : Expr) : Option Expr :=
  match x with
  | .number c =>
    c.integer?.bind fun n =>
      if 0 ≤ n then
        if n < maxFactorial then some (exact (doubleFactorialOf n.toNat : Nat))
        else some (.apply (.other "factorial2") [x])
      else if n % 2 = 0 then none
      else
        let sign : Rat := if (1 - n) / 2 % 2 = 0 then 1 else -1
        some (exact (n * sign / (doubleFactorialOf n.natAbs : Nat)))
  | x => some (.apply (.other "factorial2") [x])

end Expr

end Surd
