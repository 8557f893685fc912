import Surd.Failure

/-!
# Integer roots and perfect powers

The integer root is found by Newton's method from above, in integers. A reduced fraction is a
perfect power exactly when its numerator and its denominator are.
-/

namespace Surd

def bitLength (n : Nat) : Nat := if n = 0 then 0 else n.log2 + 1

/-- Newton's steps toward the root of `value`, until one does not decrease. -/
def newton (n value x : Nat) : Nat :=
  let y := ((n - 1) * x + value / Nat.pow x (n - 1)) / n
  if y < x then newton n value y else x
termination_by x

/-- The integer part of the `n`-th root. The start is a power of two above the root. -/
def integerRoot (value n : Nat) : Nat :=
  if value < 2 ∨ n = 1 then value else newton n value (Nat.pow 2 ((bitLength value + n - 1) / n))

namespace Rational

/-- Whether a number is the `n`-th power of a rational. -/
def isPerfectPower (x : Rat) (n : Int) : Except Failure Bool :=
  if n < 1 then throw (.rootOrder n)
  else
    let k := n.natAbs
    let numerator := x.num.natAbs
    pure <|
      if x < 0 ∧ k % 2 = 0 then false
      else Nat.pow (integerRoot numerator k) k = numerator ∧ Nat.pow (integerRoot x.den k) k = x.den

def isPerfectSquare (x : Rat) : Except Failure Bool :=
  if x < 0 then pure false else isPerfectPower x 2

/-- The root of a perfect power, with the sign of the power. -/
def exactRoot (x : Rat) (n : Nat) : Rat :=
  let root := mkRat (integerRoot x.num.natAbs n) (integerRoot x.den n)
  if x < 0 then -root else root

end Rational

end Surd
