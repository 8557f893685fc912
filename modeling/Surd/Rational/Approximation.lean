import Surd.Binary64.Writing
import Surd.Settings

/-!
# Fractions for doubles

A double stands for the closest fraction whose denominator is within a bound, found among the
convergents of its continued fraction and the intermediate fractions after the last of them. Common
fractions are looked for first.
-/

namespace Surd

/-! ## The closest fraction -/

/-- Two consecutive convergents `p₀ / q₀` and `p₁ / q₁` of a continued fraction. -/
structure Convergents where
  p₀ : Nat
  q₀ : Nat
  p₁ : Nat
  q₁ : Nat
deriving DecidableEq, Repr

namespace Convergents

def start : Convergents := ⟨0, 1, 1, 0⟩

def next (c : Convergents) (a : Nat) : Convergents :=
  ⟨c.p₁, c.q₁, c.p₀ + a * c.p₁, c.q₀ + a * c.q₁⟩

/-- The last convergents within the bound, where `n / d` is still to be expanded. -/
def advance (bound : Nat) (c : Convergents) (n d : Nat) : Convergents :=
  if _h : d = 0 then c
  else if bound < (c.next (n / d)).q₁ then c
  else advance bound (c.next (n / d)) d (n % d)
termination_by d
decreasing_by exact Nat.mod_lt _ (Nat.pos_of_ne_zero _h)

/-- The last convergent. -/
def last (c : Convergents) : Rat := mkRat c.p₁ c.q₁

/-- The intermediate fraction with the largest denominator within the bound. -/
def intermediate (c : Convergents) (bound : Nat) : Rat :=
  let k := (bound - c.q₀) / c.q₁
  mkRat (c.p₀ + k * c.p₁) (c.q₀ + k * c.q₁)

end Convergents

/-- The fraction closest to `x ≥ 0` with a denominator of at most `bound`. Of two equally close ones
the convergent is taken. -/
def closestFraction (bound : Nat) (x : Rat) : Rat :=
  if x.den ≤ bound then x
  else
    let c := Convergents.start.advance bound x.num.natAbs x.den
    let a := c.last
    let b := c.intermediate bound
    if (a - x).abs ≤ (b - x).abs then a else b

/-! ## Common fractions -/

/-- Halves, quarters, eighths, thirds and fifths, in the order in which they are tried. -/
def commonFractions : List Rat :=
  [1/2, 1/4, 3/4, 1/8, 3/8, 5/8, 7/8, 1/3, 2/3, 1/5, 2/5, 3/5, 4/5]

def commonDoubles : List (Binary64 × Rat) := commonFractions.map fun q => (Binary64.ofRat q, q)

/-- The first common fraction whose double is within the tolerance. -/
def commonFraction? (tolerance x : Binary64) : Option Rat :=
  (commonDoubles.find? fun (y, _) => (x - y).abs.lt tolerance).map (·.2)

namespace Rational

variable (cfg : Settings)

/-- The fraction for a finite magnitude. -/
def ofMagnitude (x : Binary64) : Except Failure Rat :=
  match commonFraction? cfg.fractionTolerance x with
  | some q => pure q
  | none =>
    if cfg.maxDenominator < 1 then throw .denominatorBound
    else pure (closestFraction cfg.maxDenominator.toNat (x.value?.getD 0))

def ofDouble (x : Binary64) : Except Failure Rat :=
  if !x.isFinite then throw (.nonFinite (String.ofList x.write))
  else if x.isZero then pure 0
  else do
    let q ← ofMagnitude cfg x.abs
    pure (if x.isNegative then -q else q)

end Rational

end Surd
