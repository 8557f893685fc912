import Surd.Rational.Functions

/-!
# Radicals

A square root leaves the calculation as a fraction with a large denominator. `Radical.find?` looks
for the number `(p + c √m) / d` with small `m` and `d` that such a fraction stands for.
-/

namespace Surd

/-! ## Square-free parts -/

/-- Moves the squares of all factors from `k + 2` on out of `m` and their roots into `c`. -/
def splitSquares (c m k : Nat) : Nat × Nat :=
  if h : m < (k + 2) * (k + 2) then (c, m)
  else
    have : k + 2 ≤ (k + 2) * (k + 2) := Nat.le_mul_of_pos_left _ (Nat.succ_pos _)
    if m % ((k + 2) * (k + 2)) = 0 then
      have : m / ((k + 2) * (k + 2)) < m := Nat.div_lt_self (by omega) (by omega)
      splitSquares (c * (k + 2)) (m / ((k + 2) * (k + 2))) k
    else splitSquares c m (k + 1)
termination_by m - k

/-- The root of the largest square in a positive number, and the number without the square. -/
def squareFree (k : Int) : Nat × Int :=
  match k with
  | .ofNat n => ((splitSquares 1 n 0).1, (splitSquares 1 n 0).2)
  | .negSucc _ => (1, k)

/-- The number `(offset + coefficient √radicand) / divisor`. -/
structure Radical where
  offset : Int
  coefficient : Int
  radicand : Int
  divisor : Int
deriving DecidableEq, Repr

namespace Radical

def isSquare (n : Nat) : Bool := Nat.sqrt n * Nat.sqrt n == n

/-- Puts an integer before the first one whose magnitude is not smaller. -/
def insertByMagnitude (p : Int) : List Int → List Int
  | [] => [p]
  | q :: rest => if p.natAbs ≤ q.natAbs then p :: q :: rest else q :: insertByMagnitude p rest

/-- The integers at most `span` away from `nearest`, the smallest magnitudes first. -/
def offsets (nearest : Int) (span : Nat) : List Int :=
  ((List.range (2 * span + 1)).map fun (i : Nat) => nearest - span + i).foldr insertByMagnitude []

variable (cfg : Settings)

/-- The radical with a divisor and an offset, if its square root is close to `t - p`. -/
def withOffset? (divisor : Nat) (tolerance t : Binary64) (p : Int) :
    Except Failure (Option Radical) := do
  let r := t - Binary64.ofRat p
  let k ← (r * r).round
  if k < 2 || cfg.maxRadicand < k || isSquare k.toNat then pure none
  else
    let root ← cfg.elementary.sqrt (Binary64.ofRat k)
    if tolerance.lt (root - r.abs).abs then pure none
    else
      let (c, m) := squareFree k
      pure (some ⟨p, if r.isPositive then c else -c, m, divisor⟩)

def withDivisor? (v : Binary64) (divisor : Nat) : Except Failure (Option Radical) := do
  let d := Binary64.ofRat divisor
  let t := v * d
  let nearest ← t.round
  (offsets nearest (Nat.sqrt cfg.maxRadicand.toNat + 1)).findSomeM?
    (withOffset? cfg divisor (cfg.radicalTolerance * d) t)

/-- The radical that a double stands for. -/
def ofDouble? (v : Binary64) : Except Failure (Option Radical) :=
  if cfg.maxRadicand < 0 then throw .negativeRadicand
  else ((List.range cfg.maxRadicalDivisor.toNat).map (· + 1)).findSomeM? (withDivisor? cfg v)

/-- The radical that a fraction stands for. A fraction with a small denominator is none, and so is
one beyond the range of doubles. -/
def find? (x : Rat) : Except Failure (Option Radical) :=
  if (x.den : Int) < cfg.radicalMinDenominator then pure none
  else (Binary64.ofFraction x).toOption.elim (pure none) (ofDouble? cfg)

end Radical

end Surd
