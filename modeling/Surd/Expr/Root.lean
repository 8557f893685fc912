import Surd.Expr.Basic
import Surd.Rational.Root

/-!
# Roots of integers

Perfect powers are taken out of a root with an integer under it. An integer that is a perfect power
itself is seen as one; of any other, small prime factors are found by trial division.
-/

namespace Surd

/-- The trial divisors are below this bound. -/
def maxDivisor : Nat := 32768

/-- How often a divisor divides a number, and what is left. -/
def removeDivisor : Nat → Nat → Nat → Nat × Nat
  | 0, _, n => (0, n)
  | fuel + 1, d, n =>
    if n % d = 0 then
      let (e, m) := removeDivisor fuel d (n / d)
      (e + 1, m)
    else (0, n)

/-- The prime factors from a divisor on, with their exponents, and what is left after so many trial
divisors. -/
def trialFactors : Nat → Nat → Nat → List (Nat × Nat) × Nat
  | 0, _, n => ([], n)
  | fuel + 1, d, n =>
    if n < d * d then ([], n)
    else
      let (e, m) := removeDivisor (n.log2 + 1) d n
      let (factors, rest) := trialFactors fuel (d + 1) m
      (if e = 0 then factors else (d, e) :: factors, rest)

/-- The largest exponent, from one down, with which a number is a perfect power; and the root. -/
def perfectPower : Nat → Nat → Nat × Nat
  | 0, n => (n, 1)
  | 1, n => (n, 1)
  | e + 1, n =>
    let root := integerRoot n (e + 1)
    if Nat.pow root (e + 1) = n then (root, e + 1) else perfectPower e n

/-- Factors with exponents whose product is a number above one. -/
def rootFactors (n : Nat) : List (Nat × Nat) :=
  let (factors, rest) := trialFactors maxDivisor 2 n
  let last := if rest = 1 then [] else [perfectPower (rest.log2 / maxDivisor.log2) rest]
  let all := factors ++ last
  let g := all.foldl (fun g (_, e) => Nat.gcd g e) 0
  if 1 < g then [(all.foldl (fun m (p, e) => m * Nat.pow p (e / g)) 1, g)] else all

/-- A power of an integer: an integer, powers with other exponents, and the power that is left. -/
structure RootParts where
  whole : Nat
  radicals : List (Nat × Rat)
  rest : Nat × Rat
deriving Repr

namespace RootParts

/-- The parts of a number to a fraction above zero, none if nothing can be taken out. -/
def ofFactors (n : Nat) (r : Rat) (factors : List (Nat × Nat)) : Option RootParts :=
  let p := r.num.natAbs
  let whole := factors.foldl (fun m (b, e) => m * Nat.pow b (e * p / r.den)) 1
  let left : List (Nat × Nat) := (factors.map fun (b, e) => (b, e * p % r.den)).filter fun (_, e) => e != 0
  let shared (e : Nat) : Bool := Nat.gcd e r.den != 1
  let radicals := (left.filter fun (_, e) => shared e).map fun (b, e) => (b, mkRat e r.den)
  let others := left.filter fun (_, e) => !shared e
  let g : Nat := others.foldl (fun g (_, e) => Nat.gcd g e) 0
  let base : Nat := others.foldl (fun m (b, e) => m * Nat.pow b (e / g)) 1
  if base = n ∧ whole = 1 ∧ radicals = [] then none
  else some ⟨whole, radicals, (base, mkRat g r.den)⟩

/-- The parts of a number above one. A root of an order beyond its bits is below two. -/
def ofPower (n : Nat) (r : Rat) : Option RootParts :=
  let root := if n.log2 < r.den then 1 else integerRoot n r.den
  if Nat.pow root (min r.den (n.log2 + 1)) = n then
    some ⟨Nat.pow root r.num.natAbs, [], (1, 0)⟩
  else ofFactors n r (rootFactors n)

end RootParts

end Surd
