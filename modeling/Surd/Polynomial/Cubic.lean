import Surd.Number

/-!
# Cubic equations

The substitution `x = t + shift` leaves `t³ + p t + q`. Which formula its roots have depends on the
discriminant `q² / 4 + p³ / 27`. The formulas are given over any reals; a cubic with complex
coefficients is solved over the doubles for their real parts.
-/

namespace Surd

/-- What the formulas need of the reals beyond sums and products. -/
structure Reals (α : Type) where
  div : α → α → Except Failure α
  cube : α → Except Failure α
  sqrt : α → Except Failure α
  cbrt : α → α
  cos : α → Except Failure α
  /-- The angle of the point given by its height and its distance to the right. -/
  atan2 : α → α → α
  abs : α → α
  lt : α → α → Bool
  pi : α

namespace Cubic

structure Depressed (α : Type) where
  p : α
  q : α
  discriminant : α
  shift : α
deriving DecidableEq, Repr

inductive Case where
  | tripleRoot | doubleRoot | oneReal | threeReal
deriving DecidableEq, Repr

/-! ## Formulas -/

section
variable {α : Type} [Add α] [Sub α] [Mul α] [Neg α] [NatCast α] (R : Reals α)

/-- A number of the reals. -/
abbrev nat (n : Nat) : α := n

def depress (a b c d : α) : Except Failure (Depressed α) := do
  let p ← R.div (nat 3 * a * c - b * b) (nat 3 * a * a)
  let b₃ ← R.cube b
  let a₃ ← R.cube a
  let q ← R.div (nat 2 * b₃ - nat 9 * a * b * c + nat 27 * a * a * d) (nat 27 * a₃)
  let left ← R.div (q * q) (nat 4)
  let p₃ ← R.cube p
  let right ← R.div p₃ (nat 27)
  let shift ← R.div (-b) (nat 3 * a)
  pure ⟨p, q, left + right, shift⟩

namespace Depressed

/-- Below the threshold the discriminant and `p` count as zero. -/
def case (threshold : α) (t : Depressed α) : Case :=
  if R.lt (R.abs t.discriminant) threshold then
    if R.lt (R.abs t.p) threshold then .tripleRoot else .doubleRoot
  else if R.lt (nat 0) t.discriminant then .oneReal
  else .threeReal

/-- A real root of the cubic, for one of the depressed cubic. -/
def realRoot (t : Depressed α) (x : α) : α × α := (x + t.shift, nat 0)

def multipleRoots (t : Depressed α) (factors : α → List α) : Except Failure (List (α × α)) := do
  let half ← R.div (-t.q) (nat 2)
  pure ((factors (R.cbrt half)).map t.realRoot)

def oneRealRoot (t : Depressed α) : Except Failure (List (α × α)) := do
  let s ← R.sqrt t.discriminant
  let half ← R.div (-t.q) (nat 2)
  let u := R.cbrt (half + s)
  let v := R.cbrt (half - s)
  let middle ← R.div (-(u + v)) (nat 2)
  let three ← R.sqrt (nat 3)
  let im ← R.div (three * (u - v)) (nat 2)
  let re := middle + t.shift
  pure [t.realRoot (u + v), (re, im), (re, -im)]

def threeRealRoots (t : Depressed α) : Except Failure (List (α × α)) := do
  let height ← R.sqrt (-t.discriminant)
  let half ← R.div (-t.q) (nat 2)
  let angle := R.atan2 height half
  let third ← R.div (-t.p) (nat 3)
  let r ← R.sqrt third
  [0, 1, 2].mapM fun k => do
    let part ← R.div (angle + nat 2 * R.pi * nat k) (nat 3)
    let cosine ← R.cos part
    pure (t.realRoot (nat 2 * r * cosine))

/-- The roots of the cubic as real and imaginary parts. -/
def roots (t : Depressed α) : Case → Except Failure (List (α × α))
  | .tripleRoot => t.multipleRoots R fun u => [u, u, u]
  | .doubleRoot => t.multipleRoots R fun u => [-u, -u, nat 2 * u]
  | .oneReal => t.oneRealRoot R
  | .threeReal => t.threeRealRoots R

end Depressed

end

/-! ## Over the doubles -/

variable (cfg : Settings)

def doubles : Reals Binary64 where
  div := Binary64.div
  cube := cfg.elementary.power 3
  sqrt := cfg.elementary.sqrt
  cbrt := cfg.elementary.cbrt
  cos := cfg.elementary.cosine
  atan2 := cfg.elementary.atan2
  abs := Binary64.abs
  lt := Binary64.lt
  pi := Binary64.pi

def depressReal (a b c d : Gaussian) : Except Failure (Depressed Binary64) := do
  let a ← Binary64.ofFraction a.re
  let b ← Binary64.ofFraction b.re
  let c ← Binary64.ofFraction c.re
  let d ← Binary64.ofFraction d.re
  depress (doubles cfg) a b c d

/-- The three roots of `a x³ + b x² + c x + d`, of which only the real parts count. -/
def solve (a b c d : Gaussian) : Except Failure (List Gaussian) := do
  let t ← depressReal cfg a b c d
  let roots ← t.roots (doubles cfg) (t.case (doubles cfg) cfg.caseThreshold)
  roots.mapM fun (x, y) => Gaussian.ofDoubles cfg x y

end Cubic

end Surd
