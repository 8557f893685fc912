import Surd.Expr.Order

/-!
# What is known of the value of an expression

An expression without unknowns has a value, which may be known exactly, or approximately as a
complex number. From it follow the sign and the parity that simplification asks for. A value that is too
close to zero to tell its sign counts as zero.
-/

namespace Surd.Expr

/-! ## Exact values -/

/-- Powers of complex fractions with integer exponents. -/
def exactPower (z : Rat × Rat) (n : Nat) : Rat × Rat :=
  (List.range n).foldl
    (fun w _ => (w.1 * z.1 - w.2 * z.2, w.1 * z.2 + w.2 * z.1)) (1, 0)

def exactInverse (z : Rat × Rat) : Option (Rat × Rat) :=
  let m := z.1 * z.1 + z.2 * z.2
  if m = 0 then none else some (z.1 / m, -z.2 / m)

/-- The largest exponent of powers whose values are looked at. -/
def maxPower : Nat := 1000

mutual

/-- The parts of a value that is a complex fraction. -/
def exactValue? : Expr → Option (Rat × Rat)
  | .number (.exact q) => some (q, 0)
  | .imaginaryUnit => some (0, 1)
  | .sum args => exactSum? args
  | .product args => exactProduct? args
  | .power b e => do
    let z ← b.exactValue?
    let w ← e.exactValue?
    if w.2 ≠ 0 ∨ w.1.den ≠ 1 ∨ maxPower < w.1.num.natAbs then none
    else if w.1.num < 0 then (exactInverse z).map fun v => exactPower v w.1.num.natAbs
    else some (exactPower z w.1.num.natAbs)
  | _ => none

def exactSum? : List Expr → Option (Rat × Rat)
  | [] => some (0, 0)
  | x :: rest => do
    let z ← x.exactValue?
    let w ← exactSum? rest
    pure (z.1 + w.1, z.2 + w.2)

def exactProduct? : List Expr → Option (Rat × Rat)
  | [] => some (1, 0)
  | x :: rest => do
    let z ← x.exactValue?
    let w ← exactProduct? rest
    pure (z.1 * w.1 - z.2 * w.2, z.1 * w.2 + z.2 * w.1)

end

/-! ## Approximate values -/

/-- The bits to which values are known. -/
def knownBits : Nat := 200

/-- Below 2^-100 a value is not told from zero. -/
def isTiny (x : Rat) : Bool := x.abs < twoPower (-100)

/-- The value rounded down; one that is not told from an integer counts as it. -/
def floorOfValue (x : Rat) : Int :=
  let n := roundEven x
  if isTiny (x - n) then n else x.floor

/-- Long fractions are rounded. -/
def settle (x : Rat) : Rat :=
  if 4 * knownBits < x.num.natAbs.log2 + x.den.log2 then roundBits (2 * knownBits) x else x

structure Approximation where
  re : Rat
  im : Rat
deriving Repr

namespace Approximation

def add (z w : Approximation) : Approximation := ⟨settle (z.re + w.re), settle (z.im + w.im)⟩

def mul (z w : Approximation) : Approximation :=
  ⟨settle (z.re * w.re - z.im * w.im), settle (z.re * w.im + z.im * w.re)⟩

def inverse? (z : Approximation) : Option Approximation :=
  let m := z.re * z.re + z.im * z.im
  if m = 0 then none else some ⟨settle (z.re / m), settle (-z.im / m)⟩

def modulus (z : Approximation) : Rat :=
  if z.im = 0 then z.re.abs else Approximate.sqrt knownBits (settle (z.re * z.re + z.im * z.im))

def angle (z : Approximation) : Rat := Approximate.atan2 knownBits z.im z.re

def powNat (z : Approximation) (n : Nat) : Approximation :=
  (List.range n).foldl (fun w _ => w.mul z) ⟨1, 0⟩

/-- Arguments of exponentials beyond which no value is looked at. -/
def maxArgument : Rat := 100000

def exp? (z : Approximation) : Option Approximation :=
  if maxArgument < z.re.abs ∨ maxArgument < z.im.abs then none
  else
    let r := Approximate.exp knownBits z.re
    if z.im = 0 then some ⟨r, 0⟩
    else
      some ⟨settle (r * Approximate.cos knownBits z.im),
        settle (r * Approximate.sin knownBits z.im)⟩

/-- The square root; of its parts the one further from zero is computed first. -/
def sqrt (z : Approximation) : Approximation :=
  let root (x : Rat) : Rat := Approximate.sqrt knownBits (settle x)
  if z.im = 0 ∧ 0 ≤ z.re then ⟨root z.re, 0⟩
  else if 0 ≤ z.re then
    let re := root ((z.modulus + z.re) / 2)
    ⟨re, settle (z.im / (2 * re))⟩
  else
    let im := root ((z.modulus - z.re) / 2)
    ⟨settle (z.im.abs / (2 * im)), if z.im < 0 then -im else im⟩

def powInt? (z : Approximation) (n : Int) : Option Approximation :=
  if n < 0 then z.inverse?.map fun v => v.powNat n.natAbs else some (z.powNat n.natAbs)

def power? (z w : Approximation) : Option Approximation :=
  if w.im = 0 ∧ w.re.den ≤ 2 ∧ w.re.num.natAbs ≤ maxPower then
    (if w.re.den = 1 then z else z.sqrt).powInt? w.re.num
  else if z.re = 0 ∧ z.im = 0 then if 0 < w.re then some ⟨0, 0⟩ else none
  else
    let log : Approximation := ⟨Approximate.log knownBits z.modulus,
      if z.im = 0 ∧ 0 < z.re then 0 else z.angle⟩
    (w.mul log).exp?

/-- The sine, from the exponentials of both parts. -/
def sin? (z : Approximation) : Option Approximation := do
  if maxArgument < z.re.abs then none
  else
    let s := Approximate.sin knownBits z.re
    if z.im = 0 then some ⟨s, 0⟩
    else do
      let u ← exp? ⟨z.im, 0⟩
      let v ← exp? ⟨-z.im, 0⟩
      let c := Approximate.cos knownBits z.re
      some ⟨settle (s * (u.re + v.re) / 2), settle (c * (u.re - v.re) / 2)⟩

def cos? (z : Approximation) : Option Approximation :=
  sin? ⟨z.re + Approximate.pi knownBits / 2, z.im⟩

end Approximation

mutual

def approximation? : Expr → Option Approximation
  | .number x => some ⟨x.value, 0⟩
  | .imaginaryUnit => some ⟨0, 1⟩
  | .constant .pi => some ⟨Approximate.pi knownBits, 0⟩
  | .constant .e => some ⟨Approximate.exp knownBits 1, 0⟩
  | .sum args => approximateSum? args
  | .product args => approximateProduct? args
  | .power b e => do
    let z ← b.approximation?
    let w ← e.approximation?
    z.power? w
  | .apply f [x] => do
    let z ← x.approximation?
    match f with
    | .sin => z.sin?
    | .cos => z.cos?
    | .exp => z.exp?
    | .abs => some ⟨z.modulus, 0⟩
    | _ => none
  | _ => none

def approximateSum? : List Expr → Option Approximation
  | [] => some ⟨0, 0⟩
  | x :: rest => do
    let z ← x.approximation?
    let w ← approximateSum? rest
    pure (z.add w)

def approximateProduct? : List Expr → Option Approximation
  | [] => some ⟨1, 0⟩
  | x :: rest => do
    let z ← x.approximation?
    let w ← approximateProduct? rest
    pure (z.mul w)

end

/-! ## Properties -/

def realValue? (x : Expr) : Option Rat := do
  let z ← x.approximation?
  if isTiny z.im then some z.re else none

/-- Whether the value is known to be real and not negative. -/
def isNonnegative (x : Expr) : Bool :=
  match x.realValue? with
  | some v => isTiny v || 0 < v
  | none => false

def isNonpositive (x : Expr) : Bool :=
  match x.realValue? with
  | some v => isTiny v || v < 0
  | none => false

/-- Whether a value is negative, if it is known. -/
def negative? (x : Expr) : Option Bool :=
  (x.approximation?).map fun z => isTiny z.im && !isTiny z.re && z.re < 0

def isReal (x : Expr) : Bool := x.realValue?.isSome

def imaginaryValue? (x : Expr) : Option Rat := do
  let z ← x.approximation?
  if isTiny z.re && !isTiny z.im then some z.im else none

/-- The value as an integer, if it is exactly one. -/
def integerValue? (x : Expr) : Option Int := do
  let z ← x.exactValue?
  if z.2 = 0 ∧ z.1.den = 1 then some z.1.num else none

def isInteger (x : Expr) : Bool := x.integerValue?.isSome

def isEven (x : Expr) : Bool :=
  match x.integerValue? with
  | some n => n % 2 = 0
  | none => false

mutual

/-- Whether there are unknowns in the expression. -/
def hasUnknown : Expr → Bool
  | .unknown _ => true
  | .sum args | .product args | .apply _ args => anyUnknown args
  | .power b e => b.hasUnknown || e.hasUnknown
  | _ => false

def anyUnknown : List Expr → Bool
  | [] => false
  | x :: rest => x.hasUnknown || anyUnknown rest

end

/-- Whether a minus sign can be taken out of a number or a product. -/
def startsNegative : Expr → Bool
  | .number x => x.isNegative
  | .product (.number x :: _) => x.isNegative
  | _ => false

end Surd.Expr
