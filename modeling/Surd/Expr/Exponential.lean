import Surd.Expr.Modulus

/-!
# Exponentials

The exponential of a rounded number is rounded, and that of a multiple of half a turn is a power of
the imaginary unit. What can be computed of the exponential of a sum is taken out.
-/

namespace Surd.Expr

/-- Numbers beyond as many bits are not computed. -/
def maxComputedBits : Nat := 67108864

namespace Simplifier

variable (s : Simplifier)

/-- A complex number from its rounded parts. -/
def ofRounded (bits : Nat) (re im : Rat) : Expr :=
  s.sum [.number (.ofRat bits re), s.product [.number (.ofRat bits im), .imaginaryUnit]]

/-- The bits beyond the precision of a result that are computed. -/
def guardBits : Nat := 40

def roundedExp (x : BigFloat) : Option Expr :=
  if maxComputedBits < 2 * x.value.abs then none
  else some (.number (.ofRat x.bits (Approximate.exp (x.bits + guardBits) x.value)))

/-- The precision of a complex number with a rounded part. -/
def roundedBits? : Scalar × Scalar → Option Nat
  | (.exact _, .exact _) => none
  | (.rounded x, .exact _) | (.exact _, .rounded x) => some x.bits
  | (.rounded x, .rounded y) => some (max x.bits y.bits)

/-- The exponential of a complex number with a rounded part. -/
def complexExp? (z : Scalar × Scalar) : Option Expr := do
  let bits ← roundedBits? z
  if maxComputedBits < 2 * z.1.value.abs then none
  else
    let w := bits + guardBits
    let r := Approximate.exp w z.1.value
    let y := z.2.value
    some (s.ofRounded bits (r * Approximate.cos w y) (r * Approximate.sin w y))

/-- The exponential of a number of half turns. -/
def expOfTurns (q : Rat) : Expr :=
  let r := q - 2 * (q / 2).floor
  if r = 0 then 1
  else if r = 1 then minusOne
  else if r = 1/2 then .imaginaryUnit
  else if r = 3/2 then .product [minusOne, .imaginaryUnit]
  else
    let near := if 1 < r then r - 2 else r
    .apply .exp [s.product [exact near, .constant .pi, .imaginaryUnit]]

/-- How often a product has half a turn as its factor. -/
def halfTurns? (args : List Expr) : Option Rat :=
  match (s.product args).factors.partition isNumber with
  | (numbers, [x, y]) =>
    match x, y with
    | .constant .pi, .imaginaryUnit | .imaginaryUnit, .constant .pi =>
      numbers.foldl (fun q x => q.bind fun q => x.fraction?.map (q * ·)) (some 1)
    | _, _ => none
  | _ => none

/-- The argument of a logarithm. -/
def ofLog? : Expr → Option Expr
  | .apply (.other "log") [x] => some x
  | _ => none

/-- The exponential of a product; of one with a logarithm it is a power. -/
def expOfProduct (args : List Expr) : Expr :=
  match s.halfTurns? args with
  | some q => s.expOfTurns q
  | none =>
    match args.filterMap ofLog?, args.filter fun x => (ofLog? x).isNone with
    | [x], others =>
      if others.all isReal then s.power x (s.product others)
      else .apply .exp [.product args]
    | _, _ => .apply .exp [.product args]

/-- The exponential of anything but a sum. -/
def expOfTerm (x : Expr) : Expr :=
  match x with
  | .number (.rounded v) => (roundedExp v).getD (.apply .exp [x])
  | .undefined | .infinite => .undefined
  | .product args => s.expOfProduct args
  | x =>
    if x.isZero then 1
    else if x.isOne then .constant .e
    else (ofLog? x).getD (.apply .exp [x])

/-- What the exponentials of the terms of a sum are, and the terms that stay in the exponent. -/
def splitExponents (args : List Expr) : List Expr × List Expr :=
  args.foldl (fun (out, left) x =>
    if x.isOne then (out, left ++ [x])
    else
      match s.expOfTerm x with
      | .apply .exp [y] => (out, left ++ [y])
      | y => (out ++ [y], left)) ([], [])

def expOf (x : Expr) : Expr :=
  match x with
  | .sum args =>
    let (out, left) := s.splitExponents args
    if !out.isEmpty then s.product [s.product out, .apply .exp [s.sum left]]
    else if x.exactValue? == some (0, 0) then 1
    else
      ((complexParts? x).bind fun z => s.complexExp? z).getD (.apply .exp [ofAddends left])
  | x => s.expOfTerm x

end Simplifier

end Surd.Expr
