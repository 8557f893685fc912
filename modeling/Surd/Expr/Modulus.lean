import Surd.Expr.Simplifier

/-!
# Moduli

The modulus of a real value is the value or its negative, and that of a complex one is a square
root. The modulus of a product is the product of the moduli.
-/

namespace Surd.Expr.Simplifier

variable (s : Simplifier)

/-- The real and the imaginary part of a sum of a number and a multiple of the imaginary unit. -/
def complexParts? (x : Expr) : Option (Scalar × Scalar) :=
  let (re, rest) :=
    match x with
    | .sum (.number c :: rest) => (c, ofAddends rest)
    | x => ((0 : Scalar), x)
  match rest.asMultiple with
  | (im, .imaginaryUnit) => some (re, im)
  | _ => none

/-- The parts of a value that is a complex number. -/
def numberParts? (x : Expr) : Option (Scalar × Scalar) :=
  match complexParts? x with
  | some z => some z
  | none => x.exactValue?.map fun (re, im) => (.exact re, .exact im)

/-- The modulus of a value, or of something unknown. -/
def absOfValue (x : Expr) : Expr :=
  if x.isNonnegative then x
  else if x.isNonpositive then s.negate x
  else
    match numberParts? x with
    | some (re, im) => s.power (.number ((re.mul re).add (im.mul im))) half
    | none => .apply .abs [x]

def isAbs : Expr → Bool
  | .apply .abs _ => true
  | _ => false

def absOfPower (b e : Expr) : Expr :=
  let x := Expr.power b e
  if b.isReal && e.isInteger then
    if e.isEven then x
    else if b.fraction? == some (-1) then 1
    else s.power (s.absOfValue b) e
  else if b.isNonnegative && e.isReal then x
  else s.absOfValue x

def absOfFactor (x : Expr) : Expr :=
  match x with
  | .number c => .number c.abs
  | .imaginaryUnit => 1
  | .apply .abs _ => x
  | .power b e => s.absOfPower b e
  | x => s.absOfValue x

/-- The negative of the negative, which multiplies the numbers that a product starts with. -/
def tidyFactors (x : Expr) : Expr :=
  if x.isProduct then s.negate (s.negate x) else x

/-- The argument of a modulus: signs are moved to the front, and a sum is simplified. -/
def tidy (x : Expr) : Expr :=
  match x with
  | .sum args => s.sum (args.map s.tidyFactors)
  | x => s.tidyFactors x

/-- The modulus; factors whose moduli are not known stay together. -/
def absOf (x : Expr) : Expr :=
  match s.tidy x with
  | .undefined => .undefined
  | .infinite => .unsupported "Infinity"
  | .product args =>
    let moduli := args.map fun y => (y, s.absOfFactor y)
    let known := (moduli.filter fun (_, m) => !isAbs m).map Prod.snd
    let others := (moduli.filter fun (_, m) => isAbs m).map Prod.fst
    if others.isEmpty then s.product known
    else s.product [s.product known, .apply .abs [s.product others]]
  | x => s.absOfFactor x

end Surd.Expr.Simplifier
