import Surd.BigFloat.Series

/-!
# Numbers in expressions

A number is exact, or it is rounded to a precision. An exact number is rounded before it meets a
rounded one. A rounded result that is zero is an exact zero.
-/

namespace Surd

inductive Scalar where
  | exact (q : Rat)
  | rounded (x : BigFloat)
deriving DecidableEq, Repr

namespace Scalar

instance (n : Nat) : OfNat Scalar n := ⟨.exact n⟩

instance : Inhabited Scalar := ⟨0⟩

def value : Scalar → Rat
  | .exact q => q
  | .rounded x => x.value

def fraction? : Scalar → Option Rat
  | .exact q => some q
  | .rounded _ => none

/-- The value of an exact integer. -/
def integer? : Scalar → Option Int
  | .exact q => if q.den = 1 then some q.num else none
  | .rounded _ => none

def isZero (x : Scalar) : Bool := x.value == 0

def isNegative (x : Scalar) : Bool := x.value < 0

/-- A rounded result. -/
def ofRat (bits : Nat) (x : Rat) : Scalar :=
  if x = 0 then .exact 0 else .rounded (.ofRat bits x)

/-- An operation on exact values, or else on values of one precision with a rounded result. -/
def combine (f : Rat → Rat → Rat) : Scalar → Scalar → Scalar
  | .exact p, .exact q => .exact (f p q)
  | .exact p, .rounded y => ofRat y.bits (f (roundBits y.bits p) y.value)
  | .rounded x, .exact q => ofRat x.bits (f x.value (roundBits x.bits q))
  | .rounded x, .rounded y => ofRat (max x.bits y.bits) (f x.value y.value)

def add : Scalar → Scalar → Scalar := combine (· + ·)

def mul : Scalar → Scalar → Scalar := combine (· * ·)

/-- The quotient; the divisor is not zero. -/
def div : Scalar → Scalar → Scalar
  | .exact p, .rounded y => mul (.exact p) (ofRat y.bits (1 / y.value))
  | x, y => combine (· / ·) x y

def neg : Scalar → Scalar
  | .exact q => .exact (-q)
  | .rounded x => .rounded { x with value := -x.value }

def abs (x : Scalar) : Scalar := if x.isNegative then x.neg else x

/-- The remainder with the sign of the divisor, which is not zero. -/
def mod : Scalar → Scalar → Scalar
  | .exact p, .rounded y => ofRat y.bits (remainder p y.value)
  | .rounded x, .exact q =>
    if q.den = 1 then ofRat x.bits (remainder x.value (roundBits x.bits q))
    else ofRat x.bits (remainder x.value q)
  | x, y => combine remainder x y
where
  remainder (x y : Rat) : Rat := x - (x / y).floor * y

/-! ## Order -/

def lexicographic (xs : List Ordering) : Ordering := xs.foldl Ordering.then .eq

def compareBool (a b : Bool) : Ordering :=
  match a, b with
  | false, true => .lt
  | true, false => .gt
  | _, _ => .eq

/-- Rounded numbers in the order of sign, mantissa, exponent and precision. -/
def compareRounded (x y : BigFloat) : Ordering :=
  let (m, e, b) := x.parts
  let (n, f, c) := y.parts
  lexicographic [compareBool (x.value < 0) (y.value < 0), compare m n, compare e f, compare b c,
    compare x.bits y.bits]

/-- The order within numbers of one rank. -/
def compareContent : Scalar → Scalar → Ordering
  | .exact p, .exact q => (compare p.num q.num).then (compare p.den q.den)
  | .rounded x, .rounded y => compareRounded x y
  | .exact _, .rounded _ => .lt
  | .rounded _, .exact _ => .gt

/-- Zero, one and one half come first, then minus one, integers, fractions, and rounded numbers. -/
def rank : Scalar → Nat
  | .exact q =>
    if q = 0 then 0
    else if q = 1 then 1
    else if q = 1/2 then 2
    else if q = -1 then 5
    else if q.den = 1 then 7
    else 8
  | .rounded _ => 9

end Scalar

end Surd
