import Surd.Binary64.Constants
import Surd.Expr.Scalar

/-!
# Expressions

Sums and products have any number of arguments. Differences and quotients are sums and products with
a factor of minus one and a power of minus one.
-/

namespace Surd

inductive Constant where
  | e | pi
deriving DecidableEq, Repr

inductive Operation where
  | sin | cos | exp | abs | sinDegrees | cosDegrees
  /-- Something that can be written but has no value. -/
  | other (name : String)
deriving DecidableEq, Repr

inductive Expr where
  | number (x : Scalar)
  | imaginaryUnit
  | constant (c : Constant)
  | unknown (name : List Char)
  /-- The inverse of zero. -/
  | infinite
  /-- What has no value at all. -/
  | undefined
  | sum (args : List Expr)
  | product (args : List Expr)
  | power (base exponent : Expr)
  | apply (f : Operation) (args : List Expr)
deriving Inhabited

namespace Constant

/-- The double next to a constant. -/
def toDouble : Constant → Binary64
  | .e => .e
  | .pi => .pi

end Constant

namespace Expr

instance (n : Nat) : OfNat Expr n := ⟨.number (.exact n)⟩

/-- An exact number. -/
@[match_pattern] abbrev exact (q : Rat) : Expr := .number (.exact q)

def minusOne : Expr := exact (-1)

def half : Expr := exact (1/2)

def unsupported (name : String) : Expr := .apply (.other name) []

/-- The value of an exact integer. -/
def integer? : Expr → Option Int
  | .number x => x.integer?
  | _ => none

/-- The value of an exact number. -/
def fraction? : Expr → Option Rat
  | .number x => x.fraction?
  | _ => none

def isZero : Expr → Bool
  | .number x => x.isZero
  | _ => false

def isOne : Expr → Bool
  | .number x => x == 1
  | _ => false

def isSum : Expr → Bool
  | .sum _ => true
  | _ => false

def isProduct : Expr → Bool
  | .product _ => true
  | _ => false

def isPower : Expr → Bool
  | .power _ _ => true
  | _ => false

def isInfinite : Expr → Bool
  | .infinite => true
  | _ => false

def isUndefined : Expr → Bool
  | .undefined => true
  | _ => false

def isNumber : Expr → Bool
  | .number _ | .undefined => true
  | _ => false

def addends : Expr → List Expr
  | .sum args => args
  | x => [x]

def factors : Expr → List Expr
  | .product args => args
  | x => [x]

/-- A sum as it stands; one of a single argument is the argument. -/
def ofAddends : List Expr → Expr
  | [] => 0
  | [x] => x
  | args => .sum args

def ofFactors : List Expr → Expr
  | [] => 1
  | [x] => x
  | args => .product args

/-- A number times an expression that starts with no number. -/
def asMultiple : Expr → Scalar × Expr
  | .number x => (x, 1)
  | .product (.number c :: rest) => (c, ofFactors rest)
  | x => (1, x)

/-- Base and exponent. The inverse of an integer is taken as a power of it. -/
def asPower : Expr → Expr × Expr
  | .power b e =>
    match b.fraction?, e with
    | some q, .number x =>
      if q.num = 1 ∧ q.den ≠ 1 then (exact q.den, .number x.neg) else (b, e)
    | _, _ => (b, e)
  | .apply .exp [x] => (.constant .e, x)
  | x => (x, 1)

mutual

/-- How many parts an expression has. -/
def size : Expr → Nat
  | .sum args | .product args | .apply _ args => sizes args + 1
  | .power b e => b.size + e.size + 1
  | _ => 1

def sizes : List Expr → Nat
  | [] => 0
  | x :: rest => x.size + sizes rest

end

end Expr

end Surd
