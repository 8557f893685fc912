import Surd.Expr.Numeric

/-!
# Simplifiers

A simplifier makes sums, products and powers of simplified arguments. Each rule simplifies the parts
that it makes with a simplifier of a smaller depth; the one of depth zero leaves everything as it
is.
-/

namespace Surd.Expr

structure Simplifier where
  sum : List Expr → Expr
  product : List Expr → Expr
  power : Expr → Expr → Expr

namespace Simplifier

def plain : Simplifier := ⟨ofAddends, ofFactors, .power⟩

variable (s : Simplifier)

/-- The infinity on the other side. -/
def opposite? (name : String) : Option Expr :=
  if name = "Infinity" then some (.unsupported "NegativeInfinity")
  else if name = "NegativeInfinity" then some (.unsupported "Infinity")
  else none

/-- The negative of a product changes the sign of the number it starts with. -/
def negateFactors : List Expr → Expr
  | .number (.exact q) :: rest =>
    if q = -1 then ofFactors rest
    else
      match rest with
      | .infinite :: _ => ofFactors (exact q :: rest)
      | .number x :: others => ofFactors (.number (x.mul (.exact (-q))) :: others)
      | _ => ofFactors (exact (-q) :: rest)
  | .number x :: rest => ofFactors (.number x.neg :: rest)
  | .infinite :: rest => ofFactors (.infinite :: rest)
  | .apply (.other name) [] :: rest =>
    match opposite? name with
    | some x => ofFactors (x :: rest)
    | none => ofFactors (minusOne :: .unsupported name :: rest)
  | args => ofFactors (minusOne :: args)

/-- The negative: a number changes its sign, a sum is multiplied out, and anything else gets a
factor. -/
def negate (x : Expr) : Expr :=
  match x with
  | .number a => .number a.neg
  | .undefined | .infinite => x
  | .sum _ => s.product [minusOne, x]
  | .product args => negateFactors args
  | .apply (.other name) _ => (opposite? name).getD (.product [minusOne, x])
  | _ => .product [minusOne, x]

/-- A number times the factors of a product, without simplifying them. -/
def scaleFactors (a : Scalar) : List Expr → Expr
  | .number x :: rest =>
    let y := x.mul a
    if y = 1 then ofFactors rest else ofFactors (.number y :: rest)
  | args => ofFactors (.number a :: args)

/-- A number times an expression that is an argument of a sum. A sum in it is not multiplied out. -/
def scale (a : Scalar) (x : Expr) : Expr :=
  if x.isOne then .number a
  else if a = 1 then x
  else if a = .exact (-1) then s.negate x
  else
    match x with
    | .sum _ => .product [.number a, x]
    | .product args => scaleFactors a args
    | _ =>
      let y := s.product [.number a, x]
      if y.isNumber && !x.isNumber then .product [.number a, x] else y

end Simplifier

end Surd.Expr
