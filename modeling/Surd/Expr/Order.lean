import Surd.Expr.Basic

/-!
# The order of arguments

The arguments of simplified sums and products stand in an order: by the kind of expression, then by
the number of its parts, then part by part.
-/

namespace Surd

namespace Operation

def name : Operation → String
  | .sin => "sin"
  | .cos => "cos"
  | .exp => "exp"
  | .abs => "Abs"
  | .sinDegrees => "sind"
  | .cosDegrees => "cosd"
  | .other name => name

/-- Most operations come after everything else, by their names. -/
def rank (f : Operation) : Nat :=
  if f.name = "Infinity" then 3
  else if f.name = "NegativeInfinity" then 6
  else if f.name = "Abs" then 20
  else if f.name = "factorial" then 30
  else 100

end Operation

namespace Expr

def rank : Expr → Nat
  | .number x => x.rank
  | .undefined => 4
  | .constant .e => 10
  | .constant .pi => 11
  | .imaginaryUnit => 12
  | .unknown _ => 13
  | .power _ _ => 15
  | .product _ => 16
  | .sum _ => 17
  | .apply f _ => f.rank
  | .infinite => 100

/-- The name among the expressions of the last rank. -/
def rankName : Expr → String
  | .apply f _ => f.name
  | .infinite => "ComplexInfinity"
  | _ => ""

def compareChars (a b : List Char) : Ordering :=
  if a < b then .lt else if b < a then .gt else .eq

def compareKind (x y : Expr) : Ordering :=
  (compare x.rank y.rank).then (compareChars x.rankName.toList y.rankName.toList)

mutual

def order (x y : Expr) : Ordering :=
  (compareKind x y).then <|
    match x, y with
    | .number a, .number b => a.compareContent b
    | .unknown a, .unknown b => compareChars a b
    | .power b e, .power c f => (b.order c).then (e.order f)
    | .sum xs, .sum ys | .product xs, .product ys | .apply _ xs, .apply _ ys =>
      (compare xs.length ys.length).then (orderAll xs ys)
    | _, _ => .eq

def orderAll : List Expr → List Expr → Ordering
  | x :: xs, y :: ys => (x.order y).then (orderAll xs ys)
  | _, _ => .eq

end

/-- Whether two expressions are the same. -/
def same (x y : Expr) : Bool := x.order y == .eq

def insertInOrder (x : Expr) : List Expr → List Expr
  | [] => [x]
  | y :: rest => if x.order y == .gt then y :: insertInOrder x rest else x :: y :: rest

def inOrder (xs : List Expr) : List Expr := xs.foldr insertInOrder []

end Expr

end Surd
