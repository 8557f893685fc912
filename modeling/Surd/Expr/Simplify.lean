import Surd.Expr.Power
import Surd.Expr.Product
import Surd.Expr.Sum

/-!
# Simplification

The rules of each depth use those of the depth below. The depth that an expression is given is far
beyond what its parts need.
-/

namespace Surd.Expr

namespace Simplifier

def ofDepth : Nat → Simplifier
  | 0 => plain
  | n + 1 =>
    let s := ofDepth n
    ⟨s.sumOf, s.productOf, s.powerOf⟩

/-- A simplifier for an expression. -/
def forSize (n : Nat) : Simplifier := ofDepth (100 + 16 * n)

end Simplifier

/-- The negative of an expression: the arguments of a sum are negated and simplified. -/
def negative (x : Expr) : Expr := (Simplifier.forSize x.size).negate x

end Surd.Expr
