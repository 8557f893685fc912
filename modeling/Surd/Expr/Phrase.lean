import Surd.Expr.Basic

/-!
# Phrases

A phrase is what a text says, before anything is made of it.
-/

namespace Surd.Expr

inductive Function where
  | sqrt | cbrt
  /-- The modulus, which is computed or left as it is. -/
  | abs (computed : Bool)
  | sin | cos | exp | sinDegrees | cosDegrees
  | factorial | doubleFactorial | gamma
  | logarithm
  /-- A function of one argument that has no value. -/
  | unsupported (name : String)
deriving DecidableEq, Repr

inductive Relation where
  | less | lessEqual | greater | greaterEqual | equal | notEqual
deriving DecidableEq, Repr

def Relation.name : Relation → String
  | .less => "StrictLessThan"
  | .lessEqual => "LessThan"
  | .greater => "StrictGreaterThan"
  | .greaterEqual => "GreaterThan"
  | .equal => "Equality"
  | .notEqual => "Unequality"

inductive Operator where
  | add | sub | mul | div | power | modulo | floorDivide
deriving DecidableEq, Repr

inductive Phrase where
  /-- A number, a variable or a constant. -/
  | value (x : Expr)
  /-- A truth value by its name. -/
  | truth (name : String)
  /-- Something that is not an expression. -/
  | thing
  | plus (x : Phrase)
  | minus (x : Phrase)
  | binary (op : Operator) (x y : Phrase)
  | call (f : Function) (args : List Phrase)
  /-- A comparison, the first one of a row or a later one. -/
  | comparison (isFirst : Bool) (r : Relation) (x y : Phrase)
  | tuple (items : List Phrase)
  | list (items : List Phrase)
  | set (items : List Phrase)
deriving Inhabited

namespace Phrase

/-- Whether a phrase is a sum or a difference. -/
def isSum : Phrase → Bool
  | .binary .add _ _ | .binary .sub _ _ => true
  | _ => false

/-- Whether a phrase is a product or a quotient. -/
def isProduct : Phrase → Bool
  | .binary .mul _ _ | .binary .div _ _ => true
  | _ => false

end Phrase

end Surd.Expr
