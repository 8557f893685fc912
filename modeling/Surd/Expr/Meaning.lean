import Surd.Expr.Compute
import Surd.Expr.Factorial
import Surd.Expr.Phrase

/-!
# The meaning of phrases

An expression keeps the form in which it is written: a sum has the terms of the sums that are
written in it, and a product the factors. Only negatives are simplified, and the operands of
remainders and whole quotients are computed.
-/

namespace Surd.Expr

/-- What can be written: an expression; a comparison; a tuple, set or truth value, which may stand
in an expression that then has no value; or a list, text or function, which may not. -/
inductive Meaning where
  | expression (x : Expr)
  | comparison (name : String)
  | collection (name : String)
  | thing

/-- Why a phrase has no meaning. -/
inductive Nonsense where
  | unparsable
  /-- The remainder or the whole quotient of a number by zero. -/
  | zeroModulus

namespace Meaning

def expression? : Meaning → Option Expr
  | .expression x => some x
  | _ => none

/-- The operand of a written operation. -/
def operand? : Meaning → Option Expr
  | .collection name => some (.unsupported name)
  | x => x.expression?

/-- The argument of a function, or one side of a comparison. -/
def argument? : Meaning → Option Expr
  | .comparison name => some (.unsupported name)
  | x => x.operand?

def isComparison : Meaning → Bool
  | .comparison _ => true
  | _ => false

end Meaning

namespace Phrase

/-- The result, if there is one. -/
def orNonsense (x : Option Expr) : Except Nonsense Meaning :=
  match x with
  | some x => pure (.expression x)
  | none => throw .unparsable

/-! ## Functions -/

/-- A function of arguments that keeps its form. -/
def applyPlain (f : Function) (args : List Expr) : Option Expr :=
  match f, args with
  | .sqrt, [x] => some (.power x half)
  | .cbrt, [x] => some (.power x (exact (1/3)))
  | .abs false, [x] => some (.apply .abs [x])
  | .abs true, [x] => some ((Simplifier.forSize x.size).absOf x)
  | .sin, [x] => some (.apply .sin [x])
  | .cos, [x] => some (.apply .cos [x])
  | .exp, [x] => some (.apply .exp [x])
  | .sinDegrees, xs => some (.apply .sinDegrees xs)
  | .cosDegrees, xs => some (.apply .cosDegrees xs)
  | .factorial, [x] => some (factorial x)
  | .doubleFactorial, [x] => doubleFactorial x
  | .gamma, [x] => some (gamma x)
  | .logarithm, [x] => some (.apply (.other "log") [x])
  | .logarithm, [x, y] => some (.apply (.other "log") [x, y])
  | .unsupported name, [x] => some (.apply (.other name) [x])
  | _, _ => none

/-- A function of computed arguments. -/
def applyComputed (f : Function) (args : List Expr) : Option Expr :=
  let s := Simplifier.forSize (sizes args)
  match f, args with
  | .sqrt, [x] => some (s.power x half)
  | .cbrt, [x] => some (s.power x (exact (1/3)))
  | .abs _, [x] => some (s.absOf x)
  | .sin, [x] => some (s.sin x)
  | .cos, [x] => some (s.cos x)
  | .exp, [x] => some (s.expOf x)
  | _, _ => applyPlain f args

/-- Roots and moduli are operations, and not defined for comparisons. -/
def isOperation : Function → Bool
  | .sqrt | .cbrt | .abs _ => true
  | _ => false

def invoke (computed : Bool) (f : Function) (args : List Meaning) : Except Nonsense Meaning :=
  if isOperation f && args.any Meaning.isComparison then throw .unparsable
  else
    orNonsense <| (args.mapM Meaning.argument?).bind fun xs =>
      if computed then applyComputed f xs else applyPlain f xs

/-! ## Operations -/

/-- A sum of two arguments; the terms of a written sum are joined to it. -/
def operatePlain (op : Operator) (joinLeft joinRight : Bool) (x y : Expr) : Expr :=
  let terms (join : Bool) (z : Expr) : List Expr := if join then z.addends else [z]
  let factors (join : Bool) (z : Expr) : List Expr := if join then z.factors else [z]
  match op with
  | .add => .sum (terms joinLeft x ++ terms joinRight y)
  | .sub => .sum (terms joinLeft x ++ [.product [minusOne, y]])
  | .mul => .product (factors joinLeft x ++ factors joinRight y)
  | .div => .product (factors joinLeft x ++ [.power y minusOne])
  | _ => .power x y

def orZeroModulus (x : Option Expr) : Except Nonsense Expr :=
  match x with
  | some x => pure x
  | none => throw .zeroModulus

/-- An operation on computed operands. -/
def compute (op : Operator) (x y : Expr) : Except Nonsense Expr :=
  let s := Simplifier.forSize (x.size + y.size)
  match op with
  | .add => pure (s.sum [x, y])
  | .sub => pure (s.sub x y)
  | .mul => pure (s.product [x, y])
  | .div => pure (s.div x y)
  | .power => pure (s.power x y)
  | .modulo => orZeroModulus (s.mod x y)
  | .floorDivide => orZeroModulus (s.floorDiv x y)

def isRemainder : Operator → Bool
  | .modulo | .floorDivide => true
  | _ => false

/-- The meaning of an operation on two operands. -/
def operate (computed : Bool) (op : Operator) (joinLeft joinRight : Bool) (x y : Meaning) :
    Except Nonsense Meaning :=
  if computed then
    match x.expression?, y.expression? with
    | some a, some b => do
      let z ← compute op a b
      pure (.expression z)
    | _, _ => throw .unparsable
  else
    orNonsense <| x.operand?.bind fun a => y.operand?.map fun b =>
      operatePlain op joinLeft joinRight a b

/-! ## Phrases -/

/-- A comparison of what can be compared. -/
def compare (name : String) (x y : Meaning) : Except Nonsense Meaning :=
  match x.argument?, y.argument? with
  | some _, some _ => pure (.comparison name)
  | _, _ => throw .unparsable

mutual

/-- The meaning of a phrase; it is computed within a remainder or a whole quotient. -/
def meaning (computed : Bool) : Phrase → Except Nonsense Meaning
  | .value x => pure (.expression x)
  | .truth name => pure (.collection name)
  | .thing => pure .thing
  | .plus x => do
    let a ← meaning computed x
    orNonsense a.expression?
  | .minus x => do
    let a ← meaning computed x
    orNonsense (a.expression?.map negative)
  | .binary op x y => do
    let inner := computed || isRemainder op
    let a ← meaning inner x
    let b ← meaning inner y
    let joinLeft := if op = .add ∨ op = .sub then x.isSum else x.isProduct
    let joinRight := if op = .add then y.isSum else y.isProduct
    operate inner op joinLeft joinRight a b
  | .call f args => do
    let xs ← meanings computed args
    invoke computed f xs
  | .comparison isFirst r x y => do
    let a ← meaning computed x
    let b ← meaning computed y
    compare (if isFirst then r.name else "And") a b
  | .tuple items => do
    let _ ← meanings computed items
    pure (.collection "Tuple")
  | .list items => do
    let _ ← meanings computed items
    pure .thing
  | .set items => do
    let _ ← meanings computed items
    pure (.collection (if items.isEmpty then "Dict" else "FiniteSet"))

def meanings (computed : Bool) : List Phrase → Except Nonsense (List Meaning)
  | [] => pure []
  | x :: rest => do
    let a ← meaning computed x
    let as ← meanings computed rest
    pure (a :: as)

end

end Phrase

end Surd.Expr
