import Surd.Expr.Simplifier

/-!
# Sums

The numbers in a sum are added, and so are the coefficients of equal terms. Sums within it are
joined to it.
-/

namespace Surd.Expr

/-- What is added up so far: a number or an infinite total, and terms with their coefficients. -/
structure Addends where
  total : Expr
  terms : List (Expr × Scalar)

namespace Addends

def empty : Addends := ⟨0, []⟩

def addNumber (a : Addends) (x : Scalar) : Addends :=
  match a.total with
  | .number y => { a with total := .number (y.add x) }
  | _ => a

/-- The terms with one more; equal terms are one. -/
def insertTerm (c : Scalar) (x : Expr) : List (Expr × Scalar) → List (Expr × Scalar)
  | [] => [(x, c)]
  | (y, d) :: rest =>
    if x.same y then (y, d.add c) :: rest else (y, d) :: insertTerm c x rest

def addTerm (a : Addends) (c : Scalar) (x : Expr) : Addends :=
  { a with terms := insertTerm c x a.terms }

/-- Whether a power stands for a number, or for a multiple of another power. -/
def isOpen (b e : Expr) : Bool :=
  b.isNumber &&
    match e.fraction? with
    | some r => r.den == 1 || r < 0
    | none => false

end Addends

namespace Simplifier

variable (s : Simplifier)

/-- The addends of a list. Those that come from its sums and open powers are taken last. There is no
result for a sum without a value. -/
def collectAddends : Nat → Addends → List Expr → Option Addends
  | 0, a, queue => some (queue.foldl (fun a x => a.addTerm 1 x) a)
  | _, a, [] => some a
  | fuel + 1, a, x :: queue =>
    match x with
    | .number c => collectAddends fuel (a.addNumber c) queue
    | .undefined => none
    | .infinite =>
      match a.total with
      | .infinite => none
      | _ => collectAddends fuel { a with total := .infinite } queue
    | .sum args => collectAddends fuel a (queue ++ args)
    | .product _ =>
      let (c, y) := x.asMultiple
      collectAddends fuel (a.addTerm c y) queue
    | .power _ _ =>
      let (b, e) := x.asPower
      let y := if Addends.isOpen b e then s.power b e else x
      if y.isPower then collectAddends fuel (a.addTerm 1 x) queue
      else collectAddends fuel a (queue ++ [y])
    | _ => collectAddends fuel (a.addTerm 1 x) queue

/-- A term times its coefficient, none if that is zero. -/
def multiple? (x : Expr) (c : Scalar) : Option Expr :=
  if c.isZero then none
  else if c = 1 then some x
  else
    match x with
    | .product args => some (.product (.number c :: args))
    | .sum _ => some (.product [.number c, x])
    | _ => some (s.product [.number c, x])

/-- The sum of what was collected. What has a value makes no difference to an infinite total. -/
def finishSum (a : Addends) : Expr :=
  let terms := a.terms.filterMap fun (x, c) => s.multiple? x c
  match a.total with
  | .number c =>
    let sorted := inOrder terms
    ofAddends (if c = 0 then sorted else .number c :: sorted)
  | total => ofAddends (total :: inOrder (terms.filter fun x => x.approximation?.isNone))

/-- A number and a product stand as they are. -/
def pairOfAddends? : List Expr → Option Expr
  | [x, y] =>
    match x.fraction?, y.fraction? with
    | _, some _ => if x.isProduct then some (.sum [y, x]) else none
    | some _, _ => if y.isProduct then some (.sum [x, y]) else none
    | _, _ => none
  | _ => none

def sumOf (args : List Expr) : Expr :=
  match args.filter fun x => !(x.fraction? == some 0) with
  | [] => 0
  | [x] => x
  | args =>
    (pairOfAddends? args).getD <|
      match s.collectAddends (8 * sizes args + 8) .empty args with
      | some a => s.finishSum a
      | none => .undefined

end Simplifier

end Surd.Expr
