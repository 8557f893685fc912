import Surd.Expr.Simplify

/-!
# Computed operations

The operands of a remainder or a whole quotient are computed: their operations give simplified
expressions, and so do the remainder and the quotient.
-/

namespace Surd.Expr.Simplifier

variable (s : Simplifier)

/-! ## Arithmetic -/

/-- The difference of numbers, or a sum with a negative. -/
def sub (x y : Expr) : Expr := s.sum [x, s.negate y]

/-- The quotient: numbers are divided at once. -/
def div (x y : Expr) : Expr :=
  match x, y with
  | .number a, .number b =>
    if !b.isZero then .number (a.div b)
    else if a.isZero then .undefined
    else .infinite
  | _, _ => s.product [x, s.power y minusOne]

/-! ## Angles -/

/-- How often half a turn goes into an angle. -/
def ofHalfTurns? : Expr → Option Rat
  | .constant .pi => some 1
  | .product [.number (.exact q), .constant .pi] => some q
  | _ => none

/-- The sine of a number of half turns between zero and one half, if it is a square root over
two. -/
def firstSine? (q : Rat) : Option Expr :=
  if q = 0 then some 0
  else if q = 1/6 then some half
  else if q = 1/4 then some (s.product [half, s.power 2 half])
  else if q = 1/3 then some (s.product [half, s.power 3 half])
  else if q = 1/2 then some 1
  else none

def sineOfTurns? (q : Rat) : Option Expr :=
  let r := q - 2 * (q / 2).floor
  let t := if 1 < r then r - 1 else r
  (s.firstSine? (if t ≤ 1/2 then t else 1 - t)).map fun x => if 1 < r then s.negate x else x

def sin (x : Expr) : Expr :=
  match x with
  | .number (.rounded v) =>
    .number (.ofRat v.bits (Approximate.sin (v.bits + guardBits + 2 * v.value.den.log2) v.value))
  | _ =>
    if x.isZero then 0
    else
      ((ofHalfTurns? x).bind s.sineOfTurns?).getD <|
        if startsNegative x then s.negate (.apply .sin [s.negate x]) else .apply .sin [x]

def cos (x : Expr) : Expr :=
  match x with
  | .number (.rounded v) =>
    .number (.ofRat v.bits (Approximate.cos (v.bits + guardBits) v.value))
  | _ =>
    if x.isZero then 1
    else
      ((ofHalfTurns? x).bind fun q => s.sineOfTurns? (q + 1/2)).getD <|
        if startsNegative x then .apply .cos [s.negate x] else .apply .cos [x]

/-! ## Remainders -/

/-- The remainder of a real value, from the whole part of the quotient. -/
def modOfValue (x y : Expr) : Expr :=
  match (s.div x y).realValue?, y.realValue? with
  | some q, some d =>
    let whole : Int := if q < 0 then -floorOfValue (-q) else floorOfValue q
    let r := s.sub x (s.product [exact whole, y])
    match r.realValue? with
    | some v => if !isTiny v && v * d < 0 then s.sum [r, y] else r
    | none => r
  | _, _ => .apply (.other "Mod") [x, y]

/-- The remainder with the sign of the divisor, none for a divisor of zero. -/
def mod (x y : Expr) : Option Expr :=
  if y.isZero then none
  else
    match x, y with
    | .number a, .number b => some (.number (a.mod b))
    | _, _ =>
      let isBad (z : Expr) : Bool := z.isInfinite || z.isUndefined
      if isBad x || isBad y then some .undefined
      else if x.isZero || x.same y || x.same (s.negate y) then some 0
      else if x.isInteger && y.isOne || (s.div x y).isInteger then some 0
      else some (s.modOfValue x y)

/-! ## Whole quotients -/

def floorOfNumber (x : Scalar) : Expr := exact x.value.floor

/-- The value rounded down, both parts of a complex one. -/
def floor (x : Expr) : Expr :=
  match x with
  | .number a => floorOfNumber a
  | .infinite | .undefined => x
  | _ =>
    if x.isInteger then x
    else
      match x.approximation? with
      | some z =>
        let part (v : Rat) : Expr := exact (floorOfValue v)
        s.sum [part z.re, s.product [part z.im, .imaginaryUnit]]
      | none => .apply (.other "floor") [x]

/-- The whole quotient of an integer by a number that is not zero. -/
def wholeOfInteger (n : Int) (y : Scalar) : Expr :=
  let q := n / y.value
  let whole : Int := if 0 ≤ q then q.floor else q.ceil - 1
  let left := (Scalar.exact n).add (y.mul (.exact whole)).neg
  let isDivisor : Bool := y.fraction?.isNone && left.value == y.value
  exact (if isDivisor then whole + 1 else whole)

/-- The quotient rounded down, none if an integer is divided by zero. -/
def floorDiv (x y : Expr) : Option Expr :=
  match x.integer?, y with
  | some n, .number b =>
    if b.isZero then none
    else
      match b.integer? with
      | some m => some (exact (Int.fdiv n m))
      | none => some (wholeOfInteger n b)
  | _, _ => some (s.floor (s.div x y))

end Surd.Expr.Simplifier
