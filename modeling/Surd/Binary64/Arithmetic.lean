import Surd.Failure
import Surd.Binary64.Rounding

/-!
# Arithmetic of doubles

Each operation is the exact one followed by one rounding. Division by zero and the square root of a
negative number fail; nothing else does.
-/

namespace Surd.Binary64

def add : Binary64 → Binary64 → Binary64
  | .nan, _ | _, .nan => .nan
  | .infinite s, .infinite t => if s = t then .infinite s else .nan
  | .infinite s, .finite .. | .finite .., .infinite s => .infinite s
  | x@(.finite s _), y@(.finite t _) =>
    let sum := x.value?.getD 0 + y.value?.getD 0
    if sum = 0 then signedZero (s && t) else ofRat sum

def sub (x y : Binary64) : Binary64 := x.add y.neg

def mul : Binary64 → Binary64 → Binary64
  | .nan, _ | _, .nan => .nan
  | .infinite s, .infinite t => .infinite (s != t)
  | .infinite s, y@(.finite t _) | y@(.finite t _), .infinite s =>
    if y.isZero then .nan else .infinite (s != t)
  | .finite s a, .finite t b => ofMagnitude (s != t) (magnitude a * magnitude b)

def div (x y : Binary64) : Except Failure Binary64 :=
  if y.isZero then throw .floatDivisionByZero
  else pure <| match x, y with
    | .nan, _ | _, .nan | .infinite _, .infinite _ => .nan
    | .infinite s, .finite t _ => .infinite (s != t)
    | .finite s _, .infinite t => signedZero (s != t)
    | .finite s a, .finite t b => ofMagnitude (s != t) (magnitude a / magnitude b)

instance : Neg Binary64 := ⟨neg⟩
instance : Add Binary64 := ⟨add⟩
instance : Sub Binary64 := ⟨sub⟩
instance : Mul Binary64 := ⟨mul⟩

/-! ## Square roots -/

/-- The rank nearest to the square root of `n / d`. -/
def nearestRootRank (n d : Nat) : Nat :=
  let units := n * Nat.pow 2 2148
  let scale := (Nat.sqrt (units / d)).log2 - 52
  let step := d * Nat.pow 4 scale
  let root := Nat.sqrt (units / step)
  let half := 2 * root + 1
  scale * blockSize + if half * half * step < 4 * units then root + 1 else root

def sqrt : Binary64 → Except Failure Binary64
  | .nan => pure .nan
  | .infinite negative => if negative then throw .squareRootOfNegative else pure (.infinite false)
  | x@(.finite negative rank) =>
    if x.isZero then pure x
    else if negative then throw .squareRootOfNegative
    else
      let m := magnitude rank
      pure (ofRank false (nearestRootRank m.num.natAbs m.den))

/-! ## Exact fractions -/

/-- The double for a fraction, which an infinity does not stand for. -/
def inRange : Binary64 → Except Failure Binary64
  | .infinite _ => throw .fractionTooLarge
  | y => pure y

/-- The double nearest to a fraction, if there is a finite one. -/
def ofFraction (x : Rat) : Except Failure Binary64 := inRange (ofRat x)

/-- The integer nearest to a double. -/
def round (x : Binary64) : Except Failure Int :=
  match x with
  | .nan => throw .roundingNan
  | .infinite _ => throw .roundingInfinity
  | .finite .. => pure (roundEven (x.value?.getD 0))

end Surd.Binary64
