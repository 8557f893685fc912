/-!
# Double precision numbers

A double is a not-a-number, an infinity, or a signed finite value. The finite magnitudes in
increasing order are numbered from zero on: the number of a magnitude is its `rank`. Consecutive
ranks below 2^53 are 2^-1074 apart, and the distance doubles with each further block of 2^52 ranks.
-/

namespace Surd

/-- The number of ranks at equal distances, 2^52. -/
def blockSize : Nat := 0x10000000000000

/-- How many finite magnitudes there are. -/
def finiteCount : Nat := 2047 * blockSize

inductive Binary64 where
  | nan
  | infinite (negative : Bool)
  | finite (negative : Bool) (rank : Fin finiteCount)
deriving DecidableEq, Repr

namespace Binary64

/-! ## Values -/

/-- The exponent of two by which the units of a rank are scaled. -/
def scaleOf (rank : Nat) : Nat := rank / blockSize - 1

/-- The magnitude of a rank in units of 2^-1074. -/
def unitsOf (rank : Nat) : Nat := (rank - scaleOf rank * blockSize) * Nat.pow 2 (scaleOf rank)

def magnitude (rank : Nat) : Rat :=
  let scale := scaleOf rank
  let significand := rank - scale * blockSize
  if 1074 ≤ scale then (significand * Nat.pow 2 (scale - 1074) : Nat)
  else mkRat significand (Nat.pow 2 (1074 - scale))

/-- The value of a finite double. -/
def value? : Binary64 → Option Rat
  | .finite negative rank => some (if negative then -magnitude rank else magnitude rank)
  | _ => none

def signedZero (negative : Bool) : Binary64 := .finite negative ⟨0, by decide⟩

def zero : Binary64 := signedZero false

instance : Inhabited Binary64 := ⟨zero⟩

def isFinite : Binary64 → Bool
  | .finite .. => true
  | _ => false

def isNan : Binary64 → Bool
  | .nan => true
  | _ => false

def isZero : Binary64 → Bool
  | .finite _ rank => rank.val == 0
  | _ => false

/-! ## Sign -/

def neg : Binary64 → Binary64
  | .nan => .nan
  | .infinite s => .infinite !s
  | .finite s r => .finite (!s) r

def abs : Binary64 → Binary64
  | .nan => .nan
  | .infinite _ => .infinite false
  | .finite _ r => .finite false r

/-! ## Order -/

/-- The place of a double that is a number on a scale on which both zeros coincide. -/
def place? : Binary64 → Option Int
  | .nan => none
  | .infinite negative => some (if negative then -finiteCount else finiteCount)
  | .finite negative rank => some (if negative then -rank.val else rank.val)

/-- Less than; never of a not-a-number. -/
def lt (x y : Binary64) : Bool :=
  match x.place?, y.place? with
  | some i, some j => i < j
  | _, _ => false

def isPositive (x : Binary64) : Bool := zero.lt x

def isNegative (x : Binary64) : Bool := x.lt zero

/-! ## Words -/

/-- The 64 bits: the sign above the rank, with the infinity next after the largest rank. -/
def toWord : Binary64 → UInt64
  | .nan => 0x7ff8000000000000
  | .infinite negative => if negative then 0xfff0000000000000 else 0x7ff0000000000000
  | .finite negative rank =>
    if negative then rank.val.toUInt64 ||| 0x8000000000000000 else rank.val.toUInt64

def ofWord (w : UInt64) : Binary64 :=
  let negative := w ≥ 0x8000000000000000
  let rank := (w &&& 0x7fffffffffffffff).toNat
  if h : rank < finiteCount then .finite negative ⟨rank, h⟩
  else if rank = finiteCount then .infinite negative
  else .nan

end Binary64

end Surd
