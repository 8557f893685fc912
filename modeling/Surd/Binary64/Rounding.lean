import Surd.Binary64.Basic

/-!
# Rounding

To the nearest, and of two equally near values to the even one: rationals to integers and to
doubles.
-/

namespace Surd

/-- The integer nearest to `n / d`. -/
def roundQuotient (n d : Nat) : Nat :=
  let q := n / d
  let r := n % d
  if 2 * r < d ∨ (2 * r = d ∧ q % 2 = 0) then q else q + 1

def roundEven (x : Rat) : Int :=
  let n := roundQuotient x.num.natAbs x.den
  if x.num < 0 then -n else n

namespace Binary64

/-- The rank nearest to `n / d`; at least `finiteCount` if that is beyond the finite range. -/
@[irreducible]
def nearestRank (n d : Nat) : Nat :=
  let units := n * Nat.pow 2 1074
  let scale := (units / d).log2 - 52
  scale * blockSize + roundQuotient units (d * Nat.pow 2 scale)

def ofRank (negative : Bool) (rank : Nat) : Binary64 :=
  if h : rank < finiteCount then .finite negative ⟨rank, h⟩ else .infinite negative

/-- The double nearest to `± |x|`. -/
def ofMagnitude (negative : Bool) (x : Rat) : Binary64 :=
  ofRank negative (nearestRank x.num.natAbs x.den)

def ofRat (x : Rat) : Binary64 := ofMagnitude (x.num < 0) x

instance : NatCast Binary64 := ⟨fun n => ofRat n⟩

instance (n : Nat) : OfNat Binary64 n := ⟨ofRat n⟩

end Binary64

end Surd
