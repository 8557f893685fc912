import Surd.Binary64.Decimal

/-!
# Binary numbers with a precision of their own

A number with a precision has at most that many significant bits; its exponent is not bounded.
Results of operations are rounded to the larger of the precisions.
-/

namespace Surd

def twoPower (e : Int) : Rat :=
  if e < 0 then mkRat 1 (Nat.pow 2 e.natAbs) else (Nat.pow 2 e.natAbs : Nat)

/-- The exponent of the leading bit of a magnitude that is not zero. -/
def leadingBit (x : Rat) : Int :=
  let n := x.num.natAbs
  let guess : Int := (n.log2 : Int) - x.den.log2
  if twoPower guess ≤ mkRat n x.den then guess else guess - 1

/-- The nearest number with a number of significant bits. -/
def roundBits (bits : Nat) (x : Rat) : Rat :=
  if x = 0 then 0
  else
    let unit := twoPower (leadingBit x - bits + 1)
    roundEven (x / unit) * unit

/-- A number and its precision. -/
structure BigFloat where
  value : Rat
  bits : Nat
deriving DecidableEq, Repr

namespace BigFloat

def ofRat (bits : Nat) (x : Rat) : BigFloat := ⟨roundBits bits x, bits⟩

/-- The double for the number, by way of a precision of 53 bits. -/
def toBinary64 (x : BigFloat) : Binary64 := Binary64.ofRat (roundBits 53 x.value)

/-- The odd mantissa of a magnitude, its exponent, and the number of its bits; all zero for zero. -/
def parts (x : BigFloat) : Nat × Int × Nat :=
  if x.value = 0 then (0, 0, 0)
  else
    let n := x.value.num.natAbs
    let twos := (Nat.gcd n (Nat.pow 2 n.log2)).log2
    let odd := n / Nat.pow 2 twos
    (odd, (twos : Int) - x.value.den.log2, odd.log2 + 1)

/-! ## Reading -/

/-- The precision that as many decimal digits take. -/
def bitsOfDigits (digits : Nat) : Nat :=
  (roundEven (mkRat ((digits + 1) * 33219280948873626) 10000000000000000)).natAbs

/-- The fewest digits that the precision of a literal is made for. -/
def leastDigits : Nat := 15

/-- The exponents of ten beyond which numbers are no longer told apart. -/
def maxExponent : Nat := 100000

/-- The literal with its precision, which has room for the digits that are written, and for those of
an integer that is written without a point. Such an integer may not have too many digits. -/
def ofDecimal (hasPoint : Bool) (x : Decimal) : Option BigFloat :=
  let written := (Text.digits x.mantissa).length
  let e := max (min x.exponent maxExponent) (-maxExponent)
  let digits := if hasPoint ∨ e < 0 then written else
    if x.mantissa = 0 then 1 else written + e.natAbs
  if !hasPoint && digitLimit < digits && decide (0 ≤ e) then none
  else some (ofRat (bitsOfDigits (max leastDigits digits)) (Decimal.value { x with exponent := e }))

def read (s : List Char) : Option BigFloat :=
  (Decimal.readUnsigned false s).bind (ofDecimal (s.contains '.'))

end BigFloat

end Surd
