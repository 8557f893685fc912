import Surd.BigFloat.Basic

/-!
# Elementary functions to many bits

The functions are computed in fixed point, on integers that count units of 2^-w. Arguments are first
brought close to zero, where the series are short.
-/

namespace Surd.FixedPoint

/-! ## Units -/

def ofRat (w : Nat) (x : Rat) : Int := (x * (Nat.pow 2 w : Nat)).floor

def toRat (w : Nat) (n : Int) : Rat := mkRat n (Nat.pow 2 w)

def mul (w : Nat) (a b : Int) : Int := Int.fdiv (a * b) (Nat.pow 2 w)

def sqrt (w : Nat) (a : Int) : Int := Nat.sqrt (a.toNat * Nat.pow 2 w)

/-! ## Series -/

/-- The sum of a series: each term is the one before it times `x`, divided by `next`; the sum has
the terms divided by `weight`. -/
def series (w : Nat) (x : Int) (next weight : Nat → Int) : Nat → Nat → Int → Int
  | 0, _, _ => 0
  | fuel + 1, k, term =>
    if term.natAbs ≤ 1 then 0
    else Int.fdiv term (weight k)
      + series w x next weight fuel (k + 1) (Int.fdiv (mul w term x) (next k))

def one (w : Nat) : Int := (Nat.pow 2 w : Nat)

def expSeries (w : Nat) (x : Int) : Int :=
  series w x (fun k => (k : Int) + 1) (fun _ => 1) (2 * w) 0 (one w)

def cosSeries (w : Nat) (x : Int) : Int :=
  series w (-mul w x x) (fun k => (2 * (k : Int) + 1) * (2 * k + 2)) (fun _ => 1) (2 * w) 0 (one w)

def sinSeries (w : Nat) (x : Int) : Int :=
  series w (-mul w x x) (fun k => (2 * (k : Int) + 2) * (2 * k + 3)) (fun _ => 1) (2 * w) 0 x

def atanSeries (w : Nat) (x : Int) : Int :=
  series w (-mul w x x) (fun _ => 1) (fun k => 2 * (k : Int) + 1) (2 * w) 0 x

def atanhSeries (w : Nat) (x : Int) : Int :=
  series w (mul w x x) (fun _ => 1) (fun k => 2 * (k : Int) + 1) (2 * w) 0 x

/-! ## Constants -/

def pi (w : Nat) : Int :=
  4 * (4 * atanSeries w (Int.fdiv (one w) 5) - atanSeries w (Int.fdiv (one w) 239))

def log2 (w : Nat) : Int := 2 * atanhSeries w (Int.fdiv (one w) 3)

/-! ## Functions -/

/-- The arc tangent; the argument is brought close to zero by halving the angle. -/
def atan (w : Nat) : Nat → Int → Int
  | 0, x => atanSeries w x
  | fuel + 1, x =>
    let root := sqrt w (one w + mul w x x)
    2 * atan w fuel (Int.fdiv (x * one w) (one w + root))

end FixedPoint

namespace Approximate

/-! ## Functions of rationals -/

/-- The bits before the point of a magnitude. -/
def bitsBefore (x : Rat) : Nat := x.num.natAbs.log2 - x.den.log2 + 2

def pi (bits : Nat) : Rat :=
  let w := bits + 20
  FixedPoint.toRat w (FixedPoint.pi w)

def sqrt (bits : Nat) (x : Rat) : Rat :=
  if x ≤ 0 then 0
  else
    let shift := 2 * (Int.fdiv (leadingBit x) 2)
    let w := bits + 20
    FixedPoint.toRat w (FixedPoint.sqrt w (FixedPoint.ofRat w (x * twoPower (-shift))))
      * twoPower (shift / 2)

/-- The exponential: a power of two times the exponential of a number below log 2. -/
def exp (bits : Nat) (x : Rat) : Rat :=
  let w := bits + bitsBefore x + 20
  let log2 := FixedPoint.toRat w (FixedPoint.log2 w)
  let n := (x / log2).floor
  FixedPoint.toRat w (FixedPoint.expSeries w (FixedPoint.ofRat w (x - n * log2))) * twoPower n

/-- The logarithm of a positive number. -/
def log (bits : Nat) (x : Rat) : Rat :=
  let w := bits + 40
  let n := leadingBit x
  let m := x * twoPower (-n)
  let series := FixedPoint.atanhSeries w (FixedPoint.ofRat w ((m - 1) / (m + 1)))
  FixedPoint.toRat w (2 * series + n * FixedPoint.log2 w)

/-- An angle less a number of whole turns. -/
def reduceAngle (bits : Nat) (x : Rat) : Rat :=
  let turn := 2 * pi (bits + bitsBefore x + 20)
  x - roundEven (x / turn) * turn

def sin (bits : Nat) (x : Rat) : Rat :=
  let w := bits + 60
  FixedPoint.toRat w (FixedPoint.sinSeries w (FixedPoint.ofRat w (reduceAngle w x)))

def cos (bits : Nat) (x : Rat) : Rat :=
  let w := bits + 60
  FixedPoint.toRat w (FixedPoint.cosSeries w (FixedPoint.ofRat w (reduceAngle w x)))

/-- The angle of the point `(x, y)`. -/
def atan2 (bits : Nat) (y x : Rat) : Rat :=
  let w := bits + 40
  let angle (t : Rat) : Rat := FixedPoint.toRat w (FixedPoint.atan w 8 (FixedPoint.ofRat w t))
  if y.abs ≤ x.abs then
    if 0 < x then angle (y / x)
    else if x = 0 then 0
    else if y < 0 then angle (y / x) - pi w
    else angle (y / x) + pi w
  else
    let quarter := pi w / 2
    if 0 < y then quarter - angle (x / y) else -quarter - angle (x / y)

/-- The terms of a power series for the gamma function, each the one before it times `n / (x + k)`.
-/
def gammaSeries (bits : Nat) (x n : Rat) : Nat → Nat → Rat → Rat
  | 0, _, _ => 0
  | fuel + 1, k, term =>
    roundBits bits (term + gammaSeries bits x n fuel (k + 1) (roundBits bits (term * n / (x + k))))

/-- The gamma function of a small number above one: the part of its integral up to `n` is
`n^x e^-n` times a series, and the rest is too small to matter. -/
def smallGamma (bits : Nat) (x : Rat) : Rat :=
  let n := bits + 4 * x.floor.natAbs + 8
  let w := bits + 40
  let scale := exp w (x * log (w + bitsBefore x + 10) n - n)
  scale * gammaSeries w x n (6 * n) 1 (1 / x)

/-- The gamma function of a large number, by the first terms of Stirling's series. -/
def largeGamma (bits : Nat) (x : Rat) : Rat :=
  let w := bits + bitsBefore x + 40
  let corrections : List Rat := [1/12, -1/360, 1/1260, -1/1680, 1/1188, -691/360360, 1/156]
  let tail := (corrections.foldr (fun c t => c + t / (x * x)) 0) / x
  exp w ((x - 1/2) * log w x - x + log w (2 * pi w) / 2 + roundBits w tail)

def gamma (bits : Nat) (x : Rat) : Rat :=
  if x < 100 then smallGamma bits x else largeGamma bits x

end Approximate

end Surd
