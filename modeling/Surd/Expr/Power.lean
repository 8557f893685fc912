import Surd.Expr.Exponential
import Surd.Expr.Root

/-!
# Powers

Powers of numbers are computed; roots of exact numbers are brought to small integers under the root.
Powers of powers and of products are taken apart where that does not change the value.
-/

namespace Surd.Expr.Simplifier

variable (s : Simplifier)

/-! ## Rounded numbers -/

/-- Powers with larger exponents are found by way of the logarithm. -/
def maxExactExponent : Nat := 1000

/-- A positive number to a power. -/
def approximatePower (bits : Nat) (x t : Rat) : Rat :=
  let w := bits + guardBits
  let isSmall := t.num.natAbs ≤ maxExactExponent
  if isSmall ∧ t.den = 1 then x ^ t.num
  else if isSmall ∧ t.den = 2 then Approximate.sqrt w x ^ t.num
  else Approximate.exp w (t * Approximate.log (w + Approximate.bitsBefore t) x)

/-- The bits of the exponent of a power. -/
def powerBits (x t : Rat) : Rat := t.abs * ((leadingBit x).natAbs + 1 : Nat)

/-- A power of a rounded number that is not zero. The root of a negative number is complex. -/
def roundedPower (x : BigFloat) (t : Rat) : Option Expr :=
  if maxComputedBits < powerBits x.value t then none
  else
    let r := approximatePower x.bits x.value.abs t
    if 0 < x.value then some (.number (.ofRat x.bits r))
    else if t.den = 1 then some (.number (.ofRat x.bits (if t.num % 2 = 0 then r else -r)))
    else if t.den = 2 then
      some (s.ofRounded x.bits 0 (if t.num % 4 = 1 then r else -r))
    else
      let w := x.bits + guardBits
      let angle := t * Approximate.pi (w + Approximate.bitsBefore t)
      some (s.ofRounded x.bits (r * Approximate.cos w angle) (r * Approximate.sin w angle))

/-! ## Exact numbers -/

/-- Powers of exact numbers with integer exponents. -/
def integerPower (q : Rat) (n : Int) : Option Expr :=
  if maxComputedBits < n.natAbs * (max q.num.natAbs.log2 q.den.log2 + 1) then none
  else some (exact (q ^ n))

/-- Powers of minus one: the exponent is brought between zero and one. -/
def rootOfUnity (r : Rat) : Option Expr :=
  if r.den = 2 then some (s.power .imaginaryUnit (exact r.num))
  else
    let whole := r.floor
    if whole = 0 then none
    else
      let sign := exact (if whole % 2 = 0 then 1 else -1)
      some (s.product [sign, s.power minusOne (exact (r - whole))])

def ofRootParts (p : RootParts) : Expr :=
  s.product <| exact (p.whole : Nat)
    :: p.radicals.map (fun (b, e) => s.power (exact (b : Nat)) (exact e))
    ++ [s.power (exact (p.rest.1 : Nat)) (exact p.rest.2)]

/-- The power of an integer with a positive fraction as the exponent. -/
def integerRootPower (n : Int) (r : Rat) : Option Expr :=
  (RootParts.ofPower n.natAbs r).map fun p =>
    if n < 0 then s.product [s.ofRootParts p, s.power minusOne (exact r)] else s.ofRootParts p

/-- The power of a fraction with a positive fraction as the exponent: an integer is under the
line. -/
def fractionRootPower (q r : Rat) : Expr :=
  let whole := r.floor + 1
  let root := s.power (exact q.den) (exact (whole - r))
  let unit := exact ((q.den : Rat) ^ (-whole))
  if q.num = 1 then s.product [root, unit]
  else s.product [s.product [s.power (exact q.num) (exact r), root], unit]

/-- The power of an exact number that is not zero or one. -/
def fractionPower (q r : Rat) : Option Expr :=
  if r.den = 1 then integerPower q r.num
  else if q = -1 then s.rootOfUnity r
  else if q.den = 1 && q < 0 && r == 1/2 then
    some (s.product [.imaginaryUnit, s.power (exact (-q)) half])
  else if r < 0 then
    if q < 0 then
      some (s.product [s.power minusOne (exact r), s.power (exact (-q⁻¹)) (exact (-r))])
    else some (s.power (exact q⁻¹) (exact (-r)))
  else if q.den = 1 then s.integerRootPower q.num r
  else some (s.fractionRootPower q r)

/-! ## Numbers -/

/-- A power of zero, as far as the sign of the exponent is known. -/
def powerOfZero (x : Scalar) (e : Expr) : Option Expr :=
  match e.approximation? with
  | some z =>
    if !isTiny z.im then some .undefined
    else if isTiny z.re then none
    else if z.re < 0 then some .infinite
    else some (.number x)
  | none => none

def numberPower (x : Scalar) (e : Expr) : Option Expr :=
  if x.isZero then powerOfZero x e
  else
    match x, e with
    | .exact q, .number (.exact r) => s.fractionPower q r
    | .exact q, .number (.rounded t) =>
      s.roundedPower (.ofRat (if q = -1 then max 53 t.bits else t.bits) q) t.value
    | .rounded y, .number (.exact r) =>
      if r.num = 1 && r.den % 2 == 1 && y.value < 0 then
        (s.roundedPower { y with value := -y.value } r).map fun p =>
          s.product [.power minusOne e, p]
      else if r.den = 1 then s.roundedPower y r
      else s.roundedPower y (roundBits y.bits r)
    | .rounded y, .number (.rounded t) =>
      s.roundedPower { y with bits := max y.bits t.bits } t.value
    | .exact q, _ => if q < 0 && e.isEven then some (s.power (exact (-q)) e) else none
    | _, _ => none

/-! ## Other bases -/

/-- The imaginary unit to a fraction. -/
def powerOfUnit (r : Rat) : Expr :=
  let half := (r / 2).floor
  let left := r - 2 * half
  let root :=
    if left = 0 then 1
    else if left = 1 then .imaginaryUnit
    else .power .imaginaryUnit (exact left)
  if half % 2 = 0 then root
  else if left = 0 then minusOne
  else .product [minusOne, root]

/-- Factors as they are, with their numbers multiplied and first. -/
def ofLooseFactors (args : List Expr) : Expr :=
  let all := args.flatMap factors
  let (numbers, others) := all.partition isNumber
  let c := s.product numbers
  ofFactors (if c.isOne then inOrder others else c :: inOrder others)

def isHalf (e : Expr) : Bool :=
  match e.fraction? with
  | some r => r.den == 2
  | none => false

/-- How many turns the angle of a power goes beyond the angles of numbers, counted down. -/
def excessTurns? (b e : Expr) : Option Int := do
  let z ← b.approximation?
  let r ← e.realValue?
  pure (floorOfValue (1/2 - r * z.angle / (2 * Approximate.pi knownBits)))

/-- The base of an even power, without its sign. -/
def evenBase (b e : Expr) : Expr :=
  if !e.isEven then b
  else if b.isReal then s.absOfValue b
  else
    match b.imaginaryValue?, numberParts? b with
    | some _, some (_, im) => s.product [.number im.abs, .imaginaryUnit]
    | _, _ => b

/-- A power of a power with a real exponent: the exponents are multiplied if the angle of the inner
power is kept, or if only a sign changes. -/
def powerOfRealPower (b e other : Expr) : Option Expr :=
  let joined (c : Expr) : Expr := s.power c (s.product [e, other])
  match e.realValue?, e.fraction? == some (-1) && isHalf other, b.negative? with
  | none, _, _ => none
  | some _, true, some true =>
    some (s.product [s.power minusOne other, s.power (s.negate b) (s.product [e, other])])
  | some _, true, some false => some (s.power b (s.negate other))
  | some v, _, _ =>
    let b := s.evenBase b e
    let rightHalf := (b.approximation?.map fun z => isTiny z.re || 0 < z.re) == some true
    if v.abs < 1 || e.isOne || b.isNonnegative || rightHalf && v.abs < 2 then some (joined b)
    else if isHalf other then
      (excessTurns? b e).map fun k =>
        if k % 2 = 0 then joined b else s.product [minusOne, joined b]
    else none

def powerOfPower (b e other : Expr) : Option Expr :=
  if other.isInteger then some (s.power b (s.product [e, other]))
  else s.powerOfRealPower b e other

/-! ## Products -/

/-- The factors of a base by the signs of their values. -/
structure Signs where
  positive : List Expr
  negative : List Expr
  others : List Expr

def signsOf (args : List Expr) : Signs :=
  let known := args.filter fun x => x.approximation?.isSome
  let isUnit (x : Expr) : Bool := x.order .imaginaryUnit == .eq
  let units := (args.filter isUnit).length % 4
  let positive := known.filter fun x => !isUnit x && x.isNonnegative
  let negative := known.filter fun x => !isUnit x && !x.isNonnegative
  let unknown := args.filter fun x => x.approximation?.isNone
  let others := if units % 2 = 0 then unknown else unknown ++ [.imaginaryUnit]
  if units < 2 then ⟨positive, negative, others⟩
  else
    match negative.getLast? with
    | none => ⟨positive, [minusOne], others⟩
    | some x =>
      let y := s.negate x
      ⟨if y.isOne then positive else positive ++ [y], negative.dropLast, others⟩

/-- The factors that can have the exponent on their own, and those that cannot. -/
def separate (h : Signs) : List Expr × List Expr :=
  match h.negative with
  | x :: y :: rest =>
    let alone := h.others.isEmpty && x.isNumber
    let negative := if alone then y :: rest else x :: y :: rest
    let unit := if alone then x else 1
    let unit := if negative.length % 2 = 0 then unit else s.negate unit
    (h.positive ++ negative.map s.negate, if unit.isOne then h.others else h.others ++ [unit])
  | [x] =>
    if !h.others.isEmpty && x.isNumber && !(x.fraction? == some (-1)) then
      (h.positive ++ [s.negate x], h.others ++ [minusOne])
    else (h.positive, h.others ++ [x])
  | [] => (h.positive, h.others)

/-- A power of something known with a fraction as its exponent, simplified. -/
def root? : Expr → Option Expr
  | .power b e => if e.fraction?.isSome && !b.hasUnknown then some (s.power b e) else none
  | _ => none

/-- The power of a product, with the exponent on the factors that can have it. -/
def distributePower (args : List Expr) (e : Expr) : Expr :=
  let (alone, together) := s.separate (s.signsOf args)
  let root (x : Expr) : Option Expr := if e.fraction?.isSome then s.root? x else none
  let first := s.product ((alone.filterMap root).map fun x => s.power x e)
  let others := alone.filter fun x => (root x).isNone
  let second := s.product [first, s.product (others.map fun x => .power x e)]
  if together.isEmpty then second else s.product [second, .power (s.product together) e]

/-- The square root of an imaginary number twice a square. -/
def imaginaryRoot? (args : List Expr) (r : Rat) : Option Expr := do
  let z ← exactValue? (.product args)
  let straight (x : Expr) : Bool := x.isReal || x.imaginaryValue?.isSome
  if z.1 ≠ 0 ∨ z.2 = 0 ∨ r.den ≠ 2 ∨ !args.all straight then none
  else
    let h := z.2.abs / 2
    let root := Rational.exactRoot h 2
    if root * root ≠ h then none
    else
      let unit : Expr :=
        if z.2 < 0 then .product [minusOne, .imaginaryUnit] else .imaginaryUnit
      some (s.ofLooseFactors
        [exact (root ^ r.num), s.power (.sum [1, unit]) (exact r.num)])

def powerOfProduct (args : List Expr) (e : Expr) : Option Expr :=
  match e.integer?, e with
  | some _, _ => some (s.product (args.map fun x => .power x e))
  | none, .number (.exact r) => some ((s.imaginaryRoot? args r).getD (s.distributePower args e))
  | none, .number (.rounded _) => some (s.distributePower args e)
  | none, _ => none

/-! ## Sums -/

/-- A complex number with exact parts, to an integer that is not too large. -/
def exactComplexPower (z : Rat × Rat) (n : Int) : Option Expr := do
  let w ← if n < 0 then exactInverse z else some z
  if maxPower < n.natAbs then none
  else
    let v := exactPower w n.natAbs
    some (s.sum [exact v.1, s.product [exact v.2, .imaginaryUnit]])

/-- The power of a complex number: the inverse, or a root if its modulus is a fraction. -/
def complexPower (re im : Scalar) (r : Rat) : Option Expr :=
  if r = -1 then
    let norm := (re.mul re).add (im.mul im)
    let conjugate := s.sum [.number re, s.product [.number im.neg, .imaginaryUnit]]
    some (s.ofLooseFactors [conjugate, s.power (.number norm) minusOne])
  else
    match re, im with
    | .exact x, .exact y =>
      let norm := x * x + y * y
      let modulus := Rational.exactRoot norm 2
      if r.den ≠ 2 ∨ modulus * modulus ≠ norm then none
      else do
        let root := s.power (s.power (exact ((modulus - x) / 2)) half) (exact r.num)
        let unit ← s.exactComplexPower ((modulus + x) / y.abs, if y < 0 then -1 else 1) r.num
        pure (s.product [root, unit])
    | _, _ => none

def powerOfSum (x e : Expr) : Option Expr := do
  let r ← e.fraction?
  let (re, im) ← complexParts? x
  if im.isZero then none else s.complexPower re im r

/-! ## All powers -/

/-- The power of anything but a product or a number that starts with a minus sign. -/
def raiseBase (b e : Expr) : Expr :=
  let power? : Option Expr :=
    match b with
    | .undefined => some .undefined
    | .number x => if b.isOne then some 1 else s.numberPower x e
    | .constant .e => some (s.expOf e)
    | .imaginaryUnit => e.fraction?.map fun r => powerOfUnit r
    | .infinite => e.realValue?.map fun v => if 0 < v then .infinite else 0
    | .apply .exp [x] => s.powerOfPower (.constant .e) x e
    | .apply .abs [x] =>
      if x.isReal && e.isEven then some (s.power x e) else none
    | .power c f => s.powerOfPower c f e
    | .product args => s.powerOfProduct args e
    | .sum _ => s.powerOfSum b e
    | _ => none
  power?.getD (.power b e)

/-- Whether an integer exponent takes a minus sign out of the base. -/
def hasSign (b : Expr) : Bool :=
  startsNegative b && !b.hasUnknown

def powerOf (b e : Expr) : Expr :=
  if e.isInfinite || e.isUndefined then .undefined
  else if e.fraction? == some 0 then 1
  else if e.isOne then b
  else if e.fraction? == some (-1) && b.isZero then .infinite
  else
    match e.integer?, hasSign b with
    | some n, true =>
      if n % 2 = 0 then s.raiseBase (s.negate b) e
      else s.negate (s.power (s.negate b) e)
    | _, _ => s.raiseBase b e

end Surd.Expr.Simplifier
