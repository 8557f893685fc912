import Surd.Expr.Simplifier

/-!
# Products

The numbers in a product are multiplied, and the exponents of equal bases are added. Roots of
positive numbers are joined by their exponents and by common factors. Roots of minus one are counted
in half turns.
-/

namespace Surd.Expr

/-- The factors of a product by their kinds. -/
structure Factors where
  /-- A number, or infinite. -/
  coefficient : Expr
  /-- The exponent of minus one. -/
  turns : Rat
  powers : List (Expr × Expr)
  /-- Powers of numbers whose exponents are no fractions. -/
  numberPowers : List (Expr × Expr)
  /-- Positive numbers with the positive fractions that are their exponents. -/
  roots : List (Scalar × Rat)

namespace Factors

def empty : Factors := ⟨1, 0, [], [], []⟩

/-- The factors times a number, if there is a result. -/
def scale? (f : Factors) (x : Scalar) : Option Factors :=
  match f.coefficient with
  | .number y => some { f with coefficient := .number (y.mul x) }
  | _ => if x.isZero then none else some f

/-- The factors times an infinite one. -/
def blowUp? (f : Factors) : Option Factors :=
  if f.coefficient.isZero then none else some { f with coefficient := .infinite }

/-- The factors times something that may be a number. -/
def multiply? (f : Factors) (x : Expr) : Option Factors :=
  match x with
  | .number a => f.scale? a
  | .infinite => f.blowUp?
  | .undefined => none
  | _ => some { f with powers := f.powers ++ [x.asPower] }

/-- The roots with one more; the exponents of equal bases are added. -/
def insertRoot (x : Scalar) (r : Rat) : List (Scalar × Rat) → List (Scalar × Rat)
  | [] => [(x, r)]
  | (y, t) :: rest => if x = y then (y, t + r) :: rest else (y, t) :: insertRoot x r rest

def addRoot (f : Factors) (x : Scalar) (r : Rat) : Factors :=
  if x = 1 then f else { f with roots := insertRoot x r f.roots }

end Factors

namespace Simplifier

variable (s : Simplifier)

/-! ## Collecting -/

/-- The factors of a list. Those that come from its products are taken last. There is no result for
a product without a value. -/
def collectFactors : Nat → Factors → List Expr → Option Factors
  | 0, f, queue => some { f with powers := f.powers ++ queue.map fun x => (x, 1) }
  | _, f, [] => some f
  | fuel + 1, f, x :: queue =>
    match x with
    | .product args => collectFactors fuel f (queue ++ args)
    | .imaginaryUnit => collectFactors fuel { f with turns := f.turns + 1/2 } queue
    | .number _ | .undefined | .infinite =>
      (f.multiply? x).bind fun f => collectFactors fuel f queue
    | .power _ _ =>
      match x.asPower with
      | (.number b, e) =>
        match e.fraction? with
        | some r =>
          if r.den = 1 then
            (f.multiply? (s.power (.number b) e)).bind fun f => collectFactors fuel f queue
          else if r < 0 then collectFactors fuel f (queue ++ [s.power (.number b) e])
          else if b.isNegative then
            collectFactors fuel ({ f with turns := f.turns + r }.addRoot b.neg r) queue
          else collectFactors fuel (f.addRoot b r) queue
        | none =>
          if 0 < b.value || e.isInteger then
            collectFactors fuel { f with numberPowers := f.numberPowers ++ [(.number b, e)] } queue
          else collectFactors fuel { f with powers := f.powers ++ [(.number b, e)] } queue
      | power => collectFactors fuel { f with powers := f.powers ++ [power] } queue
    | _ => collectFactors fuel { f with powers := f.powers ++ [x.asPower] } queue

/-! ## Exponents of equal bases -/

/-- The powers with one more: coefficients of the same term in the exponents of one base are
added. -/
def insertPower (b term : Expr) (c : Scalar) :
    List (Expr × Expr × Scalar) → List (Expr × Expr × Scalar)
  | [] => [(b, term, c)]
  | (a, t, d) :: rest =>
    if b.same a && term.same t then (a, t, d.add c) :: rest
    else (a, t, d) :: insertPower b term c rest

def gather (powers : List (Expr × Expr)) : List (Expr × Expr) :=
  let gathered := powers.foldl (fun all (b, e) =>
    let (c, term) := e.asMultiple
    insertPower b term c all) []
  gathered.map fun (b, term, c) =>
    (b, if term.isOne then .number c else if c = 1 then term else s.product [.number c, term])

/-! ## Raising -/

/-- Powers that were raised, and what became of their bases. -/
structure Raised where
  coefficient : Expr
  parts : List Expr
  powers : List (Expr × Expr)
  changed : Bool

def hasInfinite (x : Expr) : Bool :=
  match x with
  | .sum args | .product args => args.any isInfinite
  | _ => false

def raise (r : Raised) (b e : Expr) : Option Raised :=
  if e.isZero then if hasInfinite b then none else some r
  else if e.isOne then
    match b with
    | .number x =>
      (({ Factors.empty with coefficient := r.coefficient } : Factors).scale? x).map fun f =>
        { r with coefficient := f.coefficient }
    | _ => some { r with parts := r.parts ++ [b], powers := r.powers ++ [(b, e)] }
  else
    let p := s.power b e
    let (c, t) := if p.isPower && !b.isPower then p.asPower else (b, e)
    some { r with
      parts := r.parts ++ [p], powers := r.powers ++ [(c, t)]
      changed := r.changed || !b.same c }

def raiseAll (coefficient : Expr) (powers : List (Expr × Expr)) : Option Raised :=
  powers.foldlM (fun r (b, e) => s.raise r b e) ⟨coefficient, [], [], false⟩

def hasEqualBases : List (Expr × Expr) → Bool
  | [] => false
  | (b, _) :: rest => rest.any (fun (c, _) => b.same c) || hasEqualBases rest

/-- The powers, raised. If that made bases equal, it is done once more. -/
def raiseTwice (coefficient : Expr) (powers : List (Expr × Expr)) : Option Raised := do
  let r ← s.raiseAll coefficient (s.gather powers)
  if r.changed && hasEqualBases r.powers then s.raiseAll r.coefficient (s.gather r.powers)
  else pure r

/-! ## Powers of numbers -/

/-- The bases of each exponent. -/
def insertBase (b e : Expr) : List (Expr × List Expr) → List (Expr × List Expr)
  | [] => [(e, [b])]
  | (t, bases) :: rest =>
    if e.same t then (t, bases ++ [b]) :: rest else (t, bases) :: insertBase b e rest

/-- The powers with one base for each exponent. -/
def joinBases (powers : List (Expr × Expr)) : List Expr :=
  let joined := powers.foldl (fun all (b, e) => insertBase b e all) []
  joined.filterMap fun (e, bases) =>
    if e.isZero then none else some (s.power (s.product bases) e)

/-! ## Roots -/

/-- Roots, and what was taken out of them. -/
structure Rooted where
  coefficient : Expr
  roots : List (Scalar × Rat)

/-- The product of what may be numbers. -/
def times (x y : Expr) : Expr :=
  match x, y with
  | .number a, .number b => .number (a.mul b)
  | _, _ => ofFactors (x.factors ++ y.factors)

/-- A root with the whole part of its exponent taken out. -/
def addReduced (r : Rooted) (b : Scalar) (e : Rat) : Rooted :=
  let whole := e.floor
  let left := e - whole
  let coefficient :=
    if whole = 0 then r.coefficient
    else times r.coefficient (s.power (.number b) (exact whole))
  ⟨coefficient, if left = 0 then r.roots else r.roots ++ [(b, left)]⟩

/-- The roots with one base for each exponent, and with exponents below one. -/
def reduceRoots (coefficient : Expr) (roots : List (Scalar × Rat)) : Rooted :=
  let joined := joined roots []
  joined.foldl (fun r (e, b) => s.addReduced r b e) ⟨coefficient, []⟩
where
  insert (b : Scalar) (e : Rat) : List (Rat × Scalar) → List (Rat × Scalar)
    | [] => [(e, b)]
    | (t, c) :: rest => if e = t then (t, c.mul b) :: rest else (t, c) :: insert b e rest
  joined : List (Scalar × Rat) → List (Rat × Scalar) → List (Rat × Scalar)
    | [], all => all
    | (b, e) :: rest, all => joined rest (insert b e all)

/-- The greatest common divisor; next to a rounded number it is a rounded one. -/
def commonDivisor (x y : Scalar) : Scalar :=
  match x, y with
  | .exact p, .exact q => .exact (mkRat (Nat.gcd p.num.natAbs q.num.natAbs) (Nat.lcm p.den q.den))
  | _, _ => .rounded ⟨1, 53⟩

/-- A root without the factors that its base shares with the bases of other roots. Those are roots
with the sum of both exponents. -/
structure Shared where
  base : Scalar
  others : List (Scalar × Rat)
  grown : Rooted

def shareFactors (e : Rat) : Shared → List (Scalar × Rat) → Shared
  | h, [] => h
  | h, (c, t) :: rest =>
    if h.base = 1 then { h with others := h.others ++ (c, t) :: rest }
    else
      let g := commonDivisor h.base c
      if g = 1 then shareFactors e { h with others := h.others ++ [(c, t)] } rest
      else
        shareFactors e
          ⟨h.base.div g, h.others ++ [(c.div g, t)], s.addReduced h.grown g (e + t)⟩ rest

/-- The numbers and roots that a power of a number has as its factors. -/
def splitRoot (coefficient : Expr) (bases : List (Expr × List Expr)) (x : Expr) :
    Expr × List (Expr × List Expr) :=
  x.factors.foldl (fun (c, all) y =>
    match y with
    | .power b e => (c, insertBase b e all)
    | y => (times c y, all)) (coefficient, bases)

/-- The coefficient and the bases of each exponent, from roots. -/
def splitRoots : Nat → Expr → List (Expr × List Expr) → List (Scalar × Rat) →
    Expr × List (Expr × List Expr)
  | 0, c, bases, roots =>
    (c, roots.foldl (fun all (b, e) => insertBase (.number b) (exact e) all) bases)
  | _, c, bases, [] => (c, bases)
  | fuel + 1, c, bases, (b, e) :: rest =>
    if b = 1 then splitRoots fuel c bases rest
    else
      let h := s.shareFactors e ⟨b, [], ⟨c, []⟩⟩ rest
      let (c, bases) :=
        if h.base = 1 then (h.grown.coefficient, bases)
        else splitRoot h.grown.coefficient bases (s.power (.number h.base) (exact e))
      splitRoots fuel c bases (h.others ++ h.grown.roots)

/-! ## Half turns -/

/-- The bases with a minus sign at the first positive one that has the exponent. -/
def negateBase (e : Rat) : List (Expr × Expr) → Option (List (Expr × Expr))
  | [] => none
  | (t, b) :: rest =>
    match b with
    | .number x =>
      if t.fraction? == some e && 0 < x.value then some ((t, .number x.neg) :: rest)
      else (negateBase e rest).map ((t, b) :: ·)
    | _ => (negateBase e rest).map ((t, b) :: ·)

/-- The sign, the factors and the bases with a power of minus one. -/
def turn (turns : Rat) (bases : List (Expr × Expr)) : Bool × List Expr × List (Expr × Expr) :=
  let whole := turns.floor
  let left := turns - whole
  let isOdd := whole % 2 != 0
  if left = 0 then (isOdd, [], bases)
  else if left.den = 2 then (isOdd, [.imaginaryUnit], bases)
  else
    match negateBase left bases with
    | some bases => (isOdd, [], bases)
    | none => (isOdd, [.power minusOne (exact left)], bases)

/-! ## The product -/

/-- Numbers among the parts go to the coefficient. What has a value makes no difference to an
infinite one, and everything is lost in zero. -/
def joinParts (coefficient : Expr) (parts : List Expr) : Expr :=
  let parts :=
    if coefficient.isInfinite then parts.filter fun x => x.approximation?.isNone else parts
  if coefficient.isZero then coefficient
  else
    let (numbers, others) := parts.partition isNumber
    if numbers.any isUndefined then .undefined
    else
      let c := numbers.foldl times coefficient
      let sorted := inOrder others
      match c, sorted with
      | .number _, [.sum args] =>
        if c.isOne then .sum args else s.sum (args.map fun x => s.product [c, x])
      | _, _ => ofFactors (if c.isOne then sorted else c :: sorted)

def finishProduct (f : Factors) : Expr :=
  match s.raiseTwice f.coefficient f.powers with
  | none => .undefined
  | some r =>
    let numberPowers := s.joinBases (s.gather f.numberPowers)
    let rooted := s.reduceRoots r.coefficient f.roots
    let fuel := 64 * (rooted.roots.length + 1)
    let (c, bases) := s.splitRoots fuel rooted.coefficient [] rooted.roots
    let (isOdd, units, bases) := turn f.turns (bases.map fun (e, bs) => (e, s.product bs))
    let c := if isOdd then s.negate c else c
    let roots := bases.map fun (e, b) => s.power b e
    s.joinParts c (r.parts ++ numberPowers ++ units ++ roots)

/-- A number times one expression: a sum is multiplied out, if it has no factor. -/
def pairOfFactors? : List Expr → Option Expr
  | [x, y] =>
    match x.fraction?, y.fraction? with
    | _, some q => distribute q x
    | some q, _ => distribute q y
    | _, _ => none
  | _ => none
where
  distribute (q : Rat) (x : Expr) : Option Expr :=
    if q = 0 then none
    else
      match x.asMultiple with
      | (c, .sum args) =>
        if c = 1 then some (s.sum (args.map fun y => s.scale (.exact q) y))
        else
          let d := c.mul (.exact q)
          some (if d = 1 then .sum args else .product [.number d, .sum args])
      | _ => none

def productOf (args : List Expr) : Expr :=
  match args.filter fun x => !x.isOne with
  | [] => 1
  | [x] => x
  | args =>
    (s.pairOfFactors? args).getD <|
      match s.collectFactors (8 * sizes args + 8) .empty args with
      | some f => s.finishProduct f
      | none => .undefined

end Simplifier

end Surd.Expr
