import Surd.Equation.Terms
import Surd.Rational.Text

/-!
# Terms as monomials

A term is a sign, an optional coefficient, an optional variable, and an optional power of the
variable. The coefficient is a fraction, an integer or a decimal number without exponent.
-/

namespace Surd.Equation

structure Monomial where
  power : Nat
  coefficient : Rat
deriving DecidableEq, Repr

/-! ## The parts of a term -/

def quote (s : List Char) : String := String.ofList (Text.quoted s)

/-- Whether the term is negative, and what follows its first character. -/
def body (term : List Char) : Except Failure (Bool × List Char) :=
  match term with
  | [] => throw .missingTerm
  | [_] => throw (.emptyTerm (String.ofList term))
  | c :: rest => pure (c == '-', rest)

/-- The coefficient in front of a term, empty if there is none, and the rest. -/
def takeCoefficient (s : List Char) : List Char × List Char :=
  let whole := s.takeWhile Text.isDigit
  let rest := s.dropWhile Text.isDigit
  match rest with
  | '/' :: more =>
    let denominator := more.takeWhile Text.isDigit
    if whole.isEmpty || denominator.isEmpty then (whole, rest)
    else (whole ++ '/' :: denominator, more.dropWhile Text.isDigit)
  | '.' :: more =>
    let fraction := more.takeWhile Text.isDigit
    if whole.isEmpty && fraction.isEmpty then ([], s)
    else (whole ++ '.' :: fraction, more.dropWhile Text.isDigit)
  | _ => (whole, rest)

/-- One line end may follow a term. -/
def isEnd (s : List Char) : Bool := s == [] || s == ['\n']

/-- The digits of the power at the end of a term: none where there is no power. -/
def takePower (s : List Char) : Option (Option (List Char)) :=
  if isEnd s then some none
  else match s with
  | '^' :: rest =>
    let ds := rest.takeWhile Text.isDigit
    if !ds.isEmpty && isEnd (rest.dropWhile Text.isDigit) then some (some ds) else none
  | _ => none

/-- The parts of the body of a term: coefficient, whether it has a variable, digits of the power. -/
def parts (s : List Char) : Option (List Char × Bool × Option (List Char)) :=
  let (coefficient, rest) := takeCoefficient s
  let (hasVariable, rest) := match rest with
    | 'x' :: more => (true, more)
    | _ => (false, rest)
  (takePower rest).map fun power => (coefficient, hasVariable, power)

/-! ## Values -/

/-- The value of a coefficient; one if there is none. -/
def coefficient (cfg : Settings) (digits term : List Char) : Except Failure Rat :=
  if digits.isEmpty then pure 1
  else match Rational.read cfg digits with
  | .ok q => pure q
  | .error f =>
    if f.kind = .value ∨ f.kind = .overflow then
      throw (.badCoefficient (String.ofList term) (quote term) f.message)
    else throw f

/-- The value of the digits of a power. -/
def power (cfg : Settings) (digits term : List Char) : Except Failure Nat := do
  let failure : Failure :=
    .powerTooHigh (String.ofList digits) (String.ofList term) (quote term) cfg.maxDegree
  if (Text.signedDigits cfg.maxDegree).length < (digits.dropWhile (· == '0')).length then
    throw failure
  else
    let k ← Text.readInt digits
    if cfg.maxDegree < k then throw failure else pure k.toNat

def applySign (negative : Bool) (q : Rat) : Rat := if negative then -q else q

def monomial (cfg : Settings) (term : List Char) : Except Failure Monomial := do
  let (negative, body) ← body term
  match parts body with
  | none => throw (.unreadableTerm (String.ofList term) (quote term))
  | some (digits, hasVariable, exponent) =>
    if digits.isEmpty && !hasVariable then
      throw (.unreadableTerm (String.ofList term) (quote term))
    else if exponent.isSome && !hasVariable then
      throw (.exponentWithoutVariable (String.ofList term) (quote term))
    else
      let q ← coefficient cfg digits term
      let k ← match hasVariable, exponent with
        | false, _ => pure 0
        | true, none => pure 1
        | true, some ds => power cfg ds term
      pure ⟨k, applySign negative q⟩

end Surd.Equation
