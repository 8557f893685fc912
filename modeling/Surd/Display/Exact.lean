import Surd.Display.Style
import Surd.Gaussian
import Surd.Radical

/-!
# Exact forms

Fractions that stand for radicals are written as radicals, other numbers as they are.
-/

namespace Surd.Display

/-! ## Radicals -/

def braced (s : List Char) : List Char := '{' :: s ++ ['}']

def latexFraction (numerator denominator : List Char) : List Char :=
  "\\frac".toList ++ braced numerator ++ braced denominator

/-- A positive multiple of a square root. -/
def rootText (style : Style) (coefficient radicand : List Char) : List Char :=
  let root := match style with
    | .ascii => "sqrt(".toList ++ radicand ++ [')']
    | .unicode => '√' :: radicand
    | .latex => "\\sqrt".toList ++ braced radicand
  if coefficient = ['1'] then root
  else match style with
  | .ascii => coefficient ++ '*' :: root
  | _ => coefficient ++ root

/-- A radical without an offset, apart from its sign. -/
def overDivisor (style : Style) (root divisor : List Char) : List Char :=
  match style with
  | .latex => latexFraction root divisor
  | _ => root ++ '/' :: divisor

def radical (style : Style) (r : Radical) : Except Failure (List Char) := do
  let coefficient ← Text.writeInt r.coefficient.natAbs
  let radicand ← Text.writeInt r.radicand
  let root := rootText style coefficient radicand
  let negative : Bool := r.coefficient < 0
  if r.offset = 0 then
    let sign := if negative then ['-'] else []
    if r.divisor = 1 then pure (sign ++ root)
    else
      let divisor ← Text.writeInt r.divisor
      pure (sign ++ overDivisor style root divisor)
  else
    let offset ← Text.writeInt r.offset
    let numerator := offset ++ [' ', if negative then style.minus else '+', ' '] ++ root
    if r.divisor = 1 then pure numerator
    else
      let divisor ← Text.writeInt r.divisor
      match style with
      | .latex => pure (latexFraction numerator divisor)
      | _ => pure ('(' :: numerator ++ [')', '/'] ++ divisor)

/-! ## Fractions -/

def fraction (style : Style) (x : Rat) : Except Failure (List Char) := do
  if x.den = 1 then Text.writeInt x.num
  else match style with
  | .latex =>
    let n ← Text.writeInt x.num.natAbs
    let d ← Text.writeInt x.den
    pure ((if x.num < 0 then ['-'] else []) ++ latexFraction n d)
  | _ => Rational.write x

variable (cfg : Settings)

def rational (style : Style) (x : Rat) : Except Failure (List Char) := do
  if x.den = 1 then Text.writeInt x.num
  else match ← Radical.find? cfg x with
  | some r => radical style r
  | none => fraction style x

/-! ## Complex numbers -/

def inBrackets (s : List Char) : List Char := '(' :: s ++ [')']

/-- An imaginary part with its unit. -/
def imaginary (style : Style) (y : Rat) : Except Failure (List Char) := do
  if y = 1 then pure ['i']
  else if y = -1 then pure ['-', 'i']
  else match ← Radical.find? cfg y with
  | none =>
    let s ← fraction style y
    pure (s ++ ['i'])
  | some r =>
    let s ← radical style r
    let factor := if r.offset ≠ 0 ∧ style ≠ .latex then inBrackets s else s
    pure (factor ++ [style.imaginaryJoin, 'i'])

def exact (style : Style) (z : Gaussian) : Except Failure (List Char) := do
  if z.im = 0 then rational cfg style z.re
  else if z.re = 0 then imaginary cfg style z.im
  else
    let s ← rational cfg style z.re
    let re := if s.contains ' ' ∧ style ≠ .latex then inBrackets s else s
    let im ← imaginary cfg style z.im.abs
    pure (re ++ [' ', if z.im < 0 then style.minus else '+', ' '] ++ im)

/-- A variable and its value. -/
def solution (style : Style) (name : List Char) (z : Gaussian) : Except Failure (List Char) := do
  let s ← exact cfg style z
  pure (variableName style name ++ " = ".toList ++ s)

end Surd.Display
