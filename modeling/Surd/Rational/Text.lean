import Surd.Rational.Approximation

/-!
# Fractions as text

A fraction is written `n/d` in lowest terms, an integer without a denominator. Two integers with a
slash between them are read exactly, in any terms; other text is an integer or a decimal number.
-/

namespace Surd.Rational

def write (x : Rat) : Except Failure (List Char) := do
  let n ← Text.writeInt x.num
  if x.den = 1 then pure n
  else
    let d ← Text.writeInt x.den
    pure (n ++ '/' :: d)

/-- The quotient of two integers. -/
def divInt (n d : Int) : Except Failure Rat := do
  if d = 0 then
    let dividend ← Text.writeInt n
    throw (.zeroDenominator (String.ofList dividend))
  else pure (Rat.divInt n d)

def read (cfg : Settings) (s : List Char) : Except Failure Rat :=
  let t := Text.trim s
  match t.dropWhile (· != '/') with
  | _ :: denominator => do
    let n ← Text.readInt (t.takeWhile (· != '/'))
    let d ← Text.readInt denominator
    divInt n d
  | [] =>
    match Text.readInt t with
    | .ok n => pure n
    | .error _ => do
      let x ← Binary64.read t
      ofDouble cfg x

/-- The text of a fraction that shows both of its parts. -/
def writeParts (x : Rat) : Except Failure (List Char) := do
  let n ← Text.writeInt x.num
  let d ← Text.writeInt x.den
  pure ("Rational(".toList ++ n ++ ", ".toList ++ d ++ [')'])

end Surd.Rational
