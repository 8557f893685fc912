import Mathlib
import Surd.Proofs.Text.Reading
import Surd.Text.Superscript

/-!
# Written equations

The equations in one unknown that a reader would write down: two sums of signed terms with exact
coefficients. A written equation has a text, in each of its spellings, and stands for a coefficient
of every power; neither is said through the way texts are read.
-/

namespace Surd.Equation

/-! ## Numbers -/

/-- A run of digits that is not too long for an integer. -/
structure Numeral where
  digits : List Char
  nonempty : digits ≠ []
  plain : ∀ c ∈ digits, c.isDigit = true
  short : digits.length ≤ digitLimit

def Numeral.value (n : Numeral) : Nat := Nat.ofDigitChars 10 n.digits 0

/-- The numeral with one digit, the last one of a number. -/
def Numeral.ofDigit (n : Nat) : Numeral where
  digits := [Nat.digitChar (n % 10)]
  nonempty := by simp
  plain := by
    have h := Text.isDigit_digitChar (n % 10) (Nat.mod_lt n (by decide))
    simpa using h
  short := by simp [digitLimit]

inductive Quantity where
  | integer (n : Numeral)
  | fraction (n d : Numeral) (h : d.value ≠ 0)

namespace Quantity

def text : Quantity → List Char
  | integer n => n.digits
  | fraction n d _ => n.digits ++ '/' :: d.digits

def value : Quantity → Rat
  | integer n => n.value
  | fraction n d _ => n.value / d.value

end Quantity

/-! ## Powers -/

/-- How the power of the unknown is written: not at all for the first one, after a caret, or raised. -/
inductive Exponent where
  | unwritten
  | caret (n : Numeral)
  | raised (n : Numeral)

namespace Exponent

def raise (c : Char) : Char := ((Text.superscripts.find? fun p => p.2 == c).map Prod.fst).getD c

def text : Exponent → List Char
  | unwritten => []
  | caret n => '^' :: n.digits
  | raised n => n.digits.map raise

def power : Exponent → Nat
  | unwritten => 1
  | caret n | raised n => n.value

end Exponent

/-! ## Terms -/

inductive Sign where
  | plus | minus | longMinus
deriving DecidableEq

namespace Sign

def char : Sign → Char
  | plus => '+'
  | minus => '-'
  | longMinus => '−'

def factor : Sign → Rat
  | plus => 1
  | minus | longMinus => -1

end Sign

/-- A coefficient in front of the unknown, with or without a star after it. -/
structure Multiplier where
  quantity : Quantity
  starred : Bool

/-- A term without its sign. -/
inductive Body where
  | constant (q : Quantity)
  | unknown (m : Option Multiplier) (capital : Bool) (e : Exponent)

namespace Body

def multiplierText : Option Multiplier → List Char
  | none => []
  | some m => m.quantity.text ++ if m.starred then ['*'] else []

def text : Body → List Char
  | constant q => q.text
  | unknown m capital e => multiplierText m ++ (if capital then 'X' else 'x') :: e.text

def power : Body → Nat
  | constant _ => 0
  | unknown _ _ e => e.power

def multiplierValue : Option Multiplier → Rat
  | none => 1
  | some m => m.quantity.value

def size : Body → Rat
  | constant q => q.value
  | unknown m _ _ => multiplierValue m

end Body

structure Term where
  sign : Sign
  body : Body

namespace Term

def power (t : Term) : Nat := t.body.power

def coefficient (t : Term) : Rat := t.sign.factor * t.body.size

/-- The text of a term, where signs and the rest are written in given ways. -/
def write (sign : Sign → Char) (body : Body → List Char) (t : Term) : List Char := sign t.sign :: body t.body

end Term

/-! ## Equations -/

/-- A sum of terms. A plus sign in front of the first of them may be left out. -/
structure Side where
  bare : Bool
  first : Term
  rest : List Term

namespace Side

def terms (s : Side) : List Term := s.first :: s.rest

def sum (s : Side) (k : Nat) : Rat := ((s.terms.filter fun t => t.power = k).map Term.coefficient).sum

def write (sign : Sign → Char) (body : Body → List Char) (s : Side) : List Char :=
  (if s.bare ∧ s.first.sign = .plus then body s.first.body else s.first.write sign body)
    ++ s.rest.flatMap (Term.write sign body)

end Side

structure Written where
  left : Side
  right : Side

namespace Written

def terms (E : Written) : List Term := E.left.terms ++ E.right.terms

/-- The coefficient of a power in the difference of the sides. -/
def coefficient (E : Written) (k : Nat) : Rat := E.left.sum k - E.right.sum k

def write (sign : Sign → Char) (body : Body → List Char) (E : Written) : List Char :=
  E.left.write sign body ++ '=' :: E.right.write sign body

/-- The text without blanks. -/
def text (E : Written) : List Char := E.write Sign.char Body.text

end Written

end Surd.Equation
