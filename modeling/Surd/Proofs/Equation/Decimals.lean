import Mathlib
import Surd.Proofs.Equation.Reading
import Surd.Proofs.Rational.Decimals

/-!
# Terms with decimals

A sign, a decimal, and maybe an unknown with a power, make up a term. `monomial_decimal`: its coefficient is
the fraction for the decimal, with the sign. `monomial_short`: that is the number that is written, where the
decimal is short enough.
-/

namespace Surd.Equation

def unknownText : Option Exponent → List Char
  | none => []
  | some e => 'x' :: e.plain

def unknownPower : Option Exponent → Nat
  | none => 0
  | some e => e.power

theorem takeCoefficient_decimal (l : DecimalLiteral) {rest : List Char} (h : EndsCoefficient rest) :
    takeCoefficient (l.text ++ rest) = (l.text, rest) := by
  have htext : l.text ++ rest = l.whole ++ '.' :: (l.fraction ++ rest) := by simp [DecimalLiteral.text]
  have hpoint : ∀ c ∈ ('.' :: (l.fraction ++ rest)).head?, Text.isDigit c = false := by
    rintro c ⟨⟩
    decide
  have hstop : ∀ c ∈ rest.head?, Text.isDigit c = false := fun c hc => (h c hc).1
  have hne := l.nonempty
  unfold takeCoefficient
  simp only [htext, Text.takeWhile_append_stop l.isDigit_whole hpoint,
    Text.dropWhile_append_stop l.isDigit_whole hpoint,
    Text.takeWhile_append_stop l.isDigit_fraction hstop, Text.dropWhile_append_stop l.isDigit_fraction hstop]
  rw [if_neg (by simpa using hne)]
  rfl

section
variable (cfg : Settings) (l : DecimalLiteral) {q : Rat} (hq : Rational.read cfg l.text = .ok q)
include hq

theorem coefficient_decimal (term : List Char) : coefficient cfg l.text term = .ok q := by
  unfold coefficient
  rw [hq]
  simp [l.text_ne_nil, pure, Except.pure]

theorem monomial_decimal (g : Sign) (u : Option Exponent) (hdeg : ∀ e ∈ u, (e.power : Int) ≤ cfg.maxDegree) :
    monomial cfg (g.plain :: (l.text ++ unknownText u)) = .ok ⟨unknownPower u, g.factor * q⟩ := by
  have hcoefficient := coefficient_decimal cfg l hq (g.plain :: (l.text ++ unknownText u))
  have hne : l.text ++ unknownText u ≠ [] := by simp [l.text_ne_nil]
  cases u with
  | none =>
    have htake := takeCoefficient_decimal l (show EndsCoefficient [] by simp [EndsCoefficient])
    have hparts : parts (l.text ++ []) = some (l.text, false, none) := by
      unfold parts
      rw [htake]
      rfl
    exact monomial_constant cfg g hne hcoefficient hparts l.text_ne_nil
  | some e =>
    have htake := takeCoefficient_decimal l (endsCoefficient_unknown e.plain)
    have hparts : parts (l.text ++ 'x' :: e.plain) = some (l.text, true, e.digits) := by
      simp [parts, htake, e.takePower_plain]
    exact monomial_unknown cfg g hne hcoefficient hparts (hdeg e rfl)

end

/-- With at most four digits after its point, and below ten million, a decimal coefficient is read exactly. -/
theorem monomial_short {cfg : Settings} (htolerance : cfg.fractionTolerance = 1e-10)
    (hbound : cfg.maxDenominator = 10000) (l : DecimalLiteral) (hplaces : l.fraction.length ≤ 4)
    (hrange : l.value < 10 ^ 7) :
    Rational.read cfg l.text = .ok l.value ∧
      ∀ (g : Sign) (u : Option Exponent), (∀ e ∈ u, (e.power : Int) ≤ cfg.maxDegree) →
        monomial cfg (g.plain :: (l.text ++ unknownText u)) = .ok ⟨unknownPower u, g.factor * l.value⟩ := by
  have hread := l.read_short htolerance hbound hplaces hrange
  exact ⟨hread, fun g u hdeg => monomial_decimal cfg l hread g u hdeg⟩

/-- The literal `12.5`. -/
def twelveAndHalf : DecimalLiteral where
  whole := ['1', '2']
  fraction := ['5']
  digits := List.all_eq_true.mp (show ['1', '2', '5'].all Text.isDigit = true by decide)
  nonempty := by simp

theorem monomial_short_cube :
    twelveAndHalf.value = 25 / 2 ∧ Rational.read {} "12.5".toList = .ok (25 / 2) ∧
      monomial {} "-12.5x^3".toList = .ok ⟨3, -25 / 2⟩ := by
  have hdigits : Text.natOfDigits [Text.plainDigit '1', Text.plainDigit '2', Text.plainDigit '5'] = 125 := by decide
  have hvalue : twelveAndHalf.value = 25 / 2 := by norm_num [twelveAndHalf, DecimalLiteral.value, hdigits]
  have hrange : twelveAndHalf.value < 10 ^ 7 := by rw [hvalue]; norm_num
  obtain ⟨hread, hmonomial⟩ := @monomial_short {} rfl rfl twelveAndHalf (by decide) hrange
  have hterm := hmonomial .minus (some (.caret (.ofDigit 3))) (by rintro e ⟨⟩; decide)
  rw [hvalue] at hread hterm
  have hfactor : Sign.minus.factor * (25 / 2) = -25 / 2 := by norm_num [Sign.factor]
  rw [hfactor] at hterm
  exact ⟨hvalue, hread, hterm⟩

end Surd.Equation
