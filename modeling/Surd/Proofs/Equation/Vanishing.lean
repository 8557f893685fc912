import Mathlib
import Surd.Proofs.Equation.Decimals
import Surd.Proofs.Equation.Solving
import Surd.Proofs.Polynomial.Linear

/-!
# Decimals that vanish

Up to half of the least positive fraction within the bound, zero is the closest fraction to a double. So the
equation `L x = n / d` has its one root where the double for `L` is above that. Below, the unknown has no
coefficient left, and the equation has no solution, or any number solves it: `solveEquation_decimal`.
-/

namespace Surd.Equation

open Text (Spaced)

/-! ## The equation -/

theorem isDigit_digits (n : Nat) : ∀ c ∈ Text.digits n, Text.isDigit c = true := fun c hc =>
  Text.isDigit_of_plain (Text.isDigit_of_mem_digits c hc)

def multiple (l : DecimalLiteral) : Piece :=
  .ofText (l.text ++ ['x']) (by simp) <| by
    rw [List.forall_mem_append]
    exact ⟨l.forall_text (fun _ h => .inl h) (.inr (by decide)), by simp⟩

/-- A number, a slash, and the digits that stand behind it before the next sign. -/
def dividend (n : Nat) (behind : List Char) (h : ∀ c ∈ behind, Text.isDigit c = true) : Piece :=
  .ofText (Text.digits n ++ '/' :: behind) (by simp) <| by
    rw [List.forall_mem_append, List.forall_mem_cons]
    exact ⟨fun c hc => .inl (isDigit_digits n c hc), .inr (by decide), fun c hc => .inl (h c hc)⟩

def number (n : Nat) : Piece :=
  .ofText (Text.digits n) Text.digits_ne_nil fun c hc => .inl (isDigit_digits n c hc)

def Sign.ofInt (n : Int) : Sign := if n < 0 then minus else plus

/-- The sum that `n / d` is taken for: the sign of a negative denominator begins a term of its own. -/
def quotientSide (n d : Int) : SignedSum Piece :=
  if d < 0 then ⟨true, ⟨.ofInt n, dividend n.natAbs [] (by simp)⟩, [⟨.minus, number d.natAbs⟩]⟩
  else ⟨true, ⟨.ofInt n, dividend n.natAbs (Text.digits d.natAbs) (isDigit_digits _)⟩, []⟩

def decimalEquation (l : DecimalLiteral) (n d : Int) : Balance Piece :=
  ⟨⟨true, ⟨.plus, multiple l⟩, []⟩, quotientSide n d⟩

theorem write_quotientSide (n d : Int) :
    (quotientSide n d).write Sign.char Piece.text = Text.signedDigits n ++ '/' :: Text.signedDigits d := by
  rw [Text.signedDigits_eq n, Text.signedDigits_eq d]
  unfold quotientSide Sign.ofInt
  split <;> split <;> simp [SignedSum.write, SignedSum.head, Signed.write, Sign.char, dividend, number, Piece.ofText]

theorem write_decimalEquation (l : DecimalLiteral) (n d : Int) : (decimalEquation l n d).write Sign.char Piece.text =
    l.text ++ 'x' :: '=' :: (Text.signedDigits n ++ '/' :: Text.signedDigits d) := by
  rw [Balance.write, decimalEquation, write_quotientSide]
  simp [SignedSum.write, SignedSum.head, multiple, Piece.ofText]

/-! ## Its terms -/

theorem Sign.factor_ofInt (n : Int) : (Sign.ofInt n).factor * (n.natAbs : ℚ) = n := by
  unfold Sign.ofInt
  rw [Nat.cast_natAbs]
  by_cases hneg : n < 0
  · simp [if_pos hneg, Sign.factor, abs_of_neg hneg]
  · simp [if_neg hneg, Sign.factor, abs_of_nonneg (not_lt.mp hneg)]

/-- The digits of an integer without its sign. -/
def Numeral.ofInt (n : Int) (h : Writable n) : Numeral where
  digits := Text.digits n.natAbs
  nonempty := Text.digits_ne_nil
  plain := Text.isDigit_of_mem_digits
  short := Text.length_digits_le h

theorem Numeral.value_ofInt {n : Int} (h : Writable n) : (Numeral.ofInt n h).value = n.natAbs :=
  Text.natOfDigits_digits n.natAbs

theorem readInt_digits_error {n : Int} (h : ¬Writable n) :
    ∃ e, Text.readInt (Text.digits n.natAbs) = .error e ∧ e.kind = .value := by
  have hlong : digitLimit < (Text.digits n.natAbs).length := by
    rw [← not_le, Text.length_digits_le_iff (by decide)]
    exact h
  rw [Text.readInt_digits Text.digits_ne_nil (isDigit_digits _), if_pos hlong]
  exact ⟨_, rfl, rfl⟩

section
variable (cfg : Settings)

theorem read_quotient_error {n d : Int} (h : ¬(Writable n ∧ Writable d)) :
    ∃ e, Rational.read cfg (Text.digits n.natAbs ++ '/' :: Text.digits d.natAbs) = .error e ∧ e.kind = .value := by
  rw [read_slash cfg (isDigit_digits _) (isDigit_digits _)]
  by_cases hn : Writable n
  · obtain ⟨e, he, hkind⟩ := readInt_digits_error fun hd => h ⟨hn, hd⟩
    have hread : Text.readInt (Text.digits n.natAbs) = .ok _ := (Numeral.ofInt n hn).readInt
    refine ⟨e, ?_, hkind⟩
    rw [hread, ok_bind, he]
    rfl
  · obtain ⟨e, he, hkind⟩ := readInt_digits_error hn
    refine ⟨e, ?_, hkind⟩
    rw [he]
    rfl

variable (g : Sign)

theorem monomial_cut (n : Nat) :
    ∃ e, monomial cfg (g.plain :: (Text.digits n ++ ['/'])) = .error e ∧ e.kind = .parse := by
  have hslash : ∀ c ∈ ['/'].head?, Text.isDigit c = false := by
    rintro c ⟨⟩
    decide
  have hparts : parts (Text.digits n ++ ['/']) = none := by
    unfold parts takeCoefficient
    simp [Text.takeWhile_append_stop (isDigit_digits n) hslash, Text.dropWhile_append_stop (isDigit_digits n) hslash,
      takePower, isEnd]
  unfold monomial
  simp only [body_cons g (show Text.digits n ++ ['/'] ≠ [] by simp), bind, Except.bind, hparts]
  exact ⟨_, rfl, rfl⟩

theorem monomial_quotient {n d : Int} (hn : Writable n) (hd : Writable d) (hne : d ≠ 0) (hdeg : 0 ≤ cfg.maxDegree) :
    monomial cfg (g.plain :: (Text.digits n.natAbs ++ '/' :: Text.digits d.natAbs)) =
      .ok ⟨0, g.factor * (n.natAbs / d.natAbs)⟩ := by
  have hzero : (Numeral.ofInt d hd).value ≠ 0 := by
    rw [Numeral.value_ofInt]
    exact Int.natAbs_ne_zero.mpr hne
  have hterm := monomial_plain cfg ⟨g, .constant (.fraction (.ofInt n hn) (.ofInt d hd) hzero)⟩ hdeg
  refine hterm.trans ?_
  simp [Term.monomial, Term.power, Body.power, Term.coefficient, Body.size, Quantity.value, Numeral.value_ofInt]

theorem monomial_quotient_error {n d : Int} (h : ¬(Writable n ∧ Writable d)) :
    ∃ e, monomial cfg (g.plain :: (Text.digits n.natAbs ++ '/' :: Text.digits d.natAbs)) = .error e ∧
      e.kind = .parse := by
  have htake := takeCoefficient_slash (isDigit_digits n.natAbs) (isDigit_digits d.natAbs) Text.digits_ne_nil
    Text.digits_ne_nil (show EndsCoefficient [] by simp [EndsCoefficient])
  rw [List.append_nil] at htake
  obtain ⟨e, he, hkind⟩ := read_quotient_error cfg h
  generalize hu : Text.digits n.natAbs ++ '/' :: Text.digits d.natAbs = u at *
  have hne : u ≠ [] := by
    rw [← hu]
    simp
  have hparts : parts u = some (u, false, none) := by
    unfold parts
    rw [htake]
    rfl
  obtain ⟨f, hf, hparse⟩ : ∃ f, coefficient cfg u (g.plain :: u) = .error f ∧ f.kind = .parse := by
    unfold coefficient
    simp only [List.isEmpty_iff, hne, he, hkind, true_or, if_true]
    exact ⟨_, rfl, rfl⟩
  refine ⟨f, ?_, hparse⟩
  unfold monomial
  simp [body_cons g hne, bind, Except.bind, hparts, hne, hf]

end

/-! ## Reading the equation -/

/-- The equation is within the limits on texts and digits, and its denominator has no sign. -/
structure Readable (cfg : Settings) (n d : Int) (s : List Char) : Prop where
  short : s.length ≤ cfg.maxInputLength
  positive : 0 < d
  numerator : Writable n
  denominator : Writable d

section
variable {cfg : Settings} {l : DecimalLiteral} {q : Rat} (hq : Rational.read cfg l.text = .ok q)
  (hdeg : 1 ≤ cfg.maxDegree) {n d : Int} {s : List Char}
  (hs : Spaced s (l.text ++ 'x' :: '=' :: (Text.signedDigits n ++ '/' :: Text.signedDigits d)))

include hs in
theorem terms_decimalEquation (hlen : s.length ≤ cfg.maxInputLength) :
    terms cfg s = .ok ((decimalEquation l n d).allLeft.map Piece.spelling.term) := by
  rw [← write_decimalEquation] at hs
  exact Piece.spelling.terms_eq cfg _ hs hlen

include hq hdeg

theorem monomial_multiple : monomial cfg (Piece.spelling.term ⟨.plus, multiple l⟩) = .ok ⟨1, q⟩ := by
  have hterm := monomial_decimal cfg l hq .plus (some .unwritten) (by rintro e ⟨⟩; exact hdeg)
  rw [Sign.factor, one_mul] at hterm
  exact hterm

include hs

theorem monomials_decimalEquation (h : Readable cfg n d s) : monomials cfg s = .ok [⟨1, q⟩, ⟨0, -(n / d)⟩] := by
  have hvalue : (Sign.ofInt n).flip.factor * ((n.natAbs : ℚ) / d.natAbs) = -(n / d) := by
    have hd : ((d.natAbs : ℕ) : ℚ) = d := by rw [Nat.cast_natAbs, abs_of_pos h.positive]
    rw [Sign.factor_flip, hd, neg_mul, ← mul_div_assoc, Sign.factor_ofInt]
  have hright := monomial_quotient cfg (Sign.ofInt n).flip h.numerator h.denominator h.positive.ne' (by omega)
  rw [hvalue] at hright
  have hterms := terms_decimalEquation hs h.short
  rw [decimalEquation, quotientSide, if_neg (not_lt.mpr h.positive.le)] at hterms
  rw [monomials, hterms, ok_bind]
  change [Piece.spelling.term ⟨.plus, multiple l⟩,
    (Sign.ofInt n).flip.plain :: (Text.digits n.natAbs ++ '/' :: Text.digits d.natAbs)].mapM (monomial cfg) = _
  rw [List.mapM_cons, monomial_multiple hq hdeg, ok_bind, List.mapM_cons, hright]
  rfl

theorem monomials_decimalEquation_error (h : ¬Readable cfg n d s) (hd : d ≠ 0) :
    ∃ e, monomials cfg s = .error e ∧ (e.kind = .validation ∨ e.kind = .parse) := by
  by_cases hlen : s.length ≤ cfg.maxInputLength
  · have hterms := terms_decimalEquation hs hlen
    -- the first term can be read, the second one cannot
    have hsecond : ∀ {t e} (rest : List (List Char)), monomial cfg t = .error e →
        (Piece.spelling.term ⟨.plus, multiple l⟩ :: t :: rest).mapM (monomial cfg) = .error e := by
      intro t e rest he
      rw [List.mapM_cons, monomial_multiple hq hdeg, ok_bind, List.mapM_cons, he]
      rfl
    rw [monomials, hterms, ok_bind]
    by_cases hneg : d < 0
    · obtain ⟨e, he, hkind⟩ := monomial_cut cfg (Sign.ofInt n).flip n.natAbs
      rw [decimalEquation, quotientSide, if_pos hneg]
      exact ⟨e, hsecond _ he, .inr hkind⟩
    · have hlimit : ¬(Writable n ∧ Writable d) := fun hw => h ⟨hlen, by omega, hw.1, hw.2⟩
      obtain ⟨e, he, hkind⟩ := monomial_quotient_error cfg (Sign.ofInt n).flip hlimit
      rw [decimalEquation, quotientSide, if_neg hneg]
      exact ⟨e, hsecond _ he, .inr hkind⟩
  · refine ⟨.inputTooLong cfg.maxInputLength, ?_, .inl rfl⟩
    rw [monomials, terms, if_pos (not_le.mp hlen)]
    rfl

end

end Surd.Equation

namespace Surd

open Equation

section
variable {cfg : Settings} (htolerance : cfg.fractionTolerance = 1e-10) (hbound : cfg.maxDenominator = 10000)
  (hdeg : 1 ≤ cfg.maxDegree)
include htolerance hbound hdeg

/-- The coefficient of a decimal is the closest fraction to its double, which is zero up to half of the least
positive fraction within the bound; the equation has one root if it is not zero. -/
theorem solveEquation_decimal (l : DecimalLiteral) {v : ℚ} (hv : l.double.value? = some v) :
    ∃ q : ℚ, q.den ≤ 10000 ∧ (∀ y : ℚ, y.den ≤ 10000 → |q - v| ≤ |y - v|) ∧ (q ≠ 0 ↔ 1 / 20000 < v) ∧
      (∀ (g : Sign) (u : Option Exponent), (∀ e ∈ u, (e.power : Int) ≤ cfg.maxDegree) →
        monomial cfg (g.plain :: (l.text ++ unknownText u)) = .ok ⟨unknownPower u, g.factor * q⟩) ∧
      ∀ (n d : Int) (s : List Char), d ≠ 0 →
        Text.Spaced s (l.text ++ 'x' :: '=' :: (Text.signedDigits n ++ '/' :: Text.signedDigits d)) →
        (Readable cfg n d s → 1 / 20000 < v → solveEquation cfg s = .ok [.ofRat (n / d / q)]) ∧
        (Readable cfg n d s → v ≤ 1 / 20000 → ∃ e, solveEquation cfg s = .error e ∧
          e.kind = if n = 0 then .infiniteSolutions else .noSolution) ∧
        (¬Readable cfg n d s → ∃ e, solveEquation cfg s = .error e ∧ (e.kind = .validation ∨ e.kind = .parse)) := by
  have hnonneg := l.nonneg_of_value? hv
  have hbounds : 0 < 10000 := by decide
  have hread := l.read_closest htolerance hbound hv
  have hvanish : closestFraction 10000 v ≠ 0 ↔ 1 / 20000 < v := by
    rw [ne_eq, closestFraction_eq_zero_iff hnonneg, not_le]
  refine ⟨closestFraction 10000 v, closestFraction_den_le hbounds hnonneg, fun y hy => closestFraction_le hbounds hnonneg hy,
    hvanish, fun g u hu => monomial_decimal cfg l hread g u hu, fun n d s hd hs => ⟨?_, ?_, ?_⟩⟩
  · intro h hlarge
    have hms := monomials_decimalEquation hread hdeg hs h
    rw [solveEquation_linear cfg hms hdeg, solvePolynomial_ofRat cfg rfl rfl (hvanish.mpr hlarge), neg_neg]
  · intro h hsmall
    have hms := monomials_decimalEquation hread hdeg hs h
    rw [(closestFraction_eq_zero_iff hnonneg).mpr hsmall] at hms
    obtain ⟨e, he, hkind⟩ := Linear.solve_zero (Rational.writable_quotient h.numerator h.denominator hd)
    refine ⟨e, ?_, ?_⟩
    · rw [solveEquation_linear cfg hms hdeg]
      exact he
    · rw [hkind]
      simp [hd]
  · intro h
    obtain ⟨e, he, hkind⟩ := monomials_decimalEquation_error hread hdeg hs h hd
    exact ⟨e, solveEquation_of_monomials_error cfg he, hkind⟩

end

/-- The literal `.25`. -/
def DecimalLiteral.quarter : DecimalLiteral where
  whole := []
  fraction := ['2', '5']
  digits := List.all_eq_true.mp (show ['2', '5'].all Text.isDigit = true by decide)
  nonempty := by simp

theorem solveEquation_quarter :
    DecimalLiteral.quarter.double.value? = some (1 / 4) ∧ monomial {} "-.25x".toList = .ok ⟨1, -1 / 4⟩ ∧
      solveEquation {} ".25x = -3/2".toList = .ok [.ofRat (-6)] := by
  have hdouble : DecimalLiteral.quarter.double.value? = some (1 / 4) := by decide +kernel
  obtain ⟨q, _, hcloser, _, hmonomial, hsolve⟩ := @solveEquation_decimal {} rfl rfl (by decide) .quarter _ hdouble
  have hquarter : (1 / 4 : ℚ).den ≤ 10000 := by norm_num
  have hq : q = 1 / 4 := by
    have hclose := hcloser (1 / 4) hquarter
    rw [sub_self, abs_zero] at hclose
    exact sub_eq_zero.mp (abs_nonpos_iff.mp hclose)
  have hspaced : Text.Spaced ".25x = -3/2".toList
      (DecimalLiteral.quarter.text ++ 'x' :: '=' :: (Text.signedDigits (-3) ++ '/' :: Text.signedDigits 2)) :=
    Text.spaced_of_squeeze (by decide)
  have hreadable : Readable {} (-3) 2 ".25x = -3/2".toList :=
    ⟨by decide, by decide, by unfold Writable; decide +kernel, by unfold Writable; decide +kernel⟩
  have hterm := hmonomial .minus (some .unwritten) (by rintro e ⟨⟩; decide)
  have hroot := (hsolve (-3) 2 _ (by decide) hspaced).1 hreadable (by norm_num)
  have hvalue : ((-3 : Int) : ℚ) / (2 : Int) / (1 / 4) = -6 := by norm_num
  have hfactor : Sign.minus.factor * (1 / 4) = -1 / 4 := by norm_num [Sign.factor]
  rw [hq, hvalue] at hroot
  rw [hq, hfactor] at hterm
  exact ⟨hdouble, hterm, hroot⟩

/-- The literal `0.00001`. -/
def DecimalLiteral.tiny : DecimalLiteral where
  whole := ['0']
  fraction := ['0', '0', '0', '0', '1']
  digits := List.all_eq_true.mp (show ['0', '0', '0', '0', '0', '1'].all Text.isDigit = true by decide)
  nonempty := by simp

/-- A digit and a double that are not zero do not keep a coefficient from vanishing. -/
theorem solveEquation_tiny :
    '1' ∈ DecimalLiteral.tiny.text ∧ DecimalLiteral.tiny.double.isFinite = true ∧ DecimalLiteral.tiny.double.isZero = false ∧
      monomial {} ('+' :: (DecimalLiteral.tiny.text ++ ['x'])) = .ok ⟨1, 0⟩ ∧
      solveEquation {} (DecimalLiteral.tiny.text ++ "x = 1/1".toList) = .error (.noSolution "-1") := by
  decide +kernel

end Surd
