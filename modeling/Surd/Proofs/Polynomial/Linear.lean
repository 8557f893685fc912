import Mathlib
import Surd.Proofs.Display.Printing
import Surd.Proofs.Polynomial.Agreement
import Surd.Proofs.Polynomial.Quadratic

/-!
# The root of a linear equation

The only root of `a x + b` is exact, and it is shown as the fraction it is, unless it stands for a
radical: `solvePolynomial_linear`.
-/

namespace Surd

/-! ## Digits of a quotient -/

namespace Rational

/-- Numerator and denominator have at most `k` digits. -/
def DigitsLe (k : Nat) (x : ℚ) : Prop := x.num.natAbs < Nat.pow 10 k ∧ x.den < Nat.pow 10 k

theorem natAbs_num_div_le (x y : ℚ) : (x / y).num.natAbs ≤ x.num.natAbs * y.den := by
  rcases eq_or_ne x 0 with rfl | hx
  · simp
  rcases eq_or_ne y 0 with rfl | hy
  · simp
  have hden : (x.den : Int) * y.num ≠ 0 := mul_ne_zero (by exact_mod_cast x.den_nz) (Rat.num_ne_zero.mpr hy)
  have hnum : x.num * y.den ≠ 0 := mul_ne_zero (Rat.num_ne_zero.mpr hx) (by exact_mod_cast y.den_nz)
  have hdvd := Int.natAbs_dvd_natAbs.mpr (Rat.num_dvd (x.num * y.den) hden)
  rw [Rat.div_def']
  exact (Nat.le_of_dvd (Int.natAbs_pos.mpr hnum) hdvd).trans_eq (by rw [Int.natAbs_mul, Int.natAbs_natCast])

theorem den_div_le (x : ℚ) {y : ℚ} (hy : y ≠ 0) : (x / y).den ≤ x.den * y.num.natAbs := by
  have hden : (x.den : Int) * y.num ≠ 0 := mul_ne_zero (by exact_mod_cast x.den_nz) (Rat.num_ne_zero.mpr hy)
  have hdvd := Int.natAbs_dvd_natAbs.mpr (Rat.den_dvd (x.num * y.den) (x.den * y.num))
  rw [Int.natAbs_natCast] at hdvd
  rw [Rat.div_def']
  exact (Nat.le_of_dvd (Int.natAbs_pos.mpr hden) hdvd).trans_eq (by rw [Int.natAbs_mul, Int.natAbs_natCast])

theorem writable_div {x y : ℚ} {k : Nat} (hx : DigitsLe k x) (hy : DigitsLe k y) (hne : y ≠ 0)
    (hk : 2 * k ≤ digitLimit) : Writable (x / y) := by
  have hlimit : Nat.pow 10 k * Nat.pow 10 k ≤ Nat.pow 10 digitLimit := by
    generalize digitLimit = limit at *
    simp only [Nat.pow_eq]
    rw [← pow_add, ← two_mul]
    exact Nat.pow_le_pow_right (by decide) hk
  have hnum := natAbs_num_div_le x y
  have hden := den_div_le x hne
  constructor
  · exact (hnum.trans_lt (Nat.mul_lt_mul'' hx.1 hy.2)).trans_le hlimit
  · exact (hden.trans_lt (Nat.mul_lt_mul'' hx.2 hy.1)).trans_le hlimit

theorem DigitsLe.neg {k : Nat} {x : ℚ} (h : DigitsLe k x) : DigitsLe k (-x) := by
  rwa [DigitsLe, Rat.neg_num, Rat.neg_den, Int.natAbs_neg]

theorem writable_quotient {n d : Int} (hn : Surd.Writable n) (hd : Surd.Writable d) (hne : d ≠ 0) :
    Writable (-((n : ℚ) / d)) := by
  have hnum := natAbs_num_div_le n d
  have hden := den_div_le n (y := d) (by exact_mod_cast hne)
  rw [Rat.den_intCast, mul_one, Rat.num_intCast] at hnum
  rw [Rat.den_intCast, one_mul, Rat.num_intCast] at hden
  rw [Writable, Rat.neg_num, Rat.neg_den, Surd.Writable, Int.natAbs_neg]
  exact ⟨hnum.trans_lt hn, hden.trans_lt hd⟩

end Rational

/-! ## Solving -/

theorem solvePolynomial_ofRat (cfg : Settings) {x y : Number} {a b : ℚ} (hx : x.withoutDoubles = some (.ofRat a))
    (hy : y.withoutDoubles = some (.ofRat b)) (ha : a ≠ 0) :
    Surd.solvePolynomial cfg [x, y] = .ok [.ofRat (-b / a)] := by
  have hzero : ¬(Gaussian.ofRat a).isZero = true := mt Gaussian.isZero_ofRat_iff.mp ha
  have hquotient : (-Gaussian.ofRat b).quotient (.ofRat a) = .ofRat (-b / a) := by
    rw [Gaussian.quotient_eq_div, ← Gaussian.ofRatHom_apply, ← Gaussian.ofRatHom_apply, ← map_neg, ← map_div₀]
    rfl
  change solveLinear cfg [x, y] = _
  rw [solveLinear, linearCoefficients, Number.toGaussian_of_withoutDoubles cfg hx, ok_bind,
    Number.toGaussian_of_withoutDoubles cfg hy, ok_bind, ← hquotient]
  exact if_neg hzero

theorem Linear.solve_zero {c : ℚ} (h : Rational.Writable c) :
    ∃ e, Linear.solve 0 (.ofRat c) = .error e ∧ e.kind = if c = 0 then .infiniteSolutions else .noSolution := by
  by_cases hzero : c = 0
  · rw [hzero]
    exact ⟨.infiniteSolutions, rfl, rfl⟩
  · have hne : ¬(Gaussian.ofRat c).isZero = true := mt Gaussian.isZero_ofRat_iff.mp hzero
    obtain ⟨t, ht⟩ := (Gaussian.writesIf_write (.ofRat c)).exists_ok ⟨h, Rational.writable_intCast (n := 0) (by decide)⟩
    refine ⟨.noSolution (String.ofList t), ?_, by rw [if_neg hzero]; rfl⟩
    have hlead : (0 : Gaussian).isZero = true := rfl
    unfold Linear.solve
    rw [if_pos hlead, if_neg hne, ht]
    rfl

/-! ## Showing a fraction -/

namespace Display

theorem exists_approximate {cfg : Settings} {f : Format} {z : Gaussian} {s : List Char}
    (h : exact cfg f.style z = .ok s) : ∃ t, approximate cfg f z = .ok t := by
  unfold approximate
  cases doubles? z with
  | none => exact ⟨s, h⟩
  | some xy => exact ⟨_, rfl⟩

variable {f : Elementary}

/-- A fraction is shown by its own text or by that of a radical that it stands for. -/
theorem rational_cases (hf : f.SqrtAccurate) {q : ℚ} (hq : Rational.Writable q)
    (hrange : q.den < 100 ∨ (Binary64.ofRat q).isFinite = false ∨
      (Binary64.ofRat q * Binary64.ofRat (6 : Nat)).isFinite = true) :
    ∃ s, rational { elementary := f } .ascii q = .ok s ∧
      ((Radical.find? { elementary := f } q = .ok none ∧ s = Text.fractionText q) ∨
        ∃ r, Radical.find? { elementary := f } q = .ok (some r) ∧ r.Stands q ∧ radical .ascii r = .ok s) := by
  obtain ⟨o, ho⟩ : ∃ o, Radical.find? { elementary := f } q = .ok o := by
    rcases hrange with hden | hrange
    · exact ⟨none, if_pos (show (q.den : Int) < 100 by exact_mod_cast hden)⟩
    · exact Radical.find?_total hf hrange
  cases o with
  | none =>
    obtain ⟨s, hs⟩ := (Rational.writesIf_write q).exists_ok hq
    exact ⟨s, (rational_ascii ho).trans hs, .inl ⟨ho, Rational.eq_fractionText hs⟩⟩
  | some r =>
    have hstands := Radical.find?_stands hf ho
    obtain ⟨s, hs⟩ := exists_radical hstands .ascii
    have hden : q.den ≠ 1 := by
      have := hstands.den_le
      omega
    refine ⟨s, ?_, .inr ⟨r, ho, hstands, hs⟩⟩
    rw [rational, if_neg hden, ho, ok_bind]
    exact hs

end Display

section
variable {f : Elementary}

/-- The root of a linear equation is found and shown by its own text, unless it stands for a radical; this
holds where its denominator is small or six times its double is in range, or it has no double. -/
theorem solvePolynomial_linear (hf : f.SqrtAccurate) {x y : Number} {a b : ℚ}
    (hx : x.withoutDoubles = some (.ofRat a)) (hy : y.withoutDoubles = some (.ofRat b)) (ha : a ≠ 0)
    (hda : Rational.DigitsLe 1000 a) (hdb : Rational.DigitsLe 1000 b)
    (hrange : (-b / a).den < 100 ∨ (Binary64.ofRat (-b / a)).isFinite = false ∨
      (Binary64.ofRat (-b / a) * Binary64.ofRat (6 : Nat)).isFinite = true) (precision : Int) :
    ∃ r s approx, Calculator.solvePolynomial { elementary := f } { precision } [x, y] = .ok r ∧
      ShowsRoots [String.ofList s] [approx] 1 r ∧
      ((Radical.find? { elementary := f } (-b / a) = .ok none ∧ s = Text.fractionText (-b / a)) ∨
        ∃ ρ, Radical.find? { elementary := f } (-b / a) = .ok (some ρ) ∧ ρ.Stands (-b / a) ∧
          Display.radical .ascii ρ = .ok s) := by
  have hwritable : Rational.Writable (-b / a) := Rational.writable_div hdb.neg hda ha (by decide)
  obtain ⟨s, hs, hcases⟩ := Display.rational_cases hf hwritable hrange
  have hexact : Display.exact { elementary := f } ({ precision } : Format).style (.ofRat (-b / a)) = .ok s := hs
  obtain ⟨t, ht⟩ := Display.exists_approximate (f := { precision }) hexact
  have hroots := solvePolynomial_ofRat { elementary := f } hx hy ha
  have hform : Calculator.exactForm { elementary := f } { precision } (.ofRat (-b / a)) = .ok (String.ofList s) := by
    rw [Calculator.exactForm, hexact]
    rfl
  have hdecimal : Calculator.decimalForm { elementary := f } { precision } (.ofRat (-b / a)) = .ok (String.ofList t) := by
    rw [Calculator.decimalForm, ht]
    rfl
  have hforms : ∀ {g : Gaussian → Except Failure String} {z : Gaussian} {u : String}, g z = .ok u →
      [z].mapM g = .ok [u] := by
    intro g z u hu
    rw [List.mapM_cons, hu]
    rfl
  obtain ⟨r, hr, hshows⟩ :=
    (solvePolynomial_agrees { elementary := f } { precision } [x, y]).1 _ _ _ hroots (hforms hform) (hforms hdecimal)
  exact ⟨r, s, _, hr, hshows, hcases⟩

end

/-- The root of `2 x + 3`. -/
theorem solvePolynomial_linear_small :
    ∃ r approx, Calculator.solvePolynomial {} { precision := 6 } [.int 2, .fraction 3] = .ok r ∧
      ShowsRoots ["-3/2"] [approx] 1 r := by
  have hfind : Radical.find? {} (-3 / 2) = .ok none := if_pos (by decide +kernel)
  have hden : (-3 / 2 : ℚ).den < 100 := by norm_num
  have htext : String.ofList (Text.fractionText (-3 / 2)) = "-3/2" := by decide +kernel
  have hdigits : Rational.DigitsLe 1000 2 ∧ Rational.DigitsLe 1000 3 := by
    unfold Rational.DigitsLe
    decide +kernel
  obtain ⟨r, s, approx, hr, hshows, hcases⟩ := @solvePolynomial_linear .native Elementary.native_sqrtAccurate
    (.int 2) (.fraction 3) 2 3 rfl rfl two_ne_zero hdigits.1 hdigits.2 (.inl hden) 6
  rcases hcases with ⟨_, rfl⟩ | ⟨ρ, hρ, _⟩
  · exact ⟨r, approx, hr, htext ▸ hshows⟩
  · cases hfind.symm.trans hρ

/-- The root of `5741 x - 8119` is a convergent of `√2`, and it is shown as that. -/
theorem solvePolynomial_convergent :
    Calculator.solvePolynomial {} { precision := 6 } [.int 5741, .int (-8119)] =
        .ok { ok := true, type := "equation", degree := some 1, exact := some ["sqrt(2)"], approx := some ["1.41421"] } ∧
      String.ofList (Text.fractionText (8119 / 5741)) = "8119/5741" := by
  decide +kernel

end Surd
