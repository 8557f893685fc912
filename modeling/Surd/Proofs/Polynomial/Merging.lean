import Mathlib
import Surd.Proofs.Polynomial.Residual

/-!
# Roots that are not told apart

Two roots are given as one where the fraction for the square root of the discriminant is zero. That is not
only so for a discriminant of zero: a root below half of the least positive fraction within the bound is
taken for zero. So close roots are merged, and a single root is where the two have their mean:
`solveQuadratic_single_iff`.
-/

namespace Surd

/-! ## Quadratics with a single root -/

namespace Quadratic

theorem solve_single_iff {cfg : Settings} {a : Gaussian} (ha : a ≠ 0) (b c x : Gaussian) :
    solve cfg a b c = .ok [x] ↔ (discriminant a b c).sqrt cfg = .ok 0 ∧ x = -b / (2 * a) := by
  have hfirst : ∀ s, (roots a b s).1 = (-b + s) / (2 * a) := fun s => Gaussian.quotient_eq_div _ _
  rw [solve, pair]
  cases (discriminant a b c).sqrt cfg with
  | error e =>
    constructor
    · intro h
      cases h
    · intro h
      cases h.1
  | ok s =>
    change Except.ok (collapse (roots a b s).1 (roots a b s).2) = _ ↔ _
    rw [collapse_roots ha, Except.ok.injEq, Except.ok.injEq]
    by_cases hs : s = 0
    · rw [if_pos hs, hfirst, hs, add_zero]
      simp [eq_comm]
    · rw [if_neg hs]
      simp [hs]

theorem discriminant_ofRat (a b c : ℚ) :
    discriminant (.ofRat a) (.ofRat b) (.ofRat c) = .ofRat (b ^ 2 - 4 * a * c) := by
  have hfour : (4 : Gaussian) = .ofRat 4 := rfl
  ext <;> simp [discriminant, hfour, pow_two]

end Quadratic

theorem Gaussian.sqrt_ofRat_eq_zero_iff {cfg : Settings} {x : ℚ} :
    Gaussian.sqrt cfg (.ofRat x) = .ok 0 ↔ Rational.sqrt cfg |x| = .ok 0 := by
  rw [Gaussian.sqrt, if_pos (ofRat_im x), ofRat_re]
  by_cases hx : 0 ≤ x
  · rw [if_pos hx, abs_of_nonneg hx, bind_ok_iff]
    constructor
    · rintro ⟨y, hy, h⟩
      have hzero : y = 0 := congrArg re (Except.ok.inj h)
      rwa [← hzero]
    · intro h
      exact ⟨0, h, rfl⟩
  · rw [if_neg hx, abs_of_neg (not_le.mp hx), bind_ok_iff]
    constructor
    · rintro ⟨y, hy, h⟩
      have hzero : y = 0 := congrArg im (Except.ok.inj h)
      rwa [← hzero]
    · intro h
      exact ⟨0, h, rfl⟩

/-! ## Solving -/

/-- A single root is given exactly if the discriminant is next to zero. -/
theorem solveQuadratic_single_iff {a : ℚ} (ha : a ≠ 0) (b c : ℚ) :
    ((∃ x, solveQuadratic {} [.fraction a, .fraction b, .fraction c] = .ok [x]) ↔
      (Binary64.ofRat |b ^ 2 - 4 * a * c|).lt (Binary64.ofRat ((1 / 20000) ^ 2)) = true) ∧
    ∀ x, solveQuadratic {} [.fraction a, .fraction b, .fraction c] = .ok [x] →
      |b ^ 2 - 4 * a * c| < (1 / 20000) ^ 2 ∧ x = .ofRat (-b / (2 * a)) := by
  have ha' : Gaussian.ofRat a ≠ 0 := mt (congrArg Gaussian.re) ha
  have hmean : -Gaussian.ofRat b / (2 * .ofRat a) = .ofRat (-b / (2 * a)) := by
    simp only [← Gaussian.ofRatHom_apply, map_div₀, map_neg, map_mul, map_ofNat]
  have hsingle : ∀ x, solveQuadratic {} [.fraction a, .fraction b, .fraction c] = .ok [x] ↔
      Rational.sqrt {} |b ^ 2 - 4 * a * c| = .ok 0 ∧ x = .ofRat (-b / (2 * a)) := by
    intro x
    rw [solveQuadratic, quadraticCoefficients_fractions _ ha, ok_bind, ← hmean, ← Gaussian.sqrt_ofRat_eq_zero_iff,
      ← Quadratic.discriminant_ofRat]
    exact Quadratic.solve_single_iff ha' _ _ x
  simp only [hsingle]
  constructor
  · rw [exists_and_left, and_iff_left exists_eq]
    exact Rational.sqrt_eq_zero_iff (abs_nonneg _)
  · rintro x ⟨hroot, hx⟩
    exact ⟨Rational.lt_of_sqrt_eq_zero (abs_nonneg _) hroot, hx⟩

theorem solveQuadratic_single_iff_near :
    (3 : ℚ) ≠ 0 ∧ (2 : ℚ) ^ 2 - 4 * 3 * (1 / 3 - 1 / 10 ^ 10) = 12 / 10 ^ 10 ∧
      solveQuadratic {} [.fraction 3, .fraction 2, .fraction (1 / 3 - 1 / 10 ^ 10)] = .ok [⟨-1 / 3, 0⟩] := by
  have hdiscriminant : (2 : ℚ) ^ 2 - 4 * 3 * (1 / 3 - 1 / 10 ^ 10) = 12 / 10 ^ 10 := by norm_num
  obtain ⟨hiff, hroot⟩ := solveQuadratic_single_iff three_ne_zero 2 (1 / 3 - 1 / 10 ^ 10)
  have hnear : (Binary64.ofRat |(2 : ℚ) ^ 2 - 4 * 3 * (1 / 3 - 1 / 10 ^ 10)|).lt (Binary64.ofRat ((1 / 20000) ^ 2)) = true := by
    decide +kernel
  obtain ⟨x, hx⟩ := hiff.mpr hnear
  have hmean : x = ⟨-1 / 3, 0⟩ := (hroot x hx).2.trans (Gaussian.ext (by norm_num) rfl)
  exact ⟨three_ne_zero, hdiscriminant, hmean ▸ hx⟩

/-- The roots of `x² - 10⁻¹⁰` are different and are both taken for zero. -/
theorem solveQuadratic_merged :
    (1 : ℚ) ≠ 0 ∧ (0 : ℚ) ^ 2 - 4 * 1 * (-1 / 10 ^ 10) ≠ 0 ∧
      solveQuadratic {} [.fraction 1, .fraction 0, .fraction (-1 / 10 ^ 10)] = .ok [0] :=
  ⟨one_ne_zero, by norm_num, by decide +kernel⟩

end Surd
