import Mathlib
import Surd.Polynomial.Solve
import Surd.Proofs.Gaussian.SquareRoot

/-!
# Exact roots of quadratics

If the discriminant is a square, or the negative of one, of a root that fractions for doubles find, then
so are the roots of a quadratic: `solveQuadratic_exact`.
-/

namespace Surd

/-! ## Roots -/

theorem Number.toGaussian_of_withoutDoubles (cfg : Settings) {x : Number} {z : Gaussian} (h : x.withoutDoubles = some z) :
    x.toGaussian cfg = .ok z := by
  cases x <;> cases h <;> rfl

theorem quadraticCoefficients_eq (cfg : Settings) {x y z : Number} {a b c : Gaussian} (hx : x.withoutDoubles = some a)
    (hy : y.withoutDoubles = some b) (hz : z.withoutDoubles = some c) (ha : a ≠ 0) :
    quadraticCoefficients cfg [x, y, z] = .ok (a, b, c) := by
  have hnonzero : nonzero .quadratic a = .ok () := if_neg (mt Gaussian.isZero_iff.mp ha)
  rw [quadraticCoefficients, Number.toGaussian_of_withoutDoubles cfg hx, ok_bind,
    Number.toGaussian_of_withoutDoubles cfg hy, ok_bind, Number.toGaussian_of_withoutDoubles cfg hz, ok_bind, hnonzero]
  rfl

theorem quadraticCoefficients_fractions (cfg : Settings) {a : ℚ} (ha : a ≠ 0) (b c : ℚ) :
    quadraticCoefficients cfg [.fraction a, .fraction b, .fraction c] = .ok (.ofRat a, .ofRat b, .ofRat c) :=
  quadraticCoefficients_eq cfg rfl rfl rfl (mt (congrArg Gaussian.re) ha)

section
variable {a t : Gaussian} (ha : a ≠ 0) (b : Gaussian)
include ha

theorem roots_eq_iff : (-b + t) / (2 * a) = (-b - t) / (2 * a) ↔ t = 0 := by
  rw [div_left_inj' (mul_ne_zero two_ne_zero ha)]
  constructor
  · intro h
    have htwice : 2 * t = 0 := by linear_combination h
    exact (mul_eq_zero.mp htwice).resolve_left two_ne_zero
  · rintro rfl
    rw [add_zero, sub_zero]

theorem root_iff {c : Gaussian} (ht : t * t = Quadratic.discriminant a b c) (x : Gaussian) :
    a * x ^ 2 + b * x + c = 0 ↔ x = (-b + t) / (2 * a) ∨ x = (-b - t) / (2 * a) := by
  have hdiscrim : discrim a b c = t * t := by
    rw [ht, Quadratic.discriminant, discrim, pow_two]
  rw [pow_two]
  exact quadratic_eq_zero_iff ha hdiscrim x

end

/-- The roots are exact, in the order of the signs before the root of the discriminant, and a double
root is given once. -/
theorem solveQuadratic_exact {f : Elementary} (hf : f.SqrtAccurate) {a b c s : ℚ} {t : Gaussian} (ha : a ≠ 0)
    (hs : 0 ≤ s) (hle : s ≤ 10 ^ 7) (hden : s.den ≤ 10000)
    (ht : t = .ofRat s ∧ b ^ 2 - 4 * a * c = s ^ 2 ∨ t = .ofRat s * .I ∧ b ^ 2 - 4 * a * c = -s ^ 2) :
    solveQuadratic { elementary := f } [.fraction a, .fraction b, .fraction c] =
      .ok (if s = 0 then [(-.ofRat b + t) / (2 * .ofRat a)]
        else [(-.ofRat b + t) / (2 * .ofRat a), (-.ofRat b - t) / (2 * .ofRat a)]) ∧
    ∀ x : Gaussian, .ofRat a * x ^ 2 + .ofRat b * x + .ofRat c = 0 ↔
      x = (-.ofRat b + t) / (2 * .ofRat a) ∨ x = (-.ofRat b - t) / (2 * .ofRat a) := by
  have hdiscriminant : Quadratic.discriminant (.ofRat a) (.ofRat b) (.ofRat c) = .ofRat (b ^ 2 - 4 * a * c) := by
    have hfour : (4 : Gaussian) = .ofRat 4 := rfl
    rw [Quadratic.discriminant, hfour, pow_two]
    simp only [← Gaussian.ofRatHom_apply, map_sub, map_mul]
  have ha' : Gaussian.ofRat a ≠ 0 := fun h => ha (congrArg Gaussian.re h)
  have hroot : Gaussian.sqrt { elementary := f } (.ofRat (b ^ 2 - 4 * a * c)) = .ok t := by
    rcases ht with ⟨rfl, hD⟩ | ⟨rfl, hD⟩
    · rw [hD, pow_two, Gaussian.sqrt_mul_self hf hs hle hden]
    · rw [hD, pow_two, Gaussian.sqrt_neg_mul_self hf hs hle hden]
  have hsquare : t * t = .ofRat (b ^ 2 - 4 * a * c) := by
    rcases ht with ⟨rfl, hD⟩ | ⟨rfl, hD⟩ <;> rw [hD] <;> ext <;> simp [pow_two]
  have hzero : t = 0 ↔ s = 0 := by
    rcases ht with ⟨rfl, _⟩ | ⟨rfl, _⟩ <;> simp [Gaussian.ext_iff]
  refine ⟨?_, root_iff ha' (.ofRat b) (hsquare.trans hdiscriminant.symm)⟩
  unfold solveQuadratic
  rw [quadraticCoefficients_fractions _ ha]
  simp only [bind, Except.bind, Quadratic.solve, Quadratic.pair, hdiscriminant, hroot, pure, Except.pure,
    Quadratic.roots, Quadratic.collapse, Gaussian.quotient_eq_div, roots_eq_iff ha', hzero]

theorem solveQuadratic_conjugateRoots :
    Elementary.native.SqrtAccurate ∧ (1 / 2 : ℚ) ≠ 0 ∧ (0 : ℚ) ≤ 7 / 3 ∧ (7 / 3 : ℚ) ≤ 10 ^ 7 ∧ (7 / 3 : ℚ).den ≤ 10000 ∧
      (3 / 5 : ℚ) ^ 2 - 4 * (1 / 2) * (653 / 225) = -(7 / 3) ^ 2 ∧
      solveQuadratic {} [.fraction (1 / 2), .fraction (3 / 5), .fraction (653 / 225)] =
        .ok [⟨-3 / 5, 7 / 3⟩, ⟨-3 / 5, -7 / 3⟩] := by
  have hden : (7 / 3 : ℚ).den ≤ 10000 := by decide +kernel
  have hdiscriminant : (3 / 5 : ℚ) ^ 2 - 4 * (1 / 2) * (653 / 225) = -(7 / 3) ^ 2 := by norm_num
  have hexact := solveQuadratic_exact Elementary.native_sqrtAccurate (by norm_num) (by norm_num) (by norm_num) hden
    (.inr ⟨rfl, hdiscriminant⟩)
  exact ⟨Elementary.native_sqrtAccurate, by norm_num, by norm_num, by norm_num, hden, hdiscriminant,
    hexact.1.trans (by decide +kernel)⟩

end Surd
