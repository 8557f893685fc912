import Mathlib
import Surd.Proofs.Polynomial.Quadratic

/-!
# Quadratics with an inexact root of the discriminant

Whatever number `s` is taken for the square root of the discriminant, the two values that it gives have
the sum `-b / a`, and the polynomial has one value at both, which is zero exactly if `s` is a root. On
real coefficients `s` is real or imaginary, so the values are real or conjugates: `solveQuadratic_residual`.
-/

namespace Surd

namespace Gaussian

/-! ## Conjugates -/

theorem conjugate_eq_self_iff {z : Gaussian} : z.conjugate = z ↔ z.im = 0 := by
  rw [Gaussian.ext_iff]
  constructor
  · intro h
    exact self_eq_neg.mp h.2.symm
  · intro h
    exact ⟨rfl, by simp [conjugate, h]⟩

theorem conjugate_add (z w : Gaussian) : (z + w).conjugate = z.conjugate + w.conjugate := by
  ext
  · rfl
  · exact neg_add z.im w.im

theorem conjugate_neg (z : Gaussian) : (-z).conjugate = -z.conjugate := rfl

theorem conjugate_div (z w : Gaussian) : (z / w).conjugate = z.conjugate / w.conjugate := by
  rw [← quotient_eq_div, ← quotient_eq_div, quotient, quotient, modulusSquared_conjugate]
  ext
  · simp only [conjugate]
    ring
  · simp only [conjugate]
    ring

/-! ## The square root of a real number -/

/-- It lies on one of the axes. -/
theorem conjugate_sqrt {cfg : Settings} {z s : Gaussian} (hz : z.im = 0) (h : z.sqrt cfg = .ok s) :
    s.conjugate = s ∨ s.conjugate = -s := by
  rw [sqrt, if_pos hz] at h
  split at h
  · obtain ⟨x, _, h⟩ := bind_ok_iff.mp h
    cases h
    left
    exact conjugate_eq_self_iff.mpr rfl
  · obtain ⟨y, _, h⟩ := bind_ok_iff.mp h
    cases h
    right
    ext
    · exact neg_zero.symm
    · rfl

end Gaussian

namespace Quadratic

/-! ## The values that a root of the discriminant gives -/

section
variable {a : Gaussian} (ha : a ≠ 0) (b s : Gaussian)
include ha

theorem roots_sum : (roots a b s).1 + (roots a b s).2 = -b / a := by
  simp only [roots, Gaussian.quotient_eq_div]
  field_simp
  ring

theorem eval_root (c : Gaussian) :
    a * ((-b + s) / (2 * a)) ^ 2 + b * ((-b + s) / (2 * a)) + c = (s ^ 2 - discriminant a b c) / (4 * a) := by
  rw [discriminant]
  field_simp
  ring

theorem eval_roots_fst (c : Gaussian) :
    a * (roots a b s).1 ^ 2 + b * (roots a b s).1 + c = (s ^ 2 - discriminant a b c) / (4 * a) :=
  eval_root ha b s c

theorem eval_roots_snd (c : Gaussian) :
    a * (roots a b s).2 ^ 2 + b * (roots a b s).2 + c = (s ^ 2 - discriminant a b c) / (4 * a) := by
  have h := eval_root ha b (-s) c
  rwa [← sub_eq_add_neg, neg_sq] at h

theorem collapse_roots :
    collapse (roots a b s).1 (roots a b s).2 = if s = 0 then [(roots a b s).1] else [(roots a b s).1, (roots a b s).2] := by
  unfold collapse
  simp only [roots, Gaussian.quotient_eq_div, roots_eq_iff ha]

end

/-- Real coefficients give conjugate values for conjugate roots of the discriminant. -/
theorem conjugate_root {a b : Gaussian} (ha : a.im = 0) (hb : b.im = 0) (s : Gaussian) :
    ((-b + s) / (2 * a)).conjugate = (-b + s.conjugate) / (2 * a) := by
  have hreal : ∀ {z : Gaussian}, z.im = 0 → z.conjugate = z := Gaussian.conjugate_eq_self_iff.mpr
  have htwo : (2 * a).conjugate = 2 * a := hreal (by simp [ha, show (2 : Gaussian).im = 0 from rfl])
  rw [Gaussian.conjugate_div, Gaussian.conjugate_add, Gaussian.conjugate_neg, hreal hb, htwo]

theorem conjugate_roots {cfg : Settings} {a b c s : Gaussian} (ha : a.im = 0) (hb : b.im = 0) (hc : c.im = 0)
    (hs : (discriminant a b c).sqrt cfg = .ok s) :
    (roots a b s).1.im = 0 ∧ (roots a b s).2.im = 0 ∨ (roots a b s).2 = (roots a b s).1.conjugate := by
  have hdiscriminant : (discriminant a b c).im = 0 := by
    simp [discriminant, ha, hb, hc, show (4 : Gaussian).im = 0 from rfl]
  have hfirst := conjugate_root ha hb s
  have hsecond := conjugate_root ha hb (-s)
  rw [Gaussian.conjugate_neg] at hsecond
  simp only [roots, Gaussian.quotient_eq_div, sub_eq_add_neg]
  rcases Gaussian.conjugate_sqrt hdiscriminant hs with h | h
  · left
    rw [h] at hfirst hsecond
    exact ⟨Gaussian.conjugate_eq_self_iff.mp hfirst, Gaussian.conjugate_eq_self_iff.mp hsecond⟩
  · right
    rw [hfirst, h]

end Quadratic

/-! ## Solving -/

theorem solveQuadratic_residual {cfg : Settings} {a b c s : Gaussian} (ha : a ≠ 0)
    (hs : (Quadratic.discriminant a b c).sqrt cfg = .ok s) :
    ∃ x₁ x₂, solveQuadraticBoth cfg [.gaussian a, .gaussian b, .gaussian c] = .ok [x₁, x₂] ∧
      x₁ + x₂ = -b / a ∧
      (∀ x ∈ [x₁, x₂], a * x ^ 2 + b * x + c = (s ^ 2 - (b ^ 2 - 4 * a * c)) / (4 * a)) ∧
      solveQuadratic cfg [.gaussian a, .gaussian b, .gaussian c] = .ok (if s = 0 then [x₁] else [x₁, x₂]) ∧
      (a.im = 0 → b.im = 0 → c.im = 0 → x₁.im = 0 ∧ x₂.im = 0 ∨ x₂ = x₁.conjugate) := by
  have hcoefficients : quadraticCoefficients cfg [.gaussian a, .gaussian b, .gaussian c] = .ok (a, b, c) :=
    quadraticCoefficients_eq cfg rfl rfl rfl ha
  have hpair : Quadratic.pair cfg a b c = .ok (Quadratic.roots a b s) := by
    rw [Quadratic.pair, hs]
    rfl
  refine ⟨(Quadratic.roots a b s).1, (Quadratic.roots a b s).2, ?_, Quadratic.roots_sum ha b s, ?_, ?_, ?_⟩
  · rw [solveQuadraticBoth, hcoefficients, ok_bind]
    simp only [Quadratic.solveBoth, hpair, ok_bind]
    rfl
  · have hsquare : b ^ 2 - 4 * a * c = Quadratic.discriminant a b c := by rw [Quadratic.discriminant, pow_two]
    rw [hsquare]
    simp only [List.forall_mem_cons, List.not_mem_nil, false_implies, implies_true, and_true]
    exact ⟨Quadratic.eval_roots_fst ha b s c, Quadratic.eval_roots_snd ha b s c⟩
  · rw [solveQuadratic, hcoefficients, ok_bind, ← Quadratic.collapse_roots ha]
    simp only [Quadratic.solve, hpair, ok_bind]
    rfl
  · intro hreal₁ hreal₂ hreal₃
    exact Quadratic.conjugate_roots hreal₁ hreal₂ hreal₃ hs

/-- The root of `-7` that is found is not exact. -/
theorem solveQuadratic_residual_inexact :
    (2 : Gaussian) ≠ 0 ∧ (Quadratic.discriminant 2 3 2).sqrt {} = .ok ⟨0, 20830 / 7873⟩ ∧
      ∃ x₁ x₂, solveQuadraticBoth {} [.gaussian 2, .gaussian 3, .gaussian 2] = .ok [x₁, x₂] ∧ x₁ + x₂ = -3 / 2 ∧
        (∀ x ∈ [x₁, x₂], 2 * x ^ 2 + 3 * x + 2 = (⟨0, 20830 / 7873⟩ ^ 2 - (3 ^ 2 - 4 * 2 * 2)) / (4 * 2)) ∧
        solveQuadratic {} [.gaussian 2, .gaussian 3, .gaussian 2] = .ok [x₁, x₂] ∧
        (x₁.im = 0 ∧ x₂.im = 0 ∨ x₂ = x₁.conjugate) := by
  have hroot : (Quadratic.discriminant 2 3 2).sqrt {} = .ok ⟨0, 20830 / 7873⟩ := by decide +kernel
  have hne : (⟨0, 20830 / 7873⟩ : Gaussian) ≠ 0 := by simp [Gaussian.ext_iff]
  obtain ⟨x₁, x₂, hboth, hsum, hvalue, hdifferent, hreal⟩ := solveQuadratic_residual two_ne_zero hroot
  rw [if_neg hne] at hdifferent
  exact ⟨two_ne_zero, hroot, x₁, x₂, hboth, hsum, hvalue, hdifferent, hreal rfl rfl rfl⟩

end Surd
