import Mathlib
import Surd.Polynomial.Solve
import Surd.Proofs.Computation
import Surd.Proofs.Polynomial.Quadratic

/-!
# Exact roots of quartics

An exact root of the resolvent cubic splits the depressed quartic into two quadratics (`eval_split`).
Where the square roots that the solution takes are exact as well, its four values are all the roots of
the quartic, each as often as it is one: `solveQuartic_factors`.
-/

namespace Surd

open Polynomial (X C)

/-- The square root of `z` is found, and it is exact. -/
def Gaussian.HasRoot (cfg : Settings) (z w : Gaussian) : Prop := z.sqrt cfg = .ok w ∧ w * w = z

namespace Quadratic

theorem eval_roots {b c s : Gaussian} (hs : s * s = discriminant 1 b c) (y : Gaussian) :
    (y - (roots 1 b s).1) * (y - (roots 1 b s).2) = y ^ 2 + b * y + c := by
  rw [discriminant] at hs
  simp only [roots, Gaussian.quotient_eq_div]
  field_simp
  linear_combination -hs

theorem solveBoth_of_hasRoot {cfg : Settings} {b c s : Gaussian} (h : (discriminant 1 b c).HasRoot cfg s) :
    solveBoth cfg 1 b c = .ok [(roots 1 b s).1, (roots 1 b s).2] := by
  rw [solveBoth, pair, h.1]
  rfl

end Quadratic

namespace Quartic

namespace Depressed

variable (t : Depressed)

/-- The value of the depressed quartic. -/
def eval (y : Gaussian) : Gaussian := y ^ 4 + t.p * y ^ 2 + t.q * y + t.r

/-- The value of the resolvent cubic. -/
def evalResolvent (m : Gaussian) : Gaussian := m ^ 3 + 2 * t.p * m ^ 2 + (t.p ^ 2 - 4 * t.r) * m - t.q ^ 2

/-- Zero is only taken for a root of the resolvent where the depressed quartic is `y⁴`. -/
def Splits (m : Gaussian) : Prop := m ≠ 0 ∨ t.p = 0 ∧ t.q = 0 ∧ t.r = 0

variable {t}

theorem eval_split {m s : Gaussian} (hm : t.evalResolvent m = 0) (hs : s * s = m) (h : t.Splits m) (y : Gaussian) :
    t.eval y = (y ^ 2 + s * y + (t.split m s).1) * (y ^ 2 + -s * y + (t.split m s).2) := by
  subst hs
  rw [evalResolvent] at hm
  by_cases hzero : s = 0
  · subst hzero
    obtain ⟨hp, hq, hr⟩ := h.resolve_left (by simp)
    simp [eval, split, Gaussian.isZero_iff, Gaussian.quotient_eq_div, hp, hq, hr]
    ring
  · have hfalse : s.isZero = false := by simpa using mt Gaussian.isZero_iff.mp hzero
    simp only [eval, split, hfalse, Bool.false_eq_true, if_false, Gaussian.quotient_eq_div]
    field_simp
    linear_combination -hm

end Depressed

/-- The substitution takes the third power away. -/
theorem depressed_eq {K : Type*} [Field K] [CharZero K] {a : K} (ha : a ≠ 0) (b c d e x : K) :
    a * ((x + b / (4 * a)) ^ 4 + (8 * a * c - 3 * (b * b)) / (8 * (a * a)) * (x + b / (4 * a)) ^ 2
      + (b * b * b - 4 * a * b * c + 8 * (a * a) * d) / (8 * (a * a * a)) * (x + b / (4 * a))
      + (-3 * (b * b) * (b * b) + 256 * (a * a * a) * e - 64 * (a * a) * b * d + 16 * a * (b * b) * c)
        / (256 * (a * a * a * a))) = a * x ^ 4 + b * x ^ 3 + c * x ^ 2 + d * x + e := by
  field_simp
  ring

theorem eval_depress {a : Gaussian} (ha : a ≠ 0) (b c d e x : Gaussian) :
    a * (depress a b c d e).eval (x + (depress a b c d e).shift) = a * x ^ 4 + b * x ^ 3 + c * x ^ 2 + d * x + e :=
  depressed_eq ha b c d e x

end Quartic

theorem quarticCoefficients_gaussians (cfg : Settings) {a : Gaussian} (ha : a ≠ 0) (b c d e : Gaussian) :
    quarticCoefficients cfg [.gaussian a, .gaussian b, .gaussian c, .gaussian d, .gaussian e] =
      .ok (a, b, c, d, e) := by
  have hnonzero : nonzero .quartic a = .ok () := if_neg (mt Gaussian.isZero_iff.mp ha)
  simp only [quarticCoefficients, Number.toGaussian, bind, Except.bind, pure, Except.pure, hnonzero]

theorem solveQuartic_gaussians (cfg : Settings) {a : Gaussian} (ha : a ≠ 0) (b c d e : Gaussian) :
    solveQuartic cfg [.gaussian a, .gaussian b, .gaussian c, .gaussian d, .gaussian e] =
      Quartic.solve cfg a b c d e := by
  rw [solveQuartic, quarticCoefficients_gaussians cfg ha, ok_bind]

/-- Over an infinite field, equal values are equal coefficients. -/
theorem quartic_eq_of_eval {K : Type*} [Field K] [Infinite K] {a b c d e y₁ y₂ y₃ y₄ : K}
    (h : ∀ x, a * ((x - y₁) * (x - y₂) * (x - y₃) * (x - y₄)) = a * x ^ 4 + b * x ^ 3 + c * x ^ 2 + d * x + e) :
    C a * ((X - C y₁) * (X - C y₂) * (X - C y₃) * (X - C y₄)) =
      C a * X ^ 4 + C b * X ^ 3 + C c * X ^ 2 + C d * X + C e := by
  refine Polynomial.funext fun x => ?_
  simpa only [Polynomial.eval_add, Polynomial.eval_sub, Polynomial.eval_mul, Polynomial.eval_pow, Polynomial.eval_X,
    Polynomial.eval_C] using h x

namespace Quartic.Depressed

variable {cfg : Settings} {t : Depressed} {m s u v : Gaussian}

/-- The roots of the two quadratics, moved back. -/
theorem roots_of_hasRoot (hs : m.HasRoot cfg s) (hu : (Quadratic.discriminant 1 s (t.split m s).1).HasRoot cfg u)
    (hv : (Quadratic.discriminant 1 (-s) (t.split m s).2).HasRoot cfg v) :
    t.roots cfg m = .ok [(Quadratic.roots 1 s u).1 - t.shift, (Quadratic.roots 1 s u).2 - t.shift,
      (Quadratic.roots 1 (-s) v).1 - t.shift, (Quadratic.roots 1 (-s) v).2 - t.shift] := by
  rw [roots, hs.1]
  simp only [bind, Except.bind, Quadratic.solveBoth_of_hasRoot hu, Quadratic.solveBoth_of_hasRoot hv]
  rfl

theorem eval_roots (hm : t.evalResolvent m = 0) (hsplits : t.Splits m) (hs : s * s = m)
    (hu : u * u = Quadratic.discriminant 1 s (t.split m s).1)
    (hv : v * v = Quadratic.discriminant 1 (-s) (t.split m s).2) (y : Gaussian) :
    (y - (Quadratic.roots 1 s u).1) * (y - (Quadratic.roots 1 s u).2) *
      (y - (Quadratic.roots 1 (-s) v).1) * (y - (Quadratic.roots 1 (-s) v).2) = t.eval y := by
  rw [eval_split hm hs hsplits, mul_assoc, Quadratic.eval_roots hu, Quadratic.eval_roots hv]

end Quartic.Depressed

/-- Where the root of the resolvent cubic and the three square roots are exact, the four values are the
roots of the quartic with their multiplicities. -/
theorem solveQuartic_factors {cfg : Settings} {a b c d e : Gaussian} (ha : a ≠ 0) {t : Quartic.Depressed}
    (ht : t = Quartic.depress a b c d e) {m s u v : Gaussian} (hpick : t.resolventRoot cfg = .ok m)
    (hm : t.evalResolvent m = 0) (hsplits : t.Splits m) (hs : m.HasRoot cfg s)
    (hu : (Quadratic.discriminant 1 s (t.split m s).1).HasRoot cfg u)
    (hv : (Quadratic.discriminant 1 (-s) (t.split m s).2).HasRoot cfg v) :
    ∃ y₁ y₂ y₃ y₄, solveQuartic cfg [.gaussian a, .gaussian b, .gaussian c, .gaussian d, .gaussian e] = .ok [y₁, y₂, y₃, y₄] ∧
      C a * ((X - C y₁) * (X - C y₂) * (X - C y₃) * (X - C y₄)) =
        C a * X ^ 4 + C b * X ^ 3 + C c * X ^ 2 + C d * X + C e := by
  have hsolve : Quartic.solve cfg a b c d e = t.roots cfg m := by
    subst ht
    rw [Quartic.solve, hpick, ok_bind]
  rw [solveQuartic_gaussians cfg ha, hsolve, Quartic.Depressed.roots_of_hasRoot hs hu hv]
  refine ⟨_, _, _, _, rfl, quartic_eq_of_eval fun x => ?_⟩
  have hback : ∀ y, x - (y - t.shift) = x + t.shift - y := fun y => by ring
  rw [hback, hback, hback, hback, Quartic.Depressed.eval_roots hm hsplits hs.2 hu.2 hv.2, ht, Quartic.eval_depress ha]

/-- The machine's functions, with third powers by multiplication and the cube root of 125. -/
def cubed : Settings :=
  { elementary := { Elementary.native with pow := fun x _ => x * x * x, cbrt := fun x => if x = 125 then 5 else x } }

/-- The depressed form of `16 x⁴ + 32 x³ - 120 x² - 200 x + 125`. -/
def sampleDepressed : Quartic.Depressed := ⟨-9, -4, 12, ⟨1 / 2, 0⟩⟩

theorem solveQuartic_sampleQuartic :
    (16 : Gaussian) ≠ 0 ∧ sampleDepressed = Quartic.depress 16 32 (-120) (-200) 125 ∧
      sampleDepressed.resolventRoot cubed = .ok 1 ∧ sampleDepressed.evalResolvent 1 = 0 ∧ sampleDepressed.Splits 1 ∧
      Gaussian.HasRoot cubed 1 1 ∧ (Quadratic.discriminant 1 1 (sampleDepressed.split 1 1).1).HasRoot cubed 3 ∧
      (Quadratic.discriminant 1 (-1) (sampleDepressed.split 1 1).2).HasRoot cubed 5 ∧
      ∃ y₁ y₂ y₃ y₄, solveQuartic cubed [.gaussian 16, .gaussian 32, .gaussian (-120), .gaussian (-200), .gaussian 125] =
          .ok [y₁, y₂, y₃, y₄] ∧
        C 16 * ((X - C y₁) * (X - C y₂) * (X - C y₃) * (X - C y₄)) =
          C 16 * X ^ 4 + C 32 * X ^ 3 + C (-120) * X ^ 2 + C (-200) * X + C 125 := by
  have hlead : (16 : Gaussian) ≠ 0 := by decide +kernel
  have ht : sampleDepressed = Quartic.depress 16 32 (-120) (-200) 125 := by decide +kernel
  have hpick : sampleDepressed.resolventRoot cubed = .ok 1 := by decide +kernel
  have hm : sampleDepressed.evalResolvent 1 = 0 := by decide +kernel
  have hsplits : sampleDepressed.Splits 1 := .inl one_ne_zero
  have hs : Gaussian.HasRoot cubed 1 1 := ⟨by decide +kernel, by decide +kernel⟩
  have hu : (Quadratic.discriminant 1 1 (sampleDepressed.split 1 1).1).HasRoot cubed 3 :=
    ⟨by decide +kernel, by decide +kernel⟩
  have hv : (Quadratic.discriminant 1 (-1) (sampleDepressed.split 1 1).2).HasRoot cubed 5 :=
    ⟨by decide +kernel, by decide +kernel⟩
  exact ⟨hlead, ht, hpick, hm, hsplits, hs, hu, hv, solveQuartic_factors hlead ht hpick hm hsplits hs hu hv⟩

end Surd
