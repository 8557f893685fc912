import Mathlib
import Surd.Gaussian
import Surd.Proofs.Computation
import Surd.Proofs.Gaussian.Field
import Surd.Proofs.Rational.SquareRoot

/-!
# Square roots of complex numbers

Whatever square root of doubles is used, the root of a complex number is the one in the right half plane,
on the side of the real axis where the number is, and it is missing only where a number is too large for
a double: `sqrt_principal`. The modulus of a square is a fraction, and so are the halves of its sum and its
difference with the real part, which are the squares of the parts of the root. If fractions for doubles
find all of them, then the root is exact: `sqrt_square`.
-/

namespace Surd.Gaussian

/-! ## Moduli -/

theorem modulusSquared_conjugate (z : Gaussian) : z.conjugate.modulusSquared = z.modulusSquared := by
  rw [modulusSquared, modulusSquared, conjugate_re, conjugate_im, neg_mul_neg]

theorem clamp_eq_max (x : ℚ) : clamp x = max x 0 := by
  unfold clamp
  split
  · exact (max_eq_left (by linarith)).symm
  · exact (max_eq_right (by linarith)).symm

theorem clamp_nonneg (x : ℚ) : 0 ≤ clamp x := (le_max_right x 0).trans_eq (clamp_eq_max x).symm

theorem clamp_of_nonneg {x : ℚ} (h : 0 ≤ x) : clamp x = x := (clamp_eq_max x).trans (max_eq_left h)

theorem abs_clamp_le (x : ℚ) : |clamp x| ≤ |x| := by
  rw [abs_of_nonneg (clamp_nonneg x), clamp_eq_max]
  exact max_le (le_abs_self x) (abs_nonneg x)

/-! ## Range -/

/-- The number that has to be within the range of doubles for a square root. -/
def radicand (z : Gaussian) : ℚ := if z.im = 0 then |z.re| else z.modulusSquared

/-- If the square of a modulus is in range, then the real part is well within it. -/
theorem abs_re_le {z : Gaussian} (h : (Binary64.ofRat z.modulusSquared).isFinite = true) :
    |z.re| ≤ Binary64.largest - 1 := by
  have hlarge : 4 ≤ Binary64.largest := by decide +kernel
  have hsquare := Binary64.abs_le_of_isFinite_ofRat h
  have him := mul_self_nonneg z.im
  rw [abs_of_nonneg z.modulusSquared_nonneg, modulusSquared] at hsquare
  refine abs_le_of_sq_le_sq ?_ (by linarith)
  nlinarith

theorem isFinite_clamp_half {m x : ℚ} (hm : 0 ≤ m) (hle : m ≤ Binary64.largest + 1) (hx : |x| ≤ Binary64.largest - 1) :
    (Binary64.ofRat (clamp ((m + x) / 2))).isFinite = true := by
  refine Binary64.isFinite_ofRat_of_le ((abs_clamp_le _).trans ?_)
  rw [abs_le] at hx ⊢
  constructor <;> linarith

/-! ## The principal root -/

/-- A root in the right half plane that is not on the other side of the real axis. The roots of real
numbers are on the axes. -/
structure IsPrincipal (z w : Gaussian) : Prop where
  re_nonneg : 0 ≤ w.re
  im_sign : z.im ≠ 0 → w.im = 0 ∨ SignType.sign w.im = SignType.sign z.im
  im_eq_zero : z.im = 0 → 0 ≤ z.re → w.im = 0
  re_eq_zero : z.im = 0 → z.re < 0 → w.re = 0
  im_nonneg : z.im = 0 → z.re < 0 → 0 ≤ w.im

theorem isPrincipal_signed {z : Gaussian} (hz : z.im ≠ 0) {x y : ℚ} (hx : 0 ≤ x) (hy : 0 ≤ y) :
    IsPrincipal z ⟨x, if z.im < 0 then -y else y⟩ where
  re_nonneg := hx
  im_sign _ := by
    rcases hy.eq_or_lt with rfl | hpos
    · left
      rw [neg_zero, ite_self]
    · right
      rcases lt_or_gt_of_ne hz with hneg | hpos'
      · rw [if_pos hneg, sign_neg hneg, sign_neg (neg_neg_of_pos hpos)]
      · rw [if_neg hpos'.not_gt, sign_pos hpos, sign_pos hpos']
  im_eq_zero h := absurd h hz
  re_eq_zero h := absurd h hz
  im_nonneg h := absurd h hz

variable {cfg : Settings}

theorem sqrt_outcome (hf : cfg.elementary.SqrtNonneg) (z : Gaussian) :
    SqrtOutcome cfg ((Binary64.ofRat z.radicand).isFinite = true) (IsPrincipal z) (z.sqrt cfg) := by
  unfold sqrt radicand
  by_cases hreal : z.im = 0
  · rw [if_pos hreal, if_pos hreal]
    by_cases hsign : 0 ≤ z.re
    · rw [if_pos hsign, abs_of_nonneg hsign]
      refine (Rational.sqrt_outcome hf hsign).bind fun hrange x hx => .root hrange ?_
      exact ⟨hx.1, absurd hreal, fun _ _ => rfl, fun _ hneg => absurd hsign hneg.not_ge, fun _ _ => le_rfl⟩
    · rw [if_neg hsign, abs_of_neg (not_le.mp hsign)]
      refine (Rational.sqrt_outcome hf (neg_nonneg.mpr (not_le.mp hsign).le)).bind fun hrange y hy => .root hrange ?_
      exact ⟨le_rfl, absurd hreal, fun _ hnonneg => absurd hnonneg hsign, fun _ _ => rfl, fun _ _ => hy.1⟩
  · rw [if_neg hreal, if_neg hreal]
    refine (Rational.sqrt_outcome hf z.modulusSquared_nonneg).bind fun hrange m hm => ?_
    -- a modulus whose square has a double leaves room for the halves, so they have one as well
    have hre := abs_re_le hrange
    have hplus := isFinite_clamp_half hm.1 hm.2 hre
    have hminus := isFinite_clamp_half hm.1 hm.2 ((abs_neg z.re).trans_le hre)
    rw [← sub_eq_add_neg] at hminus
    refine ((Rational.sqrt_outcome hf (clamp_nonneg _)).of_inRange hplus hrange).bind fun _ x hx => ?_
    refine ((Rational.sqrt_outcome hf (clamp_nonneg _)).of_inRange hminus hrange).bind fun _ y hy => ?_
    exact .root hrange (isPrincipal_signed hreal hx.1 hy.1)

theorem sqrt_conjugate (cfg : Settings) {z : Gaussian} (hz : z.im ≠ 0) :
    z.conjugate.sqrt cfg = (z.sqrt cfg).map conjugate := by
  have habs : z.conjugate.abs cfg = z.abs cfg := by rw [abs, abs, modulusSquared_conjugate]
  -- the same three roots are taken, and only the sign that is given last differs
  change _ = conjugate <$> z.sqrt cfg
  unfold sqrt
  rw [if_neg hz, conjugate_im, if_neg (neg_ne_zero.mpr hz), habs]
  simp only [map_bind, map_pure]
  refine bind_congr fun m => bind_congr fun x => bind_congr fun y => congrArg pure ?_
  rcases lt_or_gt_of_ne hz with hneg | hpos
  · rw [if_neg (neg_pos.mpr hneg).not_gt, if_pos hneg]
    exact Gaussian.ext rfl (neg_neg y).symm
  · rw [if_pos (neg_neg_of_pos hpos), if_neg hpos.not_gt]
    rfl

/-- The square root of a complex number is the principal one, of which there is none only if the number is
too large for a double, or if there are no fractions for doubles. Conjugates have conjugate roots. -/
theorem sqrt_principal (cfg : Settings) (hf : cfg.elementary.SqrtNonneg) (z : Gaussian) :
    SqrtOutcome cfg ((Binary64.ofRat z.radicand).isFinite = true) (IsPrincipal z) (z.sqrt cfg) ∧
      (z.im ≠ 0 → z.conjugate.sqrt cfg = (z.sqrt cfg).map conjugate) :=
  ⟨sqrt_outcome hf z, sqrt_conjugate cfg⟩

theorem sqrt_principal_thirdQuadrant :
    Elementary.native.SqrtNonneg ∧ ∃ w, sqrt {} ⟨-3, -1⟩ = .ok w ∧ IsPrincipal ⟨-3, -1⟩ w ∧ sqrt {} ⟨-3, 1⟩ = .ok w.conjugate := by
  have hroot : sqrt {} ⟨-3, -1⟩ = .ok ⟨47 / 165, -10151 / 5783⟩ := by decide +kernel
  obtain ⟨houtcome, hconjugate⟩ := sqrt_principal {} Elementary.native_sqrtAccurate.sqrtNonneg ⟨-3, -1⟩
  rw [hroot] at houtcome hconjugate
  obtain ⟨-, hprincipal⟩ := houtcome
  exact ⟨Elementary.native_sqrtAccurate.sqrtNonneg, _, hroot, hprincipal, hconjugate (by decide)⟩

/-! ## Roots of squares -/

theorem abs_le_of_mul_self_le {x : ℚ} (h : x * x ≤ 10 ^ 7) : |x| ≤ 10 ^ 7 := by
  refine abs_le_of_sq_le_sq ?_ (by norm_num)
  rw [pow_two]
  exact h.trans (by norm_num)

theorem abs_re_le_of_modulusSquared_le {z : Gaussian} (h : z.modulusSquared ≤ 10 ^ 7) : |z.re| ≤ 10 ^ 7 :=
  abs_le_of_mul_self_le ((le_add_of_nonneg_right (mul_self_nonneg z.im)).trans h)

theorem abs_im_le_of_modulusSquared_le {z : Gaussian} (h : z.modulusSquared ≤ 10 ^ 7) : |z.im| ≤ 10 ^ 7 :=
  abs_le_of_mul_self_le ((le_add_of_nonneg_left (mul_self_nonneg z.re)).trans h)

section
variable {f : Elementary} (hf : f.SqrtAccurate)
include hf

section
variable {s : ℚ} (hs : 0 ≤ s) (hle : s ≤ 10 ^ 7) (hden : s.den ≤ 10000)
include hs hle hden

theorem sqrt_mul_self : sqrt { elementary := f } (.ofRat (s * s)) = .ok (.ofRat s) := by
  rw [sqrt, if_pos (ofRat_im _), ofRat_re, if_pos (mul_self_nonneg s), Rational.sqrt_mul_self hf hs hle hden]
  rfl

theorem sqrt_neg_mul_self : sqrt { elementary := f } (.ofRat (-(s * s))) = .ok (.ofRat s * .I) := by
  have hvalue : ofRat s * .I = ⟨0, s⟩ := by ext <;> simp
  by_cases hzero : s = 0
  · subst hzero
    have hsqrt := sqrt_mul_self hf hs hle hden
    rw [mul_zero] at hsqrt
    rw [hvalue, mul_zero, neg_zero, hsqrt]
    rfl
  · have hneg : ¬(0 : ℚ) ≤ -(s * s) := by
      have hpos := mul_self_pos.mpr hzero
      linarith
    rw [hvalue, sqrt, if_pos (ofRat_im _), ofRat_re, if_neg hneg, neg_neg, Rational.sqrt_mul_self hf hs hle hden]
    rfl

end

section
variable {w : Gaussian} (hle : w.modulusSquared ≤ 10 ^ 7) (hden : w.modulusSquared.den ≤ 10000)
include hle hden

theorem abs_mul_self : abs { elementary := f } (w * w) = .ok w.modulusSquared := by
  rw [abs, modulusSquared_mul]
  exact Rational.sqrt_mul_self hf w.modulusSquared_nonneg hle hden

variable (hreDen : w.re.den ≤ 10000) (himDen : w.im.den ≤ 10000)
include hreDen himDen

theorem sqrt_mul_self_of_im_ne_zero (hre : 0 < w.re) (him : w.im ≠ 0) : sqrt { elementary := f } (w * w) = .ok w := by
  have hplus : (w.modulusSquared + (w * w).re) / 2 = w.re * w.re := by
    rw [modulusSquared, mul_re]
    ring
  have hminus : (w.modulusSquared - (w * w).re) / 2 = |w.im| * |w.im| := by
    rw [abs_mul_abs_self, modulusSquared, mul_re]
    ring
  have himag : (w * w).im = 2 * w.re * w.im := by
    rw [mul_im]
    ring
  have hdouble : 0 < 2 * w.re := mul_pos two_pos hre
  have hsign : 2 * w.re * w.im < 0 ↔ w.im < 0 := smul_neg_iff_of_pos_left hdouble
  have hne : (w * w).im ≠ 0 := himag ▸ mul_ne_zero hdouble.ne' him
  have hx := Rational.sqrt_mul_self hf hre.le ((le_abs_self _).trans (abs_re_le_of_modulusSquared_le hle)) hreDen
  have hy := Rational.sqrt_mul_self hf (abs_nonneg w.im) (abs_im_le_of_modulusSquared_le hle)
    (by rwa [Rat.den_abs_eq_den])
  rw [sqrt, if_neg hne, abs_mul_self hf hle hden, ok_bind, hplus, hminus, clamp_of_nonneg (mul_self_nonneg _),
    clamp_of_nonneg (mul_self_nonneg _), hx, ok_bind, hy, ok_bind, himag]
  refine congrArg Except.ok (Gaussian.ext rfl ?_)
  simp only [hsign]
  split
  · rw [abs_of_neg ‹_›, neg_neg]
  · exact abs_of_nonneg (not_lt.mp ‹_›)

theorem sqrt_mul_self_of_principal (hw : 0 < w.re ∨ w.re = 0 ∧ 0 ≤ w.im) :
    sqrt { elementary := f } (w * w) = .ok w := by
  by_cases him : w.im = 0
  · have hsquare : w * w = .ofRat (w.re * w.re) := by ext <;> simp [him]
    have hnonneg : 0 ≤ w.re := hw.elim le_of_lt fun h => h.1.ge
    rw [hsquare, sqrt_mul_self hf hnonneg ((le_abs_self _).trans (abs_re_le_of_modulusSquared_le hle)) hreDen]
    exact congrArg Except.ok (Gaussian.ext rfl him.symm)
  · rcases hw with hre | ⟨hre, hnonneg⟩
    · exact sqrt_mul_self_of_im_ne_zero hf hle hden hreDen himDen hre him
    · have hsquare : w * w = .ofRat (-(w.im * w.im)) := by ext <;> simp [hre]
      rw [hsquare, sqrt_neg_mul_self hf hnonneg ((le_abs_self _).trans (abs_im_le_of_modulusSquared_le hle)) himDen]
      refine congrArg Except.ok (Gaussian.ext ?_ ?_) <;> simp [hre]

end

/-- The square root of the square of a Gaussian fraction with small parts is that fraction, if it is in the
right half plane, or on the upper half of the imaginary axis. -/
theorem sqrt_square {p r : ℤ} {q : ℕ} (hq : 1 ≤ q) (hq' : q ≤ 100) (hp : |(p : ℚ) / q| ≤ 1000) (hr : |(r : ℚ) / q| ≤ 1000)
    (hw : 0 < p ∨ p = 0 ∧ 0 ≤ r) :
    sqrt { elementary := f } (⟨p / q, r / q⟩ * ⟨p / q, r / q⟩) = .ok ⟨p / q, r / q⟩ := by
  have hqpos : (0 : ℚ) < q := by exact_mod_cast hq
  have hmodulus : (⟨p / q, r / q⟩ : Gaussian).modulusSquared = ((p * p + r * r : ℤ) : ℚ) / (q * q : ℕ) := by
    rw [modulusSquared]
    push_cast
    field_simp
  have hsquare : ∀ {x : ℚ}, |x| ≤ 1000 → x * x ≤ 1000 * 1000 := by
    intro x hx
    rw [← abs_mul_abs_self]
    exact mul_self_le_mul_self (abs_nonneg x) hx
  have hden : ∀ (n : ℤ) {k : ℕ}, 1 ≤ k → ((n : ℚ) / k).den ≤ k := by
    intro n k hk
    rw [← Rat.mkRat_eq_div]
    exact Convergents.den_mkRat_le n hk
  apply sqrt_mul_self_of_principal hf
  · calc (p : ℚ) / q * (p / q) + r / q * (r / q) ≤ 1000 * 1000 + 1000 * 1000 := add_le_add (hsquare hp) (hsquare hr)
      _ ≤ 10 ^ 7 := by norm_num
  · rw [hmodulus]
    exact (hden _ (Nat.mul_pos hq hq)).trans (Nat.mul_le_mul hq' hq')
  · exact (hden p hq).trans (hq'.trans (by norm_num))
  · exact (hden r hq).trans (hq'.trans (by norm_num))
  · rcases hw with hpos | ⟨rfl, hnonneg⟩
    · left
      exact div_pos (by exact_mod_cast hpos) hqpos
    · right
      exact ⟨by simp, div_nonneg (by exact_mod_cast hnonneg) hqpos.le⟩

end

theorem sqrt_square_fourthQuadrant :
    Elementary.native.SqrtAccurate ∧ (1 ≤ 7 ∧ 7 ≤ 100) ∧ |((30 : ℤ) : ℚ) / (7 : ℕ)| ≤ 1000 ∧ |((-22 : ℤ) : ℚ) / (7 : ℕ)| ≤ 1000 ∧
      (0 : ℤ) < 30 ∧ sqrt {} ⟨416 / 49, -1320 / 49⟩ = .ok ⟨30 / 7, -22 / 7⟩ := by
  have hp : |((30 : ℤ) : ℚ) / (7 : ℕ)| ≤ 1000 := by norm_num [abs_le]
  have hr : |((-22 : ℤ) : ℚ) / (7 : ℕ)| ≤ 1000 := by norm_num [abs_le]
  have hroot := sqrt_square Elementary.native_sqrtAccurate (by decide) (by decide) hp hr (.inl (by decide))
  have hsquare : (⟨30 / 7, -22 / 7⟩ * ⟨30 / 7, -22 / 7⟩ : Gaussian) = ⟨416 / 49, -1320 / 49⟩ := by ext <;> norm_num
  push_cast at hroot
  rw [hsquare] at hroot
  exact ⟨Elementary.native_sqrtAccurate, by decide, hp, hr, by decide, hroot⟩

end Surd.Gaussian
