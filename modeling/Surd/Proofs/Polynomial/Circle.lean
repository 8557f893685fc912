import Mathlib
import Surd.Polynomial.Simultaneous
import Surd.Proofs.Computation
import Surd.Proofs.Gaussian.Field

/-!
# The circle of the first estimates

The estimates start on a circle whose radius is one more than the largest real part of the normalized
coefficients. It encloses all roots if the moduli of the coefficients are small enough for it (`Dominated`), and
they are if none is larger than that real part: `roots_enclosed`. Coefficients with a larger imaginary part may put
a root outside (`dominated_iff`, `root_outside`).
-/

namespace Surd

/-! ## Moduli -/

/-- Complex numbers with rational parts among all complex numbers. -/
noncomputable def Gaussian.toComplex : Gaussian →+* ℂ where
  toFun z := ⟨z.re, z.im⟩
  map_zero' := by simp [Complex.ext_iff]
  map_one' := by simp [Complex.ext_iff]
  map_add' z w := by simp [Complex.ext_iff]
  map_mul' z w := by simp [Complex.ext_iff]

noncomputable def Gaussian.modulus (z : Gaussian) : ℝ := √(z.modulusSquared : ℝ)

theorem Gaussian.norm_toComplex (z : Gaussian) : ‖toComplex z‖ = z.modulus := by
  rw [Complex.norm_def, Complex.normSq_apply, modulus, modulusSquared]
  push_cast
  rfl

theorem Gaussian.modulus_sq (z : Gaussian) : z.modulus ^ 2 = z.modulusSquared :=
  Real.sq_sqrt (by exact_mod_cast z.modulusSquared_nonneg)

namespace Sweep

/-! ## Values of polynomials -/

section
variable {K : Type} [CommRing K] (z : K)

theorem horner_cons (c : K) (cs : List K) : horner (c :: cs) z = c * z ^ cs.length + horner cs z := by
  have hfold : ∀ (cs : List K) (y : K), cs.foldl (fun y c => y * z + c) y = y * z ^ cs.length + horner cs z := by
    intro cs
    induction cs with
    | nil => simp [horner]
    | cons c cs ih =>
      intro y
      have hcons : horner (c :: cs) z = (0 * z + c) * z ^ cs.length + horner cs z := ih _
      rw [List.foldl_cons, ih, hcons, List.length_cons, pow_succ]
      ring
  rw [horner, List.foldl_cons, hfold, zero_mul, zero_add]

@[simp] theorem horner_nil : horner [] z = 0 := rfl

theorem horner_mul (a : K) (cs : List K) : horner (cs.map (· * a)) z = horner cs z * a := by
  induction cs with
  | nil => simp
  | cons c cs ih =>
    rw [List.map_cons, horner_cons, horner_cons, ih, List.length_map]
    ring

theorem map_horner {L : Type} [CommRing L] (f : K →+* L) (cs : List K) :
    f (horner cs z) = horner (cs.map f) (f z) := by
  induction cs with
  | nil => simp
  | cons c cs ih => simp [horner_cons, ih]

end

theorem norm_horner_le (cs : List ℂ) (z : ℂ) : ‖horner cs z‖ ≤ horner (cs.map (‖·‖)) ‖z‖ := by
  induction cs with
  | nil => simp
  | cons c cs ih =>
    rw [List.map_cons, horner_cons, horner_cons, List.length_map]
    have hnorm := norm_add_le (c * z ^ cs.length) (horner cs z)
    rw [norm_mul, norm_pow] at hnorm
    linarith

section
variable {ms : List ℝ} (hms : ∀ m ∈ ms, 0 ≤ m)
include hms

theorem horner_nonneg {t : ℝ} (ht : 0 ≤ t) : 0 ≤ horner ms t := by
  induction ms with
  | nil => simp
  | cons m ms ih =>
    rw [horner_cons]
    have hm := hms m (by simp)
    have hrest := ih fun c hc => hms c (by simp [hc])
    positivity

/-- Against the next power, the value falls as the argument grows. -/
theorem horner_ratio {r t : ℝ} (hr : 0 ≤ r) (hle : r ≤ t) :
    horner ms t * t * r ^ ms.length ≤ horner ms r * r * t ^ ms.length := by
  induction ms with
  | nil => simp
  | cons m ms ih =>
    have hrest : ∀ c ∈ ms, 0 ≤ c := fun c hc => hms c (by simp [hc])
    have hnonneg := horner_nonneg hrest hr
    have ht : 0 ≤ t := hr.trans hle
    have hstep := mul_le_mul_of_nonneg_left (ih hrest) hr
    rw [horner_cons, horner_cons, List.length_cons]
    calc (m * t ^ ms.length + horner ms t) * t * r ^ (ms.length + 1)
        = m * (t * r) ^ (ms.length + 1) + r * (horner ms t * t * r ^ ms.length) := by ring
      _ ≤ m * (t * r) ^ (ms.length + 1) + r * (horner ms r * r * t ^ ms.length) := by linarith
      _ ≤ m * (t * r) ^ (ms.length + 1) + t * (horner ms r * r * t ^ ms.length) := by gcongr
      _ = (m * r ^ ms.length + horner ms r) * r * t ^ (ms.length + 1) := by ring

/-- A power that the value reaches at `t` and not before `r` is reached up to `r` only. -/
theorem le_of_horner_le {r t : ℝ} (hr : 0 < r) (hat : horner ms r ≤ r ^ ms.length)
    (hreach : t ^ ms.length ≤ horner ms t) : t ≤ r := by
  by_contra hlt
  rw [not_le] at hlt
  have ht : 0 < t := hr.trans hlt
  have hratio := horner_ratio hms hr.le hlt.le
  have hle : t ^ ms.length * t * r ^ ms.length ≤ r ^ ms.length * r * t ^ ms.length := by
    calc t ^ ms.length * t * r ^ ms.length ≤ horner ms t * t * r ^ ms.length := by gcongr
      _ ≤ horner ms r * r * t ^ ms.length := hratio
      _ ≤ r ^ ms.length * r * t ^ ms.length := by gcongr
  have hpos : 0 < t ^ ms.length * r ^ ms.length := by positivity
  have hcancel : (t ^ ms.length * r ^ ms.length) * t ≤ (t ^ ms.length * r ^ ms.length) * r := by linarith
  exact absurd (le_of_mul_le_mul_left hcancel hpos) (not_le.mpr hlt)

end

/-- One more than a bound of the coefficients is large enough. -/
theorem horner_one_add_le {ms : List ℝ} {b : ℝ} (hb : 0 ≤ b) (hms : ∀ m ∈ ms, m ≤ b) :
    horner ms (1 + b) ≤ (1 + b) ^ ms.length - 1 := by
  induction ms with
  | nil => simp
  | cons m ms ih =>
    have hrest := ih fun c hc => hms c (by simp [hc])
    have hm := hms m (by simp)
    rw [horner_cons, List.length_cons, pow_succ]
    have hpow : m * (1 + b) ^ ms.length ≤ b * (1 + b) ^ ms.length := by gcongr
    linarith

theorem continuous_horner (ms : List ℝ) : Continuous fun t : ℝ => horner ms t := by
  induction ms with
  | nil => exact continuous_const
  | cons m ms ih =>
    simp only [horner_cons]
    exact (continuous_const.mul (continuous_id.pow _)).add ih

/-- If the value is above the power at `r`, then they meet beyond. -/
theorem exists_pow_eq_horner {ms : List ℝ} {r : ℝ} (hr : 0 ≤ r) (hms : ∀ m ∈ ms, 0 ≤ m)
    (habove : r ^ ms.length < horner ms r) : ∃ t, r < t ∧ t ^ ms.length = horner ms t := by
  have hsum : ∀ m ∈ ms, m ≤ r + ms.sum := by
    intro m hm
    have hle := List.single_le_sum hms m hm
    linarith
  have hbound : 0 ≤ r + ms.sum := add_nonneg hr (List.sum_nonneg hms)
  have hbelow := horner_one_add_le hbound hsum
  have hfar : r ≤ 1 + (r + ms.sum) := by
    have hnonneg := List.sum_nonneg hms
    linarith
  have hcontinuous : Continuous fun t : ℝ => t ^ ms.length - horner ms t :=
    (continuous_id.pow _).sub (continuous_horner ms)
  obtain ⟨t, ht, hzero⟩ := intermediate_value_Icc hfar hcontinuous.continuousOn
    (show (0 : ℝ) ∈ Set.Icc _ _ from ⟨by linarith, by linarith⟩)
  have hmeet : t ^ ms.length = horner ms t := sub_eq_zero.mp hzero
  refine ⟨t, lt_of_le_of_ne ht.1 ?_, hmeet⟩
  rintro rfl
  exact habove.ne hmeet

/-- The power is at least the value at `r` iff no polynomial whose coefficients have these moduli has a root
outside the circle of radius `r`. -/
theorem horner_le_pow_iff {ms : List ℝ} (hms : ∀ m ∈ ms, 0 ≤ m) {r : ℝ} (hr : 0 < r) :
    horner ms r ≤ r ^ ms.length ↔
      ∀ ws : List ℂ, ws.map (‖·‖) = ms → ∀ z : ℂ, z ^ ws.length + horner ws z = 0 → ‖z‖ ≤ r := by
  constructor
  · intro hat ws hws z hz
    have hreach : ‖z‖ ^ ms.length ≤ horner ms ‖z‖ := by
      rw [← hws, List.length_map, ← norm_pow, eq_neg_of_add_eq_zero_left hz, norm_neg]
      exact norm_horner_le ws z
    exact le_of_horner_le hms hr hat hreach
  · intro henclosed
    by_contra hnot
    rw [not_le] at hnot
    obtain ⟨t, hlt, hmeet⟩ := exists_pow_eq_horner hr.le hms hnot
    -- the other terms are all taken with the sign opposite to the first one
    have hmoduli : ((ms.map Complex.ofRealHom).map (· * (-1))).map (‖·‖) = ms := by
      rw [List.map_map, List.map_map]
      refine (List.map_congr_left fun m hm => ?_).trans (List.map_id ms)
      simp [abs_of_nonneg (hms m hm)]
    have hroot : (t : ℂ) ^ ((ms.map Complex.ofRealHom).map (· * (-1))).length +
        horner ((ms.map Complex.ofRealHom).map (· * (-1))) (t : ℂ) = 0 := by
      have hvalue : ((horner ms t : ℝ) : ℂ) = horner (ms.map Complex.ofRealHom) (t : ℂ) :=
        map_horner t Complex.ofRealHom ms
      rw [horner_mul, ← hvalue, ← hmeet, List.length_map, List.length_map, Complex.ofReal_pow]
      ring
    have hle := henclosed _ hmoduli t hroot
    rw [Complex.norm_real, Real.norm_eq_abs, abs_of_pos (hr.trans hlt)] at hle
    exact absurd hle (not_le.mpr hlt)

end Sweep

namespace Simultaneous

/-! ## The circle -/

/-- The radius of the circle of the first estimates, without rounding. -/
def circleRadius (coefficients : List Gaussian) : ℚ :=
  Sweep.radius (|·|) (((normalize coefficients).drop 1).map Gaussian.re)

/-- On the circle, the first power is at least as large as the moduli of all other terms together. -/
def Dominated (coefficients : List Gaussian) : Prop :=
  Sweep.horner (((normalize coefficients).drop 1).map Gaussian.modulus) (circleRadius coefficients : ℝ) ≤
    (circleRadius coefficients : ℝ) ^ ((normalize coefficients).drop 1).length

theorem one_le_circleRadius (cs : List Gaussian) : 1 ≤ circleRadius cs :=
  le_add_of_nonneg_right (le_foldl_max _ 0).1

theorem abs_re_le_circleRadius {cs : List Gaussian} {c : Gaussian} (h : c ∈ (normalize cs).drop 1) :
    |c.re| ≤ circleRadius cs - 1 := by
  have hmem : |c.re| ∈ (((normalize cs).drop 1).map Gaussian.re).map (|·|) :=
    List.mem_map_of_mem (List.mem_map_of_mem h)
  unfold circleRadius Sweep.radius
  rw [add_sub_cancel_left]
  exact (le_foldl_max _ 0).2 _ hmem

theorem normalize_eq (cs : List Gaussian) : normalize cs = cs.map (· * (cs.headD 0)⁻¹) := by
  simp only [normalize, Gaussian.quotient_eq_div, div_eq_mul_inv]

/-- At a root, the first power and the other terms of the normalized polynomial add up to zero. -/
theorem pow_add_horner {cs : List Gaussian} (hlead : cs.headD 0 ≠ 0) {z : Gaussian} (hz : Sweep.horner cs z = 0) :
    z ^ ((normalize cs).drop 1).length + Sweep.horner ((normalize cs).drop 1) z = 0 := by
  have hroot : Sweep.horner (normalize cs) z = 0 := by rw [normalize_eq, Sweep.horner_mul, hz, zero_mul]
  cases cs with
  | nil => exact absurd rfl hlead
  | cons a cs =>
    rw [List.headD_cons] at hlead
    rw [normalize_eq, List.headD_cons, List.map_cons, mul_inv_cancel₀ hlead] at hroot ⊢
    rwa [Sweep.horner_cons, one_mul] at hroot

/-- The other terms are small enough iff the circle encloses the roots of all polynomials whose coefficients have
these moduli. -/
theorem dominated_iff (cs : List Gaussian) :
    Dominated cs ↔ ∀ ws : List ℂ, ws.map (‖·‖) = ((normalize cs).drop 1).map Gaussian.modulus →
      ∀ z : ℂ, z ^ ws.length + Sweep.horner ws z = 0 → ‖z‖ ≤ circleRadius cs := by
  have hpos : (0 : ℝ) < circleRadius cs := by exact_mod_cast zero_lt_one.trans_le (one_le_circleRadius cs)
  have hmoduli : ∀ m ∈ ((normalize cs).drop 1).map Gaussian.modulus, 0 ≤ m := by
    intro m hm
    obtain ⟨c, _, rfl⟩ := List.mem_map.mp hm
    exact Real.sqrt_nonneg _
  unfold Dominated
  rw [← List.length_map Gaussian.modulus]
  exact Sweep.horner_le_pow_iff hmoduli hpos

theorem modulus_le_of_dominated {cs : List Gaussian} (hlead : cs.headD 0 ≠ 0) {z : Gaussian}
    (hz : Sweep.horner cs z = 0) (h : Dominated cs) : z.modulus ≤ circleRadius cs := by
  have hmoduli : (((normalize cs).drop 1).map Gaussian.toComplex).map (‖·‖) =
      ((normalize cs).drop 1).map Gaussian.modulus := by
    rw [List.map_map]
    exact List.map_congr_left fun c _ => c.norm_toComplex
  have hroot := congrArg Gaussian.toComplex (pow_add_horner hlead hz)
  rw [map_add, map_pow, map_zero, Sweep.map_horner, ← List.length_map Gaussian.toComplex] at hroot
  rw [← Gaussian.norm_toComplex]
  exact (dominated_iff cs).mp h _ hmoduli _ hroot

theorem dominated_of_modulusSquared_le {cs : List Gaussian}
    (h : ∀ c ∈ (normalize cs).drop 1, c.modulusSquared ≤ (circleRadius cs - 1) ^ 2) : Dominated cs := by
  have hb : (0 : ℝ) ≤ circleRadius cs - 1 := by
    rw [sub_nonneg]
    exact_mod_cast one_le_circleRadius cs
  have hmoduli : ∀ m ∈ ((normalize cs).drop 1).map Gaussian.modulus, m ≤ (circleRadius cs : ℝ) - 1 := by
    intro m hm
    obtain ⟨c, hc, rfl⟩ := List.mem_map.mp hm
    have hsquare : c.modulus ^ 2 ≤ ((circleRadius cs : ℝ) - 1) ^ 2 := by
      rw [Gaussian.modulus_sq]
      exact_mod_cast h c hc
    exact (sq_le_sq₀ (Real.sqrt_nonneg _) hb).mp hsquare
  have hle := Sweep.horner_one_add_le hb hmoduli
  rw [add_sub_cancel, List.length_map] at hle
  unfold Dominated
  linarith

theorem modulusSquared_le_of_real {cs : List Gaussian} {c : Gaussian} (hc : c ∈ (normalize cs).drop 1)
    (hreal : c.im = 0) : c.modulusSquared ≤ (circleRadius cs - 1) ^ 2 := by
  have hre := abs_re_le_circleRadius hc
  rw [Gaussian.modulusSquared, hreal, mul_zero, add_zero, ← pow_two, ← sq_abs]
  exact pow_le_pow_left₀ (abs_nonneg _) hre 2

/-- The circle encloses all roots if the first power outweighs the other terms on it, in particular if no normalized
coefficient that is not real has a larger modulus than the largest of the real parts. -/
theorem roots_enclosed {cs : List Gaussian} (hlead : cs.headD 0 ≠ 0) {z : Gaussian} (hz : Sweep.horner cs z = 0)
    (h : Dominated cs ∨
      ∀ c ∈ (normalize cs).drop 1, c.im ≠ 0 → c.modulusSquared ≤ (circleRadius cs - 1) ^ 2) :
    z.modulusSquared ≤ circleRadius cs ^ 2 := by
  have hdominated : Dominated cs := by
    rcases h with hdominated | hmoduli
    · exact hdominated
    · apply dominated_of_modulusSquared_le
      intro c hc
      by_cases hreal : c.im = 0
      · exact modulusSquared_le_of_real hc hreal
      · exact hmoduli c hc hreal
  have hle := modulus_le_of_dominated hlead hz hdominated
  have hsquare : z.modulus ^ 2 ≤ (circleRadius cs : ℝ) ^ 2 := pow_le_pow_left₀ (Real.sqrt_nonneg _) hle 2
  rw [Gaussian.modulus_sq] at hsquare
  exact_mod_cast hsquare

/-- The polynomial with the roots `1` and `2 + i`. -/
def gaussianPair : List Gaussian := [1, ⟨-3, -1⟩, ⟨2, 1⟩]

/-- The polynomial with the roots `1` and `2`. -/
def realPair : List Gaussian := [1, ⟨-3, 0⟩, ⟨2, 0⟩]

theorem dominated_gaussianPair : Dominated gaussianPair := by
  have hradius : circleRadius gaussianPair = 4 := by decide +kernel
  have hothers : (normalize gaussianPair).drop 1 = [⟨-3, -1⟩, ⟨2, 1⟩] := by decide +kernel
  have hten : Gaussian.modulus ⟨-3, -1⟩ ≤ 3.2 := by
    rw [Gaussian.modulus, Real.sqrt_le_left (by norm_num)]
    norm_num [Gaussian.modulusSquared]
  have hfive : Gaussian.modulus ⟨2, 1⟩ ≤ 2.3 := by
    rw [Gaussian.modulus, Real.sqrt_le_left (by norm_num)]
    norm_num [Gaussian.modulusSquared]
  unfold Dominated
  rw [hradius, hothers]
  simp only [List.map_cons, List.map_nil, Sweep.horner_cons, Sweep.horner_nil, List.length_cons, List.length_nil]
  norm_num at hten hfive ⊢
  linarith

theorem roots_enclosed_pairs :
    (Dominated gaussianPair ∧ Gaussian.modulusSquared ⟨2, 1⟩ ≤ circleRadius gaussianPair ^ 2) ∧
      Gaussian.modulusSquared 2 ≤ circleRadius realPair ^ 2 := by
  have hleads : gaussianPair.headD 0 ≠ 0 ∧ realPair.headD 0 ≠ 0 := by decide +kernel
  have hroots : Sweep.horner gaussianPair ⟨2, 1⟩ = 0 ∧ Sweep.horner realPair 2 = 0 := by decide +kernel
  have hmoduli : ∀ c ∈ (normalize realPair).drop 1, c.im ≠ 0 → c.modulusSquared ≤ (circleRadius realPair - 1) ^ 2 := by
    decide +kernel
  refine ⟨⟨dominated_gaussianPair, ?_⟩, ?_⟩
  · exact roots_enclosed hleads.1 hroots.1 (.inl dominated_gaussianPair)
  · exact roots_enclosed hleads.2 hroots.2 (.inr hmoduli)

/-- The root of `z + 5i` is outside its circle. -/
theorem root_outside : Sweep.horner [1, ⟨0, 5⟩] (⟨0, -5⟩ : Gaussian) = 0 ∧
    circleRadius [1, ⟨0, 5⟩] ^ 2 < Gaussian.modulusSquared ⟨0, -5⟩ := by
  decide +kernel

end Simultaneous

end Surd
