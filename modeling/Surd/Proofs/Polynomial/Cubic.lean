import Mathlib
import Surd.Polynomial.Cubic
import Surd.Proofs.Computation

/-!
# Cardano's formulas over an ordered field

Where the functions are exact, the formula that the sign of the discriminant selects gives three roots of
the cubic, complex ones among them, and their sum is the one that the coefficients tell:
`roots_exact`. The real numbers have such functions (`realFunctions_exact`).
-/

namespace Surd

variable {K : Type} [Field K] [LinearOrder K]

/-- The functions do what they are named for, with `cosine` for the cosine. -/
structure Reals.Exact (R : Reals K) (cosine : K → K) : Prop where
  div_eq : ∀ x y, y ≠ 0 → R.div x y = .ok (x / y)
  cube_eq : ∀ x, R.cube x = .ok (x ^ 3)
  sqrt_eq : ∀ x, 0 ≤ x → ∃ s, R.sqrt x = .ok s ∧ 0 ≤ s ∧ s ^ 2 = x
  cbrt_pow : ∀ x, R.cbrt x ^ 3 = x
  abs_eq : ∀ x, R.abs x = |x|
  lt_iff : ∀ x y, R.lt x y = true ↔ x < y
  cos_eq : ∀ t, R.cos t = .ok (cosine t)
  cosine_triple : ∀ t, 4 * cosine t ^ 3 - 3 * cosine t = cosine (3 * t)
  cosine_thirds : ∀ t, cosine t + cosine (t + 2 * R.pi / 3) + cosine (t + 4 * R.pi / 3) = 0
  cosine_atan2 : ∀ x y s, R.sqrt (x ^ 2 + y ^ 2) = .ok s → s ≠ 0 → cosine (R.atan2 y x) = x / s

namespace Cubic

/-! ## Complex roots -/

/-- The complex numbers over the field. -/
abbrev Plane (K : Type) [Field K] := QuadraticAlgebra K (-1) 0

/-- The complex number with these parts. -/
def point (w : K × K) : Plane K := ⟨w.1, w.2⟩

def value (a b c d : K) (z : Plane K) : Plane K :=
  algebraMap K _ a * z ^ 3 + algebraMap K _ b * z ^ 2 + algebraMap K _ c * z + algebraMap K _ d

/-- Three roots, with the sum of all roots. -/
structure AreRoots (a b c d : K) (ws : List (K × K)) : Prop where
  length_eq : ws.length = 3
  value_eq : ∀ w ∈ ws, value a b c d (point w) = 0
  sum_eq : (ws.map point).sum = algebraMap K _ (-b / a)

/-! ## The depressed cubic -/

/-- The depressed cubic, exactly. -/
def depressed (a b c d : K) : Depressed K :=
  let p := (3 * a * c - b * b) / (3 * a * a)
  let q := (2 * b ^ 3 - 9 * a * b * c + 27 * a * a * d) / (27 * a ^ 3)
  ⟨p, q, q * q / 4 + p ^ 3 / 27, -b / (3 * a)⟩

namespace Depressed

/-- The case split does not take a small discriminant for zero, nor zero for a small one. -/
structure Decided (t : Depressed K) (threshold : K) : Prop where
  discriminant_iff : |t.discriminant| < threshold ↔ t.discriminant = 0
  p_eq_zero : t.discriminant = 0 → |t.p| < threshold → t.p = 0

/-- Both parts of the value of the depressed cubic at a complex number are zero. -/
structure IsRoot (t : Depressed K) (x y : K) : Prop where
  re_eq : x ^ 3 - 3 * x * y ^ 2 + t.p * x + t.q = 0
  im_eq : 3 * x ^ 2 * y - y ^ 3 + t.p * y = 0

/-- Three roots whose sum is zero, moved by the shift. -/
inductive Found (t : Depressed K) : List (K × K) → Prop
  | intro {x y z u v w : K} : t.IsRoot x u → t.IsRoot y v → t.IsRoot z w → x + y + z = 0 → u + v + w = 0 →
    Found t [(x + t.shift, u), (y + t.shift, v), (z + t.shift, w)]

end Depressed

variable [IsStrictOrderedRing K] {R : Reals K} {cosine : K → K}

theorem depress_eq (hR : R.Exact cosine) {a : K} (ha : a ≠ 0) (b c d : K) :
    depress R a b c d = .ok (depressed a b c d) := by
  have hp : (3 : K) * a * a ≠ 0 := by positivity
  have hq : (27 : K) * a ^ 3 ≠ 0 := by positivity
  have hshift : (3 : K) * a ≠ 0 := by positivity
  simp only [depress, Nat.cast_ofNat, hR.cube_eq, hR.div_eq _ _ hp, hR.div_eq _ _ hq, hR.div_eq _ _ hshift,
    hR.div_eq _ 4 four_ne_zero, hR.div_eq _ 27 (by norm_num), ok_bind]
  rfl

section
variable {a : K} (ha : a ≠ 0) (b c d : K)
include ha

/-- The substitution takes the second power away. -/
theorem value_shift (z : Plane K) :
    value a b c d (z + algebraMap K _ (depressed a b c d).shift) = algebraMap K _ a *
      (z ^ 3 + algebraMap K _ (depressed a b c d).p * z + algebraMap K _ (depressed a b c d).q) := by
  have h₂ : 3 * a * (depressed a b c d).shift + b = 0 := by
    simp only [depressed]
    field_simp
    ring
  have h₁ : 3 * a * (depressed a b c d).shift ^ 2 + 2 * b * (depressed a b c d).shift + c =
      a * (depressed a b c d).p := by
    simp only [depressed]
    field_simp
    ring
  have h₀ : a * (depressed a b c d).shift ^ 3 + b * (depressed a b c d).shift ^ 2 + c * (depressed a b c d).shift + d =
      a * (depressed a b c d).q := by
    simp only [depressed]
    field_simp
    ring
  have k₂ := congrArg (algebraMap K (Plane K)) h₂
  have k₁ := congrArg (algebraMap K (Plane K)) h₁
  have k₀ := congrArg (algebraMap K (Plane K)) h₀
  simp only [map_add, map_mul, map_pow, map_ofNat, map_zero] at k₂ k₁ k₀
  rw [value]
  linear_combination z ^ 2 * k₂ + z * k₁ + k₀

theorem value_of_isRoot {x y : K} (h : (depressed a b c d).IsRoot x y) :
    value a b c d (point (x + (depressed a b c d).shift, y)) = 0 := by
  have hpoint : point (x + (depressed a b c d).shift, y) = point (x, y) + algebraMap K _ (depressed a b c d).shift := by
    ext <;> simp [point]
  rw [hpoint, value_shift ha]
  have hvalue : point (x, y) ^ 3 + algebraMap K _ (depressed a b c d).p * point (x, y) +
      algebraMap K _ (depressed a b c d).q = 0 := by
    ext
    · simp only [point, pow_succ, pow_zero, one_mul, QuadraticAlgebra.mk_mul_mk, QuadraticAlgebra.re_add,
        QuadraticAlgebra.re_mul, QuadraticAlgebra.algebraMap_re, QuadraticAlgebra.algebraMap_im,
        QuadraticAlgebra.re_zero]
      linear_combination h.re_eq
    · simp only [point, pow_succ, pow_zero, one_mul, QuadraticAlgebra.mk_mul_mk, QuadraticAlgebra.im_add,
        QuadraticAlgebra.im_mul, QuadraticAlgebra.algebraMap_re, QuadraticAlgebra.algebraMap_im,
        QuadraticAlgebra.im_zero]
      linear_combination h.im_eq
  rw [hvalue, mul_zero]

theorem areRoots_of_found {ws : List (K × K)} (h : (depressed a b c d).Found ws) : AreRoots a b c d ws := by
  obtain ⟨hx, hy, hz, hre, him⟩ := h
  exact {
  length_eq := rfl
  value_eq := by
    simp only [List.forall_mem_cons, List.not_mem_nil, false_implies, implies_true, and_true]
    exact ⟨value_of_isRoot ha b c d hx, value_of_isRoot ha b c d hy, value_of_isRoot ha b c d hz⟩
  sum_eq := by
    have hshift : 3 * (depressed a b c d).shift = -b / a := by
      simp only [depressed]
      field_simp
    ext
    · simp only [List.map_cons, List.map_nil, List.sum_cons, List.sum_nil, point, QuadraticAlgebra.re_add,
        QuadraticAlgebra.re_zero, QuadraticAlgebra.algebraMap_re]
      linear_combination hre + hshift
    · simp only [List.map_cons, List.map_nil, List.sum_cons, List.sum_nil, point, QuadraticAlgebra.im_add,
        QuadraticAlgebra.im_zero, QuadraticAlgebra.algebraMap_im]
      linear_combination him }

end

/-! ## The formulas -/

namespace Depressed

omit [LinearOrder K] [IsStrictOrderedRing K] in
theorem isRoot_real {t : Depressed K} {x : K} (h : x ^ 3 + t.p * x + t.q = 0) : t.IsRoot x 0 :=
  ⟨by linear_combination h, by ring⟩

section
variable {t : Depressed K} {u v : K}

/-- A vanishing discriminant makes `p` minus three times a square. -/
theorem p_eq_of_discriminant_eq_zero (ht : t.q * t.q / 4 + t.p ^ 3 / 27 = 0) (hu : u ^ 3 = -t.q / 2) :
    t.p = -3 * u ^ 2 := by
  have hcube : t.p ^ 3 = (-3 * u ^ 2) ^ 3 := by
    linear_combination 27 * ht + (27 * u ^ 3 - 27 / 2 * t.q) * hu
  exact (Odd.strictMono_pow (by decide)).injective hcube

theorem mul_eq_of_cubes {s : K} (hs : s ^ 2 = t.q * t.q / 4 + t.p ^ 3 / 27) (hu : u ^ 3 = -t.q / 2 + s)
    (hv : v ^ 3 = -t.q / 2 - s) : u * v = -t.p / 3 := by
  have hcube : (u * v) ^ 3 = (-t.p / 3) ^ 3 := by
    rw [mul_pow, hu, hv]
    linear_combination -hs
  exact (Odd.strictMono_pow (by decide)).injective hcube

end

variable (hR : R.Exact cosine)
include hR

theorem div_two (x : K) : R.div x 2 = .ok (x / 2) := hR.div_eq x 2 two_ne_zero

theorem div_three (x : K) : R.div x 3 = .ok (x / 3) := hR.div_eq x 3 three_ne_zero

section
variable {t : Depressed K}

theorem multipleRoots_eq (factors : K → List K) :
    t.multipleRoots R factors = .ok ((factors (R.cbrt (-t.q / 2))).map t.realRoot) := by
  simp only [multipleRoots, Nat.cast_ofNat, div_two hR, ok_bind]
  rfl

theorem found_tripleRoot (ht : t.q * t.q / 4 + t.p ^ 3 / 27 = 0) (hp : t.p = 0) :
    ∃ ws, t.roots R .tripleRoot = .ok ws ∧ t.Found ws := by
  have hu := hR.cbrt_pow (-t.q / 2)
  refine ⟨_, by rw [roots, multipleRoots_eq hR], ?_⟩
  generalize R.cbrt (-t.q / 2) = u at hu ⊢
  have hq : t.q = 0 := by
    rw [hp] at ht
    have hsq : t.q * t.q = 0 := by linear_combination 4 * ht
    exact mul_self_eq_zero.mp hsq
  have hzero : u = 0 := by
    rw [hq, neg_zero, zero_div] at hu
    exact pow_eq_zero_iff three_ne_zero |>.mp hu
  have hroot : t.IsRoot u 0 := isRoot_real (by rw [hzero, hq]; ring)
  have hfound := Found.intro hroot hroot hroot (by rw [hzero]; ring) (by ring)
  simpa [realRoot] using hfound

theorem found_doubleRoot (ht : t.q * t.q / 4 + t.p ^ 3 / 27 = 0) :
    ∃ ws, t.roots R .doubleRoot = .ok ws ∧ t.Found ws := by
  have hu := hR.cbrt_pow (-t.q / 2)
  have hp := p_eq_of_discriminant_eq_zero ht hu
  refine ⟨_, by rw [roots, multipleRoots_eq hR], ?_⟩
  generalize R.cbrt (-t.q / 2) = u at hu hp ⊢
  have hdouble : t.IsRoot (-u) 0 := isRoot_real (by rw [hp]; linear_combination 2 * hu)
  have hsingle : t.IsRoot (2 * u) 0 := isRoot_real (by rw [hp]; linear_combination 2 * hu)
  have hfound := Found.intro hdouble hdouble hsingle (by ring) (by ring)
  simpa [realRoot] using hfound

/-- The real root is the sum of two cube roots; the others turn them by a third of a turn. -/
theorem found_oneReal (hpos : 0 ≤ t.discriminant) (ht : t.discriminant = t.q * t.q / 4 + t.p ^ 3 / 27) :
    ∃ ws, t.roots R .oneReal = .ok ws ∧ t.Found ws := by
  obtain ⟨s, hs, _, hsq⟩ := hR.sqrt_eq _ hpos
  obtain ⟨r, hr, _, hrsq⟩ := hR.sqrt_eq 3 zero_le_three
  have hu := hR.cbrt_pow (-t.q / 2 + s)
  have hv := hR.cbrt_pow (-t.q / 2 - s)
  have huv := mul_eq_of_cubes (hsq.trans ht) hu hv
  simp only [roots, oneRealRoot, Nat.cast_ofNat, hs, hr, div_two hR, ok_bind]
  refine ⟨_, rfl, ?_⟩
  generalize R.cbrt (-t.q / 2 + s) = u at hu huv ⊢
  generalize R.cbrt (-t.q / 2 - s) = v at hv huv ⊢
  have hp : t.p = -3 * (u * v) := by linear_combination 3 * huv
  have hq : t.q = -(u ^ 3 + v ^ 3) := by linear_combination hu + hv
  have hreal : t.IsRoot (u + v) 0 := isRoot_real (by rw [hp, hq]; ring)
  have hpair : t.IsRoot (-(u + v) / 2) (r * (u - v) / 2) := by
    constructor
    · rw [hp, hq]
      linear_combination (3 / 8) * (u + v) * (u - v) ^ 2 * hrsq
    · rw [hp]
      linear_combination (-1 / 8) * r * (u - v) ^ 3 * hrsq
  have hconjugate : t.IsRoot (-(u + v) / 2) (-(r * (u - v) / 2)) :=
    ⟨by linear_combination hpair.re_eq, by linear_combination -hpair.im_eq⟩
  have hfound := Found.intro hreal hpair hconjugate (by ring) (by ring)
  simpa [realRoot] using hfound

omit hR in
/-- A cosine of a third of the angle is a root, for a square root `r` of `-p / 3`. -/
theorem isRoot_of_cosine {r x y : K} (hr : r ^ 2 = -t.p / 3) (hx : 4 * x ^ 3 - 3 * x = y) (hy : 2 * r ^ 3 * y = -t.q) :
    t.IsRoot (2 * r * x) 0 := by
  have hp : t.p = -3 * r ^ 2 := by
    rw [hr]
    field_simp
  refine isRoot_real ?_
  rw [hp]
  linear_combination 2 * r ^ 3 * hx + hy

/-- The three cosines are those of one angle, as turns do not change the cosine. -/
theorem cosine_turn (x : K) : cosine (x + 2 * R.pi) = cosine x := by
  have h₀ := hR.cosine_thirds x
  have h₁ := hR.cosine_thirds (x + 2 * R.pi / 3)
  have htwo : x + 2 * R.pi / 3 + 2 * R.pi / 3 = x + 4 * R.pi / 3 := by ring
  have hthree : x + 2 * R.pi / 3 + 4 * R.pi / 3 = x + 2 * R.pi := by ring
  rw [htwo, hthree] at h₁
  linear_combination h₁ - h₀

theorem cosine_atan2 {x y s : K} (hs : 0 < s) (h : x ^ 2 + y ^ 2 = s ^ 2) : cosine (R.atan2 y x) = x / s := by
  obtain ⟨s', hs', hnonneg, hsq⟩ := hR.sqrt_eq _ (h ▸ sq_nonneg s)
  obtain rfl : s' = s := (pow_left_inj₀ hnonneg hs.le two_ne_zero).mp (hsq.trans h)
  exact hR.cosine_atan2 _ _ _ hs' hs.ne'

/-- The roots are the cosines of three angles a third of a turn apart. -/
theorem threeRealRoots_eq {r height : K} (hheight : R.sqrt (-t.discriminant) = .ok height)
    (hr : R.sqrt (-t.p / 3) = .ok r) {angle : K} (hangle : angle = R.atan2 height (-t.q / 2) / 3) :
    t.threeRealRoots R = .ok ([angle, angle + 2 * R.pi / 3, angle + 4 * R.pi / 3].map fun x =>
      t.realRoot (2 * r * cosine x)) := by
  have hone : (R.atan2 height (-t.q / 2) + 2 * R.pi * 1) / 3 = angle + 2 * R.pi / 3 := by
    rw [hangle]
    ring
  have htwo : (R.atan2 height (-t.q / 2) + 2 * R.pi * 2) / 3 = angle + 4 * R.pi / 3 := by
    rw [hangle]
    ring
  simp only [threeRealRoots, hheight, hr, div_two hR, div_three hR, ok_bind, List.mapM_cons, List.mapM_nil, hR.cos_eq,
    Nat.cast_ofNat, Nat.cast_zero, Nat.cast_one, mul_zero, add_zero, hone, htwo, ← hangle]
  rfl

theorem found_threeReal (hneg : t.discriminant < 0) (ht : t.discriminant = t.q * t.q / 4 + t.p ^ 3 / 27) :
    ∃ ws, t.roots R .threeReal = .ok ws ∧ t.Found ws := by
  have hthird : 0 < -t.p / 3 := by
    have hcube : 0 < (-t.p / 3) ^ 3 := by
      have hsq := mul_self_nonneg t.q
      linear_combination hneg + hsq / 4 - ht
    exact (Odd.pow_pos_iff (by decide)).mp hcube
  obtain ⟨height, hheight, _, hheightsq⟩ := hR.sqrt_eq (-t.discriminant) (by linarith)
  obtain ⟨r, hr, hrnonneg, hrsq⟩ := hR.sqrt_eq (-t.p / 3) hthird.le
  have hrpos : 0 < r := hrnonneg.lt_of_ne (by rintro rfl; simp at hrsq; linarith)
  -- a right triangle with the legs `height` and `-q / 2` has the hypotenuse `r³`
  have hsum : (-t.q / 2) ^ 2 + height ^ 2 = (r ^ 3) ^ 2 := by
    linear_combination hheightsq - ht - (r ^ 4 - r ^ 2 * t.p / 3 + t.p ^ 2 / 9) * hrsq
  have hcosine : 2 * r ^ 3 * cosine (R.atan2 height (-t.q / 2)) = -t.q := by
    rw [cosine_atan2 hR (pow_pos hrpos 3) hsum]
    field_simp
  obtain ⟨angle, hangle⟩ : ∃ angle, angle = R.atan2 height (-t.q / 2) / 3 := ⟨_, rfl⟩
  have hthrice : 3 * angle = R.atan2 height (-t.q / 2) := by
    rw [hangle]
    ring
  have hroot : ∀ x, cosine (3 * x) = cosine (3 * angle) → t.IsRoot (2 * r * cosine x) 0 := fun x hx =>
    isRoot_of_cosine hrsq (hR.cosine_triple x) (by rw [hx, hthrice, hcosine])
  have hsecond := hroot (angle + 2 * R.pi / 3) <| by
    rw [← cosine_turn hR (3 * angle)]
    exact congrArg cosine (by ring)
  have hlast := hroot (angle + 4 * R.pi / 3) <| by
    rw [← cosine_turn hR (3 * angle), ← cosine_turn hR (3 * angle + 2 * R.pi)]
    exact congrArg cosine (by ring)
  have hzero : 2 * r * cosine angle + 2 * r * cosine (angle + 2 * R.pi / 3) +
      2 * r * cosine (angle + 4 * R.pi / 3) = 0 := by
    linear_combination 2 * r * hR.cosine_thirds angle
  have hfound := Found.intro (hroot angle rfl) hsecond hlast hzero (by ring)
  exact ⟨_, threeRealRoots_eq hR hheight hr hangle, by simpa [realRoot] using hfound⟩

end

end Depressed

/-- Each formula is right in its case: it lists three roots, and they have the sum that the coefficients
tell. -/
theorem roots_exact (hR : R.Exact cosine) {a : K} (ha : a ≠ 0) (b c d threshold : K) :
    depress R a b c d = .ok (depressed a b c d) ∧
      ((depressed a b c d).Decided threshold →
        ∃ ws, (depressed a b c d).roots R ((depressed a b c d).case R threshold) = .ok ws ∧ AreRoots a b c d ws) := by
  refine ⟨depress_eq hR ha b c d, fun h => ?_⟩
  have hdiscriminant : (depressed a b c d).discriminant =
      (depressed a b c d).q * (depressed a b c d).q / 4 + (depressed a b c d).p ^ 3 / 27 := rfl
  suffices ∃ ws, (depressed a b c d).roots R ((depressed a b c d).case R threshold) = .ok ws ∧
      (depressed a b c d).Found ws by
    obtain ⟨ws, hws, hfound⟩ := this
    exact ⟨ws, hws, areRoots_of_found ha b c d hfound⟩
  generalize depressed a b c d = t at h hdiscriminant ⊢
  simp only [Depressed.case, hR.lt_iff, hR.abs_eq, Nat.cast_zero]
  by_cases hsmall : |t.discriminant| < threshold
  · have hzero := h.discriminant_iff.mp hsmall
    have hq := hdiscriminant.symm.trans hzero
    rw [if_pos hsmall]
    by_cases hp : |t.p| < threshold
    · rw [if_pos hp]
      exact Depressed.found_tripleRoot hR hq (h.p_eq_zero hzero hp)
    · rw [if_neg hp]
      exact Depressed.found_doubleRoot hR hq
  · rw [if_neg hsmall]
    by_cases hpos : 0 < t.discriminant
    · rw [if_pos hpos]
      exact Depressed.found_oneReal hR hpos.le hdiscriminant
    · rw [if_neg hpos]
      have hne : t.discriminant ≠ 0 := mt h.discriminant_iff.mpr hsmall
      exact Depressed.found_threeReal hR ((not_lt.mp hpos).lt_of_ne hne) hdiscriminant

/-! ## The real numbers -/

noncomputable section

/-- The functions of the real numbers. -/
def realFunctions : Reals ℝ where
  div x y := .ok (x / y)
  cube x := .ok (x ^ 3)
  sqrt x := .ok √x
  cbrt x := if 0 ≤ x then x ^ (1 / 3 : ℝ) else -(-x) ^ (1 / 3 : ℝ)
  cos t := .ok (Real.cos t)
  atan2 y x := Complex.arg ⟨x, y⟩
  abs x := |x|
  lt x y := decide (x < y)
  pi := Real.pi

theorem realFunctions_exact : realFunctions.Exact Real.cos where
  div_eq _ _ _ := rfl
  cube_eq _ := rfl
  sqrt_eq x hx := ⟨√x, rfl, Real.sqrt_nonneg x, Real.sq_sqrt hx⟩
  cbrt_pow x := by
    have hcube : ∀ y : ℝ, 0 ≤ y → (y ^ (1 / 3 : ℝ)) ^ 3 = y := fun y hy => by
      rw [← Real.rpow_natCast, ← Real.rpow_mul hy]
      norm_num
    simp only [realFunctions]
    split
    · exact hcube x ‹_›
    · rw [Odd.neg_pow (by decide), hcube (-x) (by linarith), neg_neg]
  abs_eq _ := rfl
  lt_iff _ _ := decide_eq_true_iff
  cos_eq _ := rfl
  cosine_triple t := (Real.cos_three_mul t).symm
  cosine_thirds t := by
    have hthird : Real.cos (2 * Real.pi / 3) = -1 / 2 := by
      have hpi : 2 * Real.pi / 3 = Real.pi - Real.pi / 3 := by ring
      rw [hpi, Real.cos_pi_sub, Real.cos_pi_div_three]
      norm_num
    have hturn : t + 4 * Real.pi / 3 = t - 2 * Real.pi / 3 + 2 * Real.pi := by ring
    have hlast : Real.cos (t + 4 * Real.pi / 3) = Real.cos (t - 2 * Real.pi / 3) := by
      rw [hturn, Real.cos_add_two_pi]
    simp only [realFunctions]
    rw [hlast, Real.cos_add, Real.cos_sub, hthird]
    ring
  cosine_atan2 x y s hs hne := by
    simp only [realFunctions, Except.ok.injEq] at hs ⊢
    subst hs
    have hnorm : ‖(⟨x, y⟩ : ℂ)‖ = √(x ^ 2 + y ^ 2) := Complex.norm_eq_sqrt_sq_add_sq _
    rw [← hnorm] at hne ⊢
    exact Complex.cos_arg (norm_ne_zero_iff.mp hne)

end

theorem decided_sampleCubic : (depressed (2 : ℝ) 2 (-20) 16).Decided (1 / 10 ^ 10) := by
  have hdiscriminant : (depressed (2 : ℝ) 2 (-20) 16).discriminant = -25 / 3 := by
    norm_num [depressed]
  constructor
  · rw [hdiscriminant]
    norm_num
  · rw [hdiscriminant]
    norm_num

/-- The cubic `2 (x - 1) (x - 2) (x + 4)` has three real roots. -/
theorem roots_sampleCubic :
    realFunctions.Exact Real.cos ∧ (2 : ℝ) ≠ 0 ∧ (depressed (2 : ℝ) 2 (-20) 16).Decided (1 / 10 ^ 10) ∧
      ∃ ws, (depressed (2 : ℝ) 2 (-20) 16).roots realFunctions
          ((depressed (2 : ℝ) 2 (-20) 16).case realFunctions (1 / 10 ^ 10)) = .ok ws ∧ AreRoots 2 2 (-20) 16 ws :=
  ⟨realFunctions_exact, two_ne_zero, decided_sampleCubic,
    (roots_exact realFunctions_exact two_ne_zero 2 (-20) 16 (1 / 10 ^ 10)).2 decided_sampleCubic⟩

end Cubic

end Surd
