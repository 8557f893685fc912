import Mathlib
import Surd.Binary64.Elementary
import Surd.Proofs.Binary64.Arithmetic
import Surd.Proofs.Binary64.Conversion
import Surd.Proofs.Binary64.Nearest

/-!
# How near a square root is

The rank of a square root is a scale and a number of steps on it, at least 2^52 of them, that is off by
at most one step. So a larger double has no smaller square root (`rootRank_mono`), and the square root of
a double is off by at most 2^-52 of the root: `sqrt_accurate`.
-/

namespace Surd

namespace Binary64

/-! ## Roots on a scale -/

/-- A square root lies after `root` steps and before the next one, where a step is `2 ^ scale` units. -/
structure RootOnScale (units d scale root : Nat) : Prop where
  low : root * root * (d * 4 ^ scale) ≤ units
  high : units < (root + 1) * (root + 1) * (d * 4 ^ scale)
  normal : blockSize ≤ root
  root_lt : root < 2 * blockSize

theorem rootOnScale_log2 {units d : Nat} (hd : 0 < d) (h : d * 4 ^ 52 ≤ units) :
    RootOnScale units d ((Nat.sqrt (units / d)).log2 - 52)
      (Nat.sqrt (units / (d * 4 ^ ((Nat.sqrt (units / d)).log2 - 52)))) := by
  have hle : 2 ^ 52 ≤ Nat.sqrt (units / d) := by
    rw [Nat.le_sqrt, Nat.le_div_iff_mul_le hd, Nat.mul_comm]
    exact h
  have hne : Nat.sqrt (units / d) ≠ 0 := by
    intro hzero
    rw [hzero] at hle
    exact absurd hle (by decide)
  -- the length of the root says on which scale it is
  obtain ⟨scale, hscale⟩ : ∃ scale, (Nat.sqrt (units / d)).log2 = 52 + scale :=
    Nat.exists_eq_add_of_le ((Nat.le_log2 hne).mpr hle)
  have hlow : 2 ^ (52 + scale) ≤ Nat.sqrt (units / d) := hscale ▸ (Nat.le_log2 hne).mp le_rfl
  have hhigh : Nat.sqrt (units / d) < 2 ^ (52 + scale + 1) := hscale ▸ Nat.lt_log2_self
  rw [hscale, Nat.add_sub_cancel_left]
  have hstep : 0 < d * 4 ^ scale := Nat.mul_pos hd (Nat.pow_pos (by decide))
  have hfour : (4 : Nat) ^ scale = 2 ^ scale * 2 ^ scale := by rw [← Nat.mul_pow]
  rw [Nat.le_sqrt, Nat.le_div_iff_mul_le hd] at hlow
  rw [Nat.sqrt_lt, Nat.div_lt_iff_lt_mul hd] at hhigh
  constructor
  · exact (Nat.mul_le_mul_right _ (Nat.sqrt_le _)).trans (Nat.div_mul_le_self _ _)
  · exact (Nat.div_lt_iff_lt_mul hstep).mp (Nat.lt_succ_sqrt _)
  · rw [Nat.le_sqrt, Nat.le_div_iff_mul_le hstep, blockSize_eq, hfour]
    calc 2 ^ 52 * 2 ^ 52 * (d * (2 ^ scale * 2 ^ scale)) = 2 ^ (52 + scale) * 2 ^ (52 + scale) * d := by ring
      _ ≤ units := hlow
  · rw [Nat.sqrt_lt, Nat.div_lt_iff_lt_mul hstep, blockSize_eq, hfour]
    calc units < 2 ^ (52 + scale + 1) * 2 ^ (52 + scale + 1) * d := hhigh
      _ = 2 * 2 ^ 52 * (2 * 2 ^ 52) * (d * (2 ^ scale * 2 ^ scale)) := by ring

/-- The nearer one of `root` steps and the next number of them. -/
def nearestSteps (units step root : Nat) : Nat :=
  if (2 * root + 1) * (2 * root + 1) * step < 4 * units then root + 1 else root

theorem nearestSteps_cases (units step root : Nat) :
    nearestSteps units step root = root ∨ nearestSteps units step root = root + 1 := by
  unfold nearestSteps
  split
  · exact .inr rfl
  · exact .inl rfl

/-- Between the same two numbers of steps, the halves decide. -/
theorem nearestSteps_mono {units d units' d' : Nat} (root scale : Nat) (hd' : 0 < d')
    (hle : units * d' ≤ units' * d) :
    nearestSteps units (d * 4 ^ scale) root ≤ nearestSteps units' (d' * 4 ^ scale) root := by
  have hhalf : (2 * root + 1) * (2 * root + 1) * (d * 4 ^ scale) < 4 * units →
      (2 * root + 1) * (2 * root + 1) * (d' * 4 ^ scale) < 4 * units' := by
    intro hup
    refine Nat.lt_of_mul_lt_mul_right (a := d) ?_
    calc (2 * root + 1) * (2 * root + 1) * (d' * 4 ^ scale) * d
        = (2 * root + 1) * (2 * root + 1) * (d * 4 ^ scale) * d' := by ring
      _ < 4 * units * d' := Nat.mul_lt_mul_of_pos_right hup hd'
      _ = 4 * (units * d') := Nat.mul_assoc ..
      _ ≤ 4 * (units' * d) := Nat.mul_le_mul_left 4 hle
      _ = 4 * units' * d := (Nat.mul_assoc ..).symm
  have hsteps := nearestSteps_cases units' (d' * 4 ^ scale) root
  by_cases hup : (2 * root + 1) * (2 * root + 1) * (d * 4 ^ scale) < 4 * units
  · rw [nearestSteps, if_pos hup, nearestSteps, if_pos (hhalf hup)]
  · rw [nearestSteps, if_neg hup]
    omega

theorem nearestRootRank_eq {n d : Nat} (hd : 0 < d) (h : d * 4 ^ 52 ≤ n * (unitCount * unitCount)) :
    ∃ scale root, RootOnScale (n * (unitCount * unitCount)) d scale root ∧
      nearestRootRank n d = scale * blockSize + nearestSteps (n * (unitCount * unitCount)) (d * 4 ^ scale) root := by
  have hcount : Nat.pow 2 2148 = unitCount * unitCount := by decide +kernel
  have hroot := rootOnScale_log2 hd h
  refine ⟨_, _, hroot, ?_⟩
  unfold nearestRootRank
  rw [hcount]
  rfl

/-! ## Order -/

section
variable {units d scale root units' d' scale' root' : Nat} (h : RootOnScale units d scale root)
  (h' : RootOnScale units' d' scale' root') (hd : 0 < d) (hle : units * d' ≤ units' * d)
include h h' hd hle

theorem RootOnScale.scale_le : scale ≤ scale' := by
  by_contra hgt
  -- a coarser scale belongs to a larger root
  obtain ⟨k, rfl⟩ : ∃ k, scale = scale' + 1 + k := Nat.exists_eq_add_of_le (Nat.lt_of_not_le hgt)
  have hnext : root' + 1 ≤ 2 * blockSize := h'.root_lt
  have hstep : 4 * 4 ^ scale' ≤ 4 ^ (scale' + 1 + k) := by
    rw [← pow_succ']
    exact Nat.pow_le_pow_right (by decide) (by omega)
  have hlt : units' * d < units * d' := by
    calc units' * d < (root' + 1) * (root' + 1) * (d' * 4 ^ scale') * d := Nat.mul_lt_mul_of_pos_right h'.high hd
      _ ≤ 2 * blockSize * (2 * blockSize) * (d' * 4 ^ scale') * d := by gcongr
      _ = blockSize * blockSize * (d * (4 * 4 ^ scale')) * d' := by ring
      _ ≤ root * root * (d * 4 ^ (scale' + 1 + k)) * d' := by have := h.normal; gcongr
      _ ≤ units * d' := Nat.mul_le_mul_right d' h.low
  omega

theorem RootOnScale.root_le (heq : scale = scale') : root ≤ root' := by
  subst heq
  by_contra hgt
  have hnext : root' + 1 ≤ root := Nat.lt_of_not_le hgt
  have hlt : units' * d < units * d' := by
    calc units' * d < (root' + 1) * (root' + 1) * (d' * 4 ^ scale) * d := Nat.mul_lt_mul_of_pos_right h'.high hd
      _ ≤ root * root * (d' * 4 ^ scale) * d := by gcongr
      _ = root * root * (d * 4 ^ scale) * d' := by ring
      _ ≤ units * d' := Nat.mul_le_mul_right d' h.low
  omega

theorem RootOnScale.rank_mono (hd' : 0 < d') :
    scale * blockSize + nearestSteps units (d * 4 ^ scale) root ≤
      scale' * blockSize + nearestSteps units' (d' * 4 ^ scale') root' := by
  have hsteps := nearestSteps_cases units (d * 4 ^ scale) root
  have hsteps' := nearestSteps_cases units' (d' * 4 ^ scale') root'
  rcases (h.scale_le h' hd hle).lt_or_eq with hlt | heq
  · have hmul := Nat.mul_le_mul_right blockSize (show scale + 1 ≤ scale' from hlt)
    have := h.root_lt
    have := h'.normal
    rw [Nat.add_mul, Nat.one_mul] at hmul
    omega
  · rcases (h.root_le h' hd hle heq).lt_or_eq with hlt | hroot
    · rw [heq] at hsteps ⊢
      omega
    · subst heq
      subst hroot
      exact Nat.add_le_add_left (nearestSteps_mono root scale hd' hle) _

end

theorem nearestRootRank_mono {n d n' d' : Nat} (hd : 0 < d) (hd' : 0 < d')
    (hlow : d * 4 ^ 52 ≤ n * (unitCount * unitCount)) (h : n * d' ≤ n' * d) :
    nearestRootRank n d ≤ nearestRootRank n' d' := by
  have hunits : n * (unitCount * unitCount) * d' ≤ n' * (unitCount * unitCount) * d := by
    calc n * (unitCount * unitCount) * d' = n * d' * (unitCount * unitCount) := by ring
      _ ≤ n' * d * (unitCount * unitCount) := Nat.mul_le_mul_right _ h
      _ = n' * (unitCount * unitCount) * d := by ring
  have hlow' : d' * 4 ^ 52 ≤ n' * (unitCount * unitCount) := by
    refine Nat.le_of_mul_le_mul_right ?_ hd
    calc d' * 4 ^ 52 * d = d * 4 ^ 52 * d' := by ring
      _ ≤ n * (unitCount * unitCount) * d' := Nat.mul_le_mul_right _ hlow
      _ ≤ n' * (unitCount * unitCount) * d := hunits
  obtain ⟨scale, root, hroot, hrank⟩ := nearestRootRank_eq hd hlow
  obtain ⟨scale', root', hroot', hrank'⟩ := nearestRootRank_eq hd' hlow'
  rw [hrank, hrank']
  exact hroot.rank_mono hroot' hd hunits hd'

/-! ## Accuracy -/

theorem RootOnScale.sqrt_bounds {n d scale root : Nat} (h : RootOnScale (n * (unitCount * unitCount)) d scale root)
    (hd : 0 < d) :
    (root : ℝ) * (2 ^ scale / unitCount) ≤ √((n : ℝ) / d) ∧ √((n : ℝ) / d) < (root + 1) * (2 ^ scale / unitCount) := by
  have hlow := h.low
  have hhigh := h.high
  have hpos : 0 < unitCount := unitCount_pos
  generalize unitCount = P at *
  rify at hlow hhigh hd hpos
  have hfour : (4 : ℝ) ^ scale = 2 ^ scale * 2 ^ scale := by rw [← mul_pow]; norm_num
  rw [hfour] at hlow hhigh
  constructor
  · apply Real.le_sqrt_of_sq_le
    rw [le_div_iff₀ hd, ← sub_nonneg]
    have hdiff : (n : ℝ) - (root * (2 ^ scale / P)) ^ 2 * d =
        (n * (P * P) - root * root * (d * (2 ^ scale * 2 ^ scale))) / (P * P) := by
      field_simp
    rw [hdiff]
    exact div_nonneg (sub_nonneg.mpr hlow) (by positivity)
  · rw [Real.sqrt_lt' (by positivity), div_lt_iff₀ hd, ← sub_pos]
    have hdiff : ((root + 1) * (2 ^ scale / P)) ^ 2 * d - (n : ℝ) =
        ((root + 1) * (root + 1) * (d * (2 ^ scale * 2 ^ scale)) - n * (P * P)) / (P * P) := by
      field_simp
    rw [hdiff]
    exact div_pos (sub_pos.mpr hhigh) (by positivity)

section
variable {n d scale root q : Nat} (h : RootOnScale (n * (unitCount * unitCount)) d scale root)
  (hq : q = root ∨ q = root + 1)
include h hq

theorem RootOnScale.unitsOf_eq : unitsOf (scale * blockSize + q) = q * 2 ^ scale := by
  have hlow := h.normal
  have hlt := h.root_lt
  exact unitsOf_add (by omega) (.inr (by omega))

theorem RootOnScale.rank_lt (hd : 0 < d) (hn : n ≤ d * unitCount) : scale * blockSize + q < finiteCount := by
  have hpow : 2 ^ (2 * scale) ≤ unitCount * (unitCount * unitCount) := by
    have hone : 1 ≤ root := (show 1 ≤ blockSize by decide).trans h.normal
    refine Nat.le_of_mul_le_mul_left ?_ hd
    calc d * 2 ^ (2 * scale) = d * 4 ^ scale := by rw [Nat.pow_mul]
      _ ≤ root * root * (d * 4 ^ scale) := Nat.le_mul_of_pos_left _ (Nat.mul_pos hone hone)
      _ ≤ n * (unitCount * unitCount) := h.low
      _ ≤ d * unitCount * (unitCount * unitCount) := Nat.mul_le_mul_right _ hn
      _ = d * (unitCount * (unitCount * unitCount)) := Nat.mul_assoc ..
  have hlog : 2 * scale ≤ (unitCount * (unitCount * unitCount)).log2 := (Nat.le_log2 (by decide +kernel)).mpr hpow
  have hlimit : (unitCount * (unitCount * unitCount)).log2 < 4000 := by decide +kernel
  have hmul := Nat.mul_le_mul_right blockSize (show scale ≤ 2000 by omega)
  have hfinite : 2000 * blockSize + 2 * blockSize < finiteCount := by decide
  have hlt := h.root_lt
  omega

theorem RootOnScale.abs_magnitude_sub_le (hd : 0 < d) :
    |(magnitude (scale * blockSize + q) : ℝ) - √((n : ℝ) / d)| ≤ √((n : ℝ) / d) / 2 ^ 52 := by
  obtain ⟨hroot, hnext⟩ := h.sqrt_bounds hd
  have hnormal := h.normal
  have hpos : 0 < unitCount := unitCount_pos
  rw [magnitude_eq, h.unitsOf_eq hq]
  generalize unitCount = P at *
  rw [blockSize_eq] at hnormal
  rify at hnormal hpos
  -- the size of a step
  obtain ⟨w, hw⟩ : ∃ w : ℝ, w = 2 ^ scale / P := ⟨_, rfl⟩
  have hwpos : 0 < w := by rw [hw]; positivity
  rw [← hw] at hroot hnext
  have hstep : w ≤ √((n : ℝ) / d) / 2 ^ 52 := by
    rw [le_div_iff₀ (by positivity)]
    calc w * 2 ^ 52 ≤ w * root := mul_le_mul_of_nonneg_left hnormal hwpos.le
      _ = root * w := mul_comm ..
      _ ≤ √((n : ℝ) / d) := hroot
  have hvalue : (((q * 2 ^ scale : Nat) : ℚ) / (P : ℚ) : ℚ) = (q : ℝ) * w := by
    rw [hw]
    push_cast
    ring
  refine le_trans ?_ hstep
  rw [hvalue, abs_le]
  rcases hq with rfl | rfl
  · constructor <;> linarith
  · push_cast
    constructor <;> linarith

end

/-! ## Doubles -/

theorem le_magnitude {rank : Nat} (h : rank ≠ 0) : (unitCount : ℚ)⁻¹ ≤ magnitude rank := by
  rw [magnitude_eq, inv_eq_one_div]
  have hone : (1 : ℚ) ≤ unitsOf rank := Nat.one_le_cast.mpr (unitsOf_pos h)
  exact div_le_div_of_nonneg_right hone (Nat.cast_nonneg _)

theorem magnitude_le (rank : Fin finiteCount) : magnitude rank ≤ unitCount := by
  have hpos : 0 < blockSize := by decide
  have hblock : rank / blockSize < 2047 := (Nat.div_lt_iff_lt_mul hpos).mpr rank.isLt
  have hscale : scaleOf rank ≤ 2045 := by
    unfold scaleOf
    omega
  have hlimit : 2100 ≤ (unitCount * unitCount).log2 := by decide +kernel
  have hunits : unitsOf rank ≤ unitCount * unitCount := by
    calc unitsOf rank ≤ 2 ^ 53 * 2 ^ scaleOf rank := unitsOf_le rank
      _ = 2 ^ (53 + scaleOf rank) := (Nat.pow_add ..).symm
      _ ≤ unitCount * unitCount := (Nat.le_log2 (by decide +kernel)).mp (by omega)
  rw [magnitude_eq, div_le_iff₀ (Nat.cast_pos.mpr unitCount_pos)]
  exact_mod_cast hunits

/-- Magnitudes are large enough for their roots to lie on a scale. -/
theorem den_mul_le_num_mul {x : ℚ} (hlow : (unitCount : ℚ)⁻¹ ≤ x) :
    x.den * 4 ^ 52 ≤ x.num.natAbs * (unitCount * unitCount) := by
  have hcount : (0 : ℚ) < unitCount := Nat.cast_pos.mpr unitCount_pos
  have hpos : 0 < x := (inv_pos.mpr hcount).trans_le hlow
  have hden : (0 : ℚ) < x.den := Nat.cast_pos.mpr x.den_pos
  have hlow' : x.den ≤ x.num.natAbs * unitCount := by
    rw [← abs_of_pos hpos, abs_eq_div, inv_le_iff_one_le_mul₀ hcount, div_mul_eq_mul_div, one_le_div hden] at hlow
    exact_mod_cast hlow
  have hlimit : 4 ^ 52 ≤ unitCount := two_pow_le_unitCount (k := 104) (by decide)
  rw [← Nat.mul_assoc]
  exact Nat.mul_le_mul hlow' hlimit

theorem nearestRootRank_accurate {x : ℚ} (hlow : (unitCount : ℚ)⁻¹ ≤ x) (hhigh : x ≤ unitCount) :
    nearestRootRank x.num.natAbs x.den < finiteCount ∧
      |(magnitude (nearestRootRank x.num.natAbs x.den) : ℝ) - √(x : ℝ)| ≤ √(x : ℝ) / 2 ^ 52 := by
  have hcount : (0 : ℚ) < unitCount := Nat.cast_pos.mpr unitCount_pos
  have hpos : 0 < x := (inv_pos.mpr hcount).trans_le hlow
  have hden : (0 : ℚ) < x.den := Nat.cast_pos.mpr x.den_pos
  have hdiv : (x.num.natAbs : ℚ) / x.den = x := by rw [← abs_eq_div, abs_of_pos hpos]
  have hhigh' : x.num.natAbs ≤ x.den * unitCount := by
    rw [← hdiv, div_le_iff₀ hden, mul_comm] at hhigh
    exact_mod_cast hhigh
  obtain ⟨scale, root, hroot, hrank⟩ := nearestRootRank_eq x.den_pos (den_mul_le_num_mul hlow)
  have hsteps := nearestSteps_cases (x.num.natAbs * (unitCount * unitCount)) (x.den * 4 ^ scale) root
  have hreal : (x.num.natAbs : ℝ) / x.den = x := by
    have hcast := congrArg (fun y : ℚ => (y : ℝ)) hdiv
    push_cast at hcast
    exact hcast
  rw [hrank, ← hreal]
  exact ⟨hroot.rank_lt hsteps x.den_pos hhigh', hroot.abs_magnitude_sub_le hsteps x.den_pos⟩

/-- The rank of the square root of a magnitude. -/
def rootRank (rank : Nat) : Nat := nearestRootRank (magnitude rank).num.natAbs (magnitude rank).den

theorem rootRank_mono {i j : Nat} (hi : i ≠ 0) (h : i ≤ j) : rootRank i ≤ rootRank j := by
  have hle := magnitude_mono h
  rw [← abs_of_nonneg (magnitude_nonneg i), ← abs_of_nonneg (magnitude_nonneg j), abs_eq_div, abs_eq_div,
    div_le_div_iff₀ (Nat.cast_pos.mpr (magnitude i).den_pos) (Nat.cast_pos.mpr (magnitude j).den_pos)] at hle
  exact nearestRootRank_mono (magnitude i).den_pos (magnitude j).den_pos (den_mul_le_num_mul (le_magnitude hi))
    (by exact_mod_cast hle)

theorem rootRank_lt {k : Fin finiteCount} (hk : k.val ≠ 0) : rootRank k < finiteCount :=
  (nearestRootRank_accurate (le_magnitude hk) (magnitude_le k)).1

theorem sqrt_finite {k : Fin finiteCount} (hk : k.val ≠ 0) : sqrt (finite false k) = .ok (ofRank false (rootRank k)) :=
  if_neg (mt beq_iff_eq.mp hk)

/-- The square root of a double is a double, and off by at most 2^-52 of the exact root. -/
theorem sqrt_accurate {x : Binary64} {v : ℚ} (hx : x.value? = some v) (hv : 0 ≤ v) :
    ∃ y r, sqrt x = .ok y ∧ y.value? = some r ∧ |(r : ℝ) - √(v : ℝ)| ≤ √(v : ℝ) / 2 ^ 52 := by
  obtain ⟨s, k, rfl⟩ := finite_of_value? hx
  have hvalue : (if s then -magnitude k else magnitude k) = v := Option.some.inj hx
  by_cases hzero : k.val = 0
  · have hv0 : v = 0 := by rw [← hvalue, hzero, magnitude_zero, neg_zero, ite_self]
    refine ⟨finite s k, v, if_pos (beq_iff_eq.mpr hzero), hx, ?_⟩
    simp [hv0]
  · cases s with
    | true =>
      have hpos := magnitude_pos hzero
      rw [if_pos rfl] at hvalue
      linarith
    | false =>
      obtain rfl : magnitude k = v := hvalue
      have hnear := (nearestRootRank_accurate (le_magnitude hzero) (magnitude_le k)).2
      exact ⟨_, _, sqrt_finite hzero, value?_ofRank (rootRank_lt hzero), hnear⟩

end Binary64

/-! ## Elementary functions -/

/-- Square roots are doubles that are off by at most 2^-52 of the exact root. -/
structure Elementary.SqrtAccurate (f : Elementary) : Prop where
  near : ∀ (x : Binary64) (v : ℚ), x.value? = some v → 0 ≤ v →
    ∃ (y : Binary64) (r : ℚ), f.sqrt x = .ok y ∧ y.value? = some r ∧ |(r : ℝ) - √(v : ℝ)| ≤ √(v : ℝ) / 2 ^ 52

theorem Elementary.native_sqrtAccurate : native.SqrtAccurate where
  near := fun _ _ hx hv => Binary64.sqrt_accurate hx hv

end Surd
