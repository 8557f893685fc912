import Mathlib
import Surd.Proofs.Binary64.Order
import Surd.Proofs.Binary64.Rounding

/-!
# Doubles for fractions

A larger fraction has no smaller rank, so the range in which the doubles for fractions are finite, and
that in which they are not zero, are known from one fraction each. In between they are off by at most
2^-53 of the fraction: `value_ofRat`.
-/

namespace Surd.Binary64

/-! ## Ranks of fractions -/

/-- The rank of the double for a fraction. -/
def rankOf (x : Rat) : Nat := nearestRank x.num.natAbs x.den

theorem abs_eq_div (x : Rat) : |x| = (x.num.natAbs : ℚ) / x.den := by
  rw [Rat.abs_def, Rat.divInt_eq_div, Int.cast_natCast, Int.cast_natCast]

theorem rankOf_mono {x y : Rat} (h : |x| ≤ |y|) : rankOf x ≤ rankOf y := by
  refine nearestRank_mono x.den_pos y.den_pos ?_
  rw [abs_eq_div, abs_eq_div, div_le_div_iff₀ (Nat.cast_pos.mpr x.den_pos) (Nat.cast_pos.mpr y.den_pos)] at h
  exact_mod_cast h

theorem ofRat_eq (x : Rat) : ofRat x = ofRank (x.num < 0) (rankOf x) := rfl

theorem ofRank_eq {negative : Bool} {rank : Nat} (h : rank < finiteCount) :
    ofRank negative rank = finite negative ⟨rank, h⟩ := dif_pos h

theorem value?_ofRank {rank : Nat} (h : rank < finiteCount) : (ofRank false rank).value? = some (magnitude rank) := by
  rw [ofRank_eq h]
  rfl

/-! ## Range -/

theorem le_normalCount {x : ℚ} (h : x ≤ 10 ^ 31) : x ≤ normalCount := by
  have hle : 10 ^ 31 ≤ normalCount := le_trans (by norm_num) (two_pow_le_normalCount (k := 200) (by decide))
  exact h.trans (by exact_mod_cast hle)

theorem inv_unitCount_le : (unitCount : ℚ)⁻¹ ≤ 1 / 2 ^ 100 := by
  have hle : 2 ^ 100 ≤ unitCount := two_pow_le_unitCount (by decide)
  rw [one_div]
  exact inv_anti₀ (by norm_num) (by exact_mod_cast hle)

theorem rankOf_lt {x : Rat} (h : |x| ≤ normalCount) : rankOf x < finiteCount := by
  have hlimit : rankOf normalCount < finiteCount := by decide +kernel
  refine (rankOf_mono ?_).trans_lt hlimit
  rwa [Nat.abs_cast]

theorem rankOf_pos {x : Rat} (h : (normalCount : ℚ)⁻¹ ≤ |x|) : 0 < rankOf x := by
  have hlimit : 0 < rankOf (normalCount : ℚ)⁻¹ := by decide +kernel
  refine hlimit.trans_le (rankOf_mono ?_)
  rwa [abs_inv, Nat.abs_cast]

theorem isFinite_ofRat {x : Rat} (h : |x| ≤ normalCount) : (ofRat x).isFinite = true := by
  rw [ofRat_eq, ofRank_eq (rankOf_lt h)]
  rfl

theorem isZero_ofRat {x : Rat} (h : (normalCount : ℚ)⁻¹ ≤ |x|) : (ofRat x).isZero = false := by
  rw [ofRat_eq, ofRank]
  split
  · exact beq_eq_false_iff_ne.mpr (rankOf_pos h).ne'
  · rfl

/-! ## Values -/

/-- The double for a positive fraction in the normal range. -/
theorem value_ofRat {x : Rat} (hlow : (normalCount : ℚ)⁻¹ ≤ x) (hhigh : x ≤ normalCount) :
    ∃ r, (ofRat x).value? = some r ∧ |r - x| ≤ x / 2 ^ 53 := by
  have hlimit : (0 : ℚ) < normalCount := Nat.cast_pos.mpr normalCount_pos
  have hpos : 0 < x := (inv_pos.mpr hlimit).trans_le hlow
  have hnum : ¬x.num < 0 := (Rat.num_pos.mpr hpos).not_gt
  have habs : |x| = x := abs_of_pos hpos
  have hdiv := (abs_eq_div x).symm.trans habs
  have hden : (0 : ℚ) < x.den := Nat.cast_pos.mpr x.den_pos
  have hnormal : x.den ≤ x.num.natAbs * normalCount := by
    rw [← hdiv, inv_le_iff_one_le_mul₀ hlimit, div_mul_eq_mul_div, one_le_div hden] at hlow
    exact_mod_cast hlow
  refine ⟨magnitude (rankOf x), ?_, ?_⟩
  · rw [ofRat_eq, decide_eq_false hnum]
    exact value?_ofRank (rankOf_lt (habs.trans_le hhigh))
  · have hnear := abs_magnitude_nearestRank_sub_le x.den_pos hnormal
    rwa [hdiv] at hnear

/-! ## Magnitudes -/

theorem value?_abs {x : Binary64} {v : ℚ} (h : x.value? = some v) : x.abs.value? = some |v| := by
  obtain ⟨s, k, rfl⟩ := finite_of_value? h
  have hnonneg := magnitude_nonneg k
  change some (magnitude k) = _
  rw [← Option.some.inj h]
  cases s
  · simp [abs_of_nonneg hnonneg]
  · simp [abs_of_nonneg hnonneg]

/-! ## Differences -/

theorem abs_ofRank (negative : Bool) (rank : Nat) : (ofRank negative rank).abs = ofRank false rank := by
  unfold ofRank
  split <;> rfl

theorem place?_ofRank (rank : Nat) : (ofRank false rank).place? = some ((min rank finiteCount : Nat) : Int) := by
  unfold ofRank
  split
  · rename_i h
    rw [Nat.min_eq_left h.le]
    rfl
  · rename_i h
    rw [Nat.min_eq_right (Nat.le_of_not_lt h)]
    rfl

/-- A double below the one for a magnitude stands for a smaller magnitude. -/
theorem abs_lt_of_lt {x c : ℚ} (hc : 0 ≤ c) (h : (ofRat x).abs.lt (ofRat c) = true) : |x| < c := by
  by_contra hnot
  have hle : rankOf c ≤ rankOf x := rankOf_mono (by rw [abs_of_nonneg hc]; exact not_lt.mp hnot)
  have hnum : ¬c.num < 0 := (Rat.num_nonneg.mpr hc).not_gt
  obtain ⟨i, j, hi, hj, hij⟩ := lt_iff.mp h
  rw [ofRat_eq, abs_ofRank, place?_ofRank, Option.some.injEq] at hi
  rw [ofRat_eq, decide_eq_false hnum, place?_ofRank, Option.some.injEq] at hj
  omega

theorem lt_ofRat_iff {x c : ℚ} (hx : 0 ≤ x) (hc : 0 ≤ c) (hlimit : rankOf c < finiteCount) :
    (ofRat x).lt (ofRat c) = true ↔ rankOf x < rankOf c := by
  have hnum : ∀ {y : ℚ}, 0 ≤ y → ofRat y = ofRank false (rankOf y) := fun hy => by
    rw [ofRat_eq, decide_eq_false (Rat.num_nonneg.mpr hy).not_gt]
  rw [lt_iff, hnum hx, hnum hc, place?_ofRank, place?_ofRank]
  simp only [Option.some.injEq, exists_and_left, exists_eq_left']
  omega

theorem sub_eq_ofRat {x y : Binary64} {a b : ℚ} (hx : x.value? = some a) (hy : y.value? = some b) (hne : a ≠ b) :
    x - y = ofRat (a - b) := by
  obtain ⟨s, i, rfl⟩ := finite_of_value? hx
  obtain ⟨t, j, rfl⟩ := finite_of_value? hy
  have hneg : (finite (!t) j).value? = some (-b) := by
    cases t <;> simp [value?] at hy ⊢ <;> linarith
  change (if (finite s i).value?.getD 0 + (finite (!t) j).value?.getD 0 = 0 then signedZero (s && !t)
    else ofRat ((finite s i).value?.getD 0 + (finite (!t) j).value?.getD 0)) = _
  rw [hx, hneg, Option.getD_some, Option.getD_some, ← sub_eq_add_neg, if_neg (sub_ne_zero.mpr hne)]

theorem abs_sub_lt_of_lt {x y : Binary64} {a b c : ℚ} (hx : x.value? = some a) (hy : y.value? = some b) (hc : 0 < c)
    (h : (x - y).abs.lt (ofRat c) = true) : |a - b| < c := by
  by_cases hne : a = b
  · rwa [hne, sub_self, abs_zero]
  · rw [sub_eq_ofRat hx hy hne] at h
    exact abs_lt_of_lt hc.le h

end Surd.Binary64
