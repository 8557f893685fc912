import Mathlib
import Surd.Proofs.LinearSystem.Growth
import Surd.Proofs.LinearSystem.Solution

/-!
# What doubles hide in a column

No pivot is seen in a column whose real parts are all zero as doubles. Either there are no real parts,
or they are so small that they vanish. The second does not come to two equations with moderate entries:
`inRange_of_isModerate`.
-/

namespace Surd.LinearSystem

open Binary64 (normalCount)

/-! ## Columns that are refused -/

/-- No coefficient has a real part, and the first one is zero while another one is not. -/
def Imaginary : List Row → Prop
  | [] => False
  | first :: rest => first.lead = 0 ∧ (∀ r ∈ first :: rest, r.lead.re = 0) ∧ ∃ r ∈ first :: rest, r.lead ≠ 0

/-- All real parts are zero as doubles though one of them is not zero, and the first coefficient is zero. -/
def Faint : List Row → Prop
  | [] => False
  | first :: rest =>
    first.lead = 0 ∧ (∀ r ∈ first :: rest, r.image.isZero = true) ∧ ∃ r ∈ first :: rest, r.lead.re ≠ 0

theorem blind_iff (rows : List Row) : Blind rows ↔ Faint rows ∨ Imaginary rows := by
  cases rows with
  | nil => simp [Blind, Faint, Imaginary]
  | cons first rest =>
    constructor
    · rintro ⟨hfirst, hzero, hne⟩
      by_cases hre : ∀ r ∈ first :: rest, r.lead.re = 0
      · exact .inr ⟨hfirst, hre, hne⟩
      · push Not at hre
        exact .inl ⟨hfirst, hzero, hre⟩
    · rintro (⟨hfirst, hzero, r, hr, hre⟩ | ⟨hfirst, hre, hne⟩)
      · exact ⟨hfirst, hzero, r, hr, mt (congrArg Gaussian.re) hre⟩
      · exact ⟨hfirst, fun r hr => isZero_image (hre r hr), hne⟩

theorem meets_blind_iff (rows : List Row) : Meets Blind rows ↔ Meets Faint rows ∨ Meets Imaginary rows := by
  simp only [Meets, blind_iff, and_or_left, exists_or]

theorem not_meets_of_step {P : List Row → Prop} {rows : List Row} (h : ¬P rows)
    (hstep : ∀ rows', Step rows rows' → ¬Meets P rows') : ¬Meets P rows := by
  rintro ⟨stage, hreach, hP⟩
  rcases Relation.ReflTransGen.cases_head hreach with rfl | ⟨rows', hfirst, hreach⟩
  · exact h hP
  · exact hstep rows' hfirst ⟨stage, hreach, hP⟩

/-- Two equations take one step and then another one, which leaves none. -/
theorem not_meets_of_two {P : List Row → Prop} {rows : List Row} (hsq : Square 2 rows) (hnil : ¬P []) (h : ¬P rows)
    (hstep : ∀ rows', Step rows rows' → ¬P rows') : ¬Meets P rows := by
  refine not_meets_of_step h fun rows' hfirst => ?_
  refine not_meets_of_step (hstep rows' hfirst) fun rows'' hsecond => ?_
  obtain rfl : rows'' = [] := List.length_eq_zero_iff.mp (hsecond.square (hfirst.square hsq)).count
  refine not_meets_of_step hnil fun _ hthird => ?_
  cases hthird

theorem meets_imaginary_iff {rows : List Row} (hsq : Square 2 rows) : Meets Imaginary rows ↔ Imaginary rows := by
  refine ⟨not_imp_not.mp fun h => not_meets_of_two hsq id h fun rows' hstep himaginary => ?_, fun h => ⟨rows, .refl, h⟩⟩
  obtain ⟨r, rfl⟩ := List.length_eq_one_iff.mp (hstep.square hsq).count
  obtain ⟨hlead, _, r', hr', hne⟩ := himaginary
  obtain rfl := List.mem_singleton.mp hr'
  exact hne hlead

/-! ## Moderate entries -/

namespace Augmented

/-- Doubles are not too large, and hide no real part on which the pivot depends. -/
def InRange {n : Nat} (m : Augmented Gaussian n) : Prop := ¬Meets Overflows m.rows ∧ ¬Meets Faint m.rows

/-- The real and imaginary parts are zero or neither very small nor very large. -/
def IsModerate {n : Nat} (m : Augmented Gaussian n) : Prop :=
  ∀ i j, ∀ x ∈ [(m i j).re, (m i j).im], x = 0 ∨ 1 / 10 ^ 6 ≤ |x| ∧ |x| ≤ 10 ^ 6

end Augmented

/-- Both parts are at most `k`. -/
def PartsLe (k : ℚ) (z : Gaussian) : Prop := |z.re| ≤ k ∧ |z.im| ≤ k

namespace PartsLe

variable {j k : ℚ} {z w : Gaussian}

theorem mono (hz : PartsLe j z) (h : j ≤ k) : PartsLe k z := ⟨hz.1.trans h, hz.2.trans h⟩

theorem sub (hz : PartsLe j z) (hw : PartsLe k w) : PartsLe (j + k) (z - w) :=
  ⟨(abs_sub _ _).trans (add_le_add hz.1 hw.1), (abs_sub _ _).trans (add_le_add hz.2 hw.2)⟩

theorem mul (hz : PartsLe j z) (hw : PartsLe k w) : PartsLe (2 * (j * k)) (z * w) := by
  have hprod : ∀ {x y : ℚ}, |x| ≤ j → |y| ≤ k → |x * y| ≤ j * k := by
    intro x y hx hy
    rw [abs_mul]
    exact mul_le_mul hx hy (abs_nonneg y) ((abs_nonneg x).trans hx)
  constructor
  · calc |z.re * w.re - z.im * w.im| ≤ |z.re * w.re| + |z.im * w.im| := abs_sub _ _
      _ ≤ j * k + j * k := add_le_add (hprod hz.1 hw.1) (hprod hz.2 hw.2)
      _ = 2 * (j * k) := (two_mul _).symm
  · calc |z.re * w.im + z.im * w.re| ≤ |z.re * w.im| + |z.im * w.re| := abs_add_le _ _
      _ ≤ j * k + j * k := add_le_add (hprod hz.1 hw.2) (hprod hz.2 hw.1)
      _ = 2 * (j * k) := (two_mul _).symm

theorem conjugate (hz : PartsLe k z) : PartsLe k z.conjugate :=
  ⟨hz.1, (abs_neg z.im).trans_le hz.2⟩

theorem div {e : ℚ} (he : 0 < e) (hz : PartsLe j z) (hw : PartsLe k w) (h : e ≤ w.modulusSquared) :
    PartsLe (2 * (j * k) / e) (z / w) := by
  have hpos := he.trans_le h
  have hprod := hz.mul hw.conjugate
  have hle : ∀ {x : ℚ}, |x| ≤ 2 * (j * k) → |x / w.modulusSquared| ≤ 2 * (j * k) / e := by
    intro x hx
    rw [abs_div, abs_of_pos hpos]
    exact div_le_div₀ ((abs_nonneg x).trans hx) hx he h
  have hre : (z / w).re = (z * w.conjugate).re / w.modulusSquared := by
    rw [← Gaussian.quotient_eq_div, Gaussian.quotient, Gaussian.mul_re, Gaussian.conjugate, mul_neg, sub_neg_eq_add]
  have him : (z / w).im = (z * w.conjugate).im / w.modulusSquared := by
    rw [← Gaussian.quotient_eq_div, Gaussian.quotient, Gaussian.mul_im, Gaussian.conjugate, mul_neg, neg_add_eq_sub]
  rw [PartsLe, hre, him]
  exact ⟨hle hprod.1, hle hprod.2⟩

end PartsLe

namespace Augmented

/-- The coefficient in the second column that is left by one step, with a pivot from the row `i`. -/
def second (m : Augmented Gaussian 2) (i k : Fin 2) : Gaussian := m k 1 - m k 0 / m i 0 * m i 1

theorem step_rows {m : Augmented Gaussian 2} {rows : List Row} (h : Step m.rows rows) {r : Row} (hr : r ∈ rows) :
    ∃ i k, m i 0 ≠ 0 ∧ r.lead = m.second i k := by
  generalize hm : m.rows = start at h
  cases h with
  | @reduce first p rest others hpivot hlead =>
    have hmem : ∀ q ∈ p :: others, q ∈ m.rows := by
      intro q hq
      rw [hm]
      exact (choosePivot_perm hpivot).mem_iff.mp hq
    obtain ⟨q, hq, rfl⟩ := List.mem_map.mp hr
    obtain ⟨i, rfl⟩ := List.mem_ofFn.mp (hmem p (List.mem_cons_self ..))
    obtain ⟨k, rfl⟩ := List.mem_ofFn.mp (hmem q (List.mem_cons_of_mem _ hq))
    exact ⟨i, k, hlead, rfl⟩

end Augmented

section
variable {m : Augmented Gaussian 2} (h : m.IsModerate)
include h

theorem partsLe_of_isModerate (i : Fin 2) (j : Fin 3) : PartsLe (10 ^ 6) (m i j) := by
  have hle : ∀ x ∈ [(m i j).re, (m i j).im], |x| ≤ 10 ^ 6 := by
    intro x hx
    rcases h i j x hx with rfl | hx
    · norm_num
    · exact hx.2
  exact ⟨hle _ (by simp), hle _ (by simp)⟩

theorem modulusSquared_of_isModerate {i : Fin 2} {j : Fin 3} (hne : m i j ≠ 0) :
    1 / 10 ^ 12 ≤ (m i j).modulusSquared := by
  have hsquare : ∀ x ∈ [(m i j).re, (m i j).im], x = 0 ∨ 1 / 10 ^ 12 ≤ x * x := by
    intro x hx
    refine (h i j x hx).imp_right fun hx => ?_
    rw [← abs_mul_abs_self]
    calc (1 : ℚ) / 10 ^ 12 = 1 / 10 ^ 6 * (1 / 10 ^ 6) := by norm_num
      _ ≤ |x| * |x| := mul_le_mul hx.1 hx.1 (by norm_num) (abs_nonneg x)
  have hre := mul_self_nonneg (m i j).re
  have him := mul_self_nonneg (m i j).im
  unfold Gaussian.modulusSquared
  rcases hsquare _ (by simp : (m i j).re ∈ _) with hre0 | hre'
  · rcases hsquare _ (by simp : (m i j).im ∈ _) with him0 | him'
    · exact absurd (Gaussian.ext hre0 him0) hne
    · linarith
  · linarith

theorem partsLe_second {i : Fin 2} (hne : m i 0 ≠ 0) (k : Fin 2) : PartsLe normalCount (m.second i k) := by
  have hfactor := (partsLe_of_isModerate h k 0).div (by norm_num) (partsLe_of_isModerate h i 0)
    (modulusSquared_of_isModerate h hne)
  have hsecond := (partsLe_of_isModerate h k 1).sub (hfactor.mul (partsLe_of_isModerate h i 1))
  refine hsecond.mono (Binary64.le_normalCount ?_)
  norm_num

theorem image_of_isModerate {r : Row} (hr : r ∈ m.rows) :
    r.image.isFinite = true ∧ (r.image.isZero = true → r.lead.re = 0) := by
  obtain ⟨i, rfl⟩ := List.mem_ofFn.mp hr
  have hlead : (m.row i).lead = m i 0 := rfl
  have hle := (partsLe_of_isModerate h i 0).1.trans (Binary64.le_normalCount (by norm_num))
  rw [Row.image, hlead]
  refine ⟨Binary64.isFinite_ofRat hle, fun hzero => ?_⟩
  refine (h i 0 _ (by simp)).resolve_right fun hre => ?_
  have hlow : (normalCount : ℚ)⁻¹ ≤ |(m i 0).re| :=
    (inv_anti₀ (by norm_num) (Binary64.le_normalCount le_rfl)).trans (le_trans (by norm_num) hre.1)
  rw [Binary64.isZero_ofRat hlow] at hzero
  cases hzero

theorem inRange_of_isModerate : m.InRange := by
  have hsq := m.square_rows
  constructor
  · refine not_meets_of_two hsq ?_ ?_ ?_
    · rintro ⟨r, hr, _⟩
      cases hr
    · rintro ⟨r, hr, hover⟩
      rw [(image_of_isModerate h hr).1] at hover
      cases hover
    · rintro rows' hstep ⟨r, hr, hover⟩
      obtain ⟨i, k, hne, hlead⟩ := Augmented.step_rows hstep hr
      rw [Row.image, hlead, Binary64.isFinite_ofRat (partsLe_second h hne k).1] at hover
      cases hover
  · refine not_meets_of_two hsq id ?_ ?_
    · rintro ⟨_, hzero, r, hr, hre⟩
      exact hre ((image_of_isModerate h hr).2 (hzero r hr))
    · intro rows' hstep hfaint
      obtain ⟨r, rfl⟩ := List.length_eq_one_iff.mp (hstep.square hsq).count
      obtain ⟨hlead, _, r', hr', hre⟩ := hfaint
      obtain rfl := List.mem_singleton.mp hr'
      exact hre (congrArg Gaussian.re hlead)

end

end Surd.LinearSystem
